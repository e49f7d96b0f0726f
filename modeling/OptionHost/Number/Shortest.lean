import OptionHost.Number.Binary64
import OptionHost.Text.Digit

/-!
# The shortest decimal of a number

The fewest significant digits that read back as the same binary64 number, and among those
the nearest to it. A number of `n` digits is sought on the decimal grid of `n` places around
the value, for `n` from one to seventeen.
-/

namespace OptionHost.Binary64

/-- The least `k` with `num / den < 10 ^ k`, for a quotient within the range of binary64. -/
def decimalMagnitude (num den : Nat) : Int :=
  if den ≤ num then (Nat.toDigits 10 (num / den)).length
  else
    let rec below : Nat → Nat → Nat → Int
      | 0, _, k => -(k : Int)
      | fuel + 1, n, k => if den ≤ n * 10 then -(k : Int) else below fuel (n * 10) (k + 1)
    below 400 num 0

/-- `num / den` in units of `10 ^ e`, as a quotient. -/
def inUnits (num den : Nat) (e : Int) : Nat × Nat :=
  match e with
  | .ofNat k => (num, den * Nat.pow 10 k)
  | .negSucc k => (num * Nat.pow 10 (k + 1), den)

/-- Of the two neighbours of a quotient on the grid of `10 ^ e`, those that read back as `x`,
the nearer first and the even one first where both are as near. -/
def neighbours (x : Binary64) (num den : Nat) (e : Int) : List Nat :=
  let (n, d) := inUnits num den e
  let q := n / d
  let twice := 2 * (n % d)
  let ordered :=
    if twice < d || (twice == d && q % 2 == 0) then [q, q + 1] else [q + 1, q]
  ordered.filter fun candidate => ofScientific false candidate e == x

/-- The shortest digits of a positive finite number with their power of ten. -/
def shortestFrom (x : Binary64) (num den : Nat) (magnitude : Int) :
    (fuel : Nat) → (places : Nat) → Nat × Int
  | 0, places => (num / den, magnitude - places)
  | fuel + 1, places =>
    match neighbours x num den (magnitude - places) with
    | digits :: _ => (digits, magnitude - places)
    | [] => shortestFrom x num den magnitude fuel (places + 1)

/-- Shortest digits and power of ten of a magnitude `significand * 2 ^ exponent`. -/
def shortest (significand : Nat) (exponent : Int) : Nat × Int :=
  let (num, den) := magnitude significand exponent
  shortestFrom (.finite false significand exponent) num den (decimalMagnitude num den) 17 1

/-- How a number is laid out: positional while the decimal point stands within the bounds, and
with an exponent of at least `exponentWidth` digits elsewhere. -/
structure Layout where
  /-- The least decimal exponent of the leading digit that is written positionally. -/
  leastPositional : Int
  /-- The first decimal exponent that is no longer written positionally. -/
  endPositional : Int
  exponentWidth : Nat

/-- Positional from `0.0001` to below `1e16`, two digits of exponent outside. -/
def plainLayout : Layout := ⟨-4, 16, 2⟩

def padLeft (width : Nat) (digits : List Char) : List Char :=
  List.replicate (width - digits.length) '0' ++ digits

/-- The digits without the zeros at their end, unless all are zeros. -/
def significantDigits (digits : Nat) : List Char :=
  let text := Text.decimal digits
  let cut := (text.reverse.dropWhile (· == '0')).reverse
  if cut.isEmpty then ['0'] else cut

/-- Text of `digits * 10 ^ exponent`, its leading digit having decimal exponent `lead`. -/
def Layout.render (layout : Layout) (digits : List Char) (lead : Int) : List Char :=
  if layout.leastPositional ≤ lead && lead < layout.endPositional then
    if lead < 0 then
      '0' :: '.' :: (List.replicate (lead.natAbs - 1) '0' ++ digits)
    else
      let whole := lead.toNat + 1
      let digits' := digits ++ List.replicate (whole - digits.length) '0'
      let fraction := digits'.drop whole
      digits'.take whole ++ '.' :: (if fraction.isEmpty then ['0'] else fraction)
  else
    let mantissa :=
      match digits with
      | [d] => [d]
      | d :: rest => d :: '.' :: rest
      | [] => ['0']
    mantissa ++ 'e' :: (if lead < 0 then '-' else '+') ::
      padLeft layout.exponentWidth (Text.decimal lead.natAbs)

/-- The text of a number: shortest digits, at least one behind the point. -/
def shown : Binary64 → List Char
  | .nan => ['n', 'a', 'n']
  | .infinite negative => if negative then ['-', 'i', 'n', 'f'] else ['i', 'n', 'f']
  | .finite negative s e =>
    let body :=
      if s == 0 then ['0', '.', '0']
      else
        let (digits, power) := shortest s e
        let lead := power + (Text.decimal digits).length - 1
        plainLayout.render (significantDigits digits) lead
    if negative then '-' :: body else body

end OptionHost.Binary64

/-!
# Binary64 numbers

Floating-point numbers of 53 bits as exact data: a sign, a significand and a power of two.
Every operation rounds the exact result once, halves to the even significand, so no
statement about them needs the machine's own arithmetic.
-/

namespace OptionHost

/-- A binary64 number. A finite one is `significand * 2 ^ exponent` with its sign; the canonical
form has `significand < 2 ^ 53` and the least exponent `-1074` wherever `significand < 2 ^ 52`. -/
inductive Binary64 where
  | nan
  | infinite (negative : Bool)
  | finite (negative : Bool) (significand : Nat) (exponent : Int)
  deriving DecidableEq, Repr, Inhabited

namespace Binary64

def leastExponent : Int := -1074

def greatestExponent : Int := 971

def leastNormal : Nat := Nat.pow 2 52

/-- A quotient rounded to the nearest natural number, halves to the even one. -/
def roundQuotient (num den : Nat) : Nat :=
  let q := num / den
  let twice := 2 * (num % den)
  if twice < den then q
  else if den < twice then q + 1
  else if q % 2 == 0 then q else q + 1

/-- The position of the highest bit, counted from one. -/
def bitLength (n : Nat) : Nat := if n == 0 then 0 else n.log2 + 1

/-- `num / den / 2 ^ e` as a quotient of natural numbers. -/
def scaled (num den : Nat) (e : Int) : Nat × Nat :=
  match e with
  | .ofNat k => (num, den * Nat.pow 2 k)
  | .negSucc k => (num * Nat.pow 2 (k + 1), den)

/-- The exponent of the last place of a positive quotient. -/
def placeExponent (num den : Nat) : Int :=
  let guess : Int := (bitLength num : Int) - bitLength den - 53
  let (n, d) := scaled num den guess
  let exact := if n / d < leastNormal then guess - 1
    else if n / d < 2 * leastNormal then guess
    else guess + 1
  max exact leastExponent

/-- Settles the carry of a rounding and the limits of the exponent. -/
def settle (negative : Bool) (significand : Nat) (exponent : Int) : Binary64 :=
  if significand == 0 then .finite negative 0 leastExponent
  else
    let (s, e) :=
      if significand == 2 * leastNormal then (leastNormal, exponent + 1)
      else (significand, exponent)
    if greatestExponent < e then .infinite negative else .finite negative s e

/-- The number nearest to a quotient; the denominator is positive. -/
def ofRatio (negative : Bool) (num den : Nat) : Binary64 :=
  if num == 0 then .finite negative 0 leastExponent
  else
    let e := placeExponent num den
    let (n, d) := scaled num den e
    settle negative (roundQuotient n d) e

/-- The number nearest to `digits * 10 ^ exponent`. Powers far outside the range are settled by
the count of digits alone. -/
def ofScientific (negative : Bool) (digits : Nat) (exponent : Int) : Binary64 :=
  if digits == 0 then .finite negative 0 leastExponent
  else
    let magnitude : Int := (Nat.toDigits 10 digits).length + exponent
    if 310 < magnitude then .infinite negative
    else if magnitude < -330 then .finite negative 0 leastExponent
    else
      match exponent with
      | .ofNat k => ofRatio negative (digits * Nat.pow 10 k) 1
      | .negSucc k => ofRatio negative digits (Nat.pow 10 (k + 1))

/-- The nearest number to an integer, infinite where it is out of range. -/
def ofInt (n : Int) : Binary64 := ofRatio (n < 0) n.natAbs 1

def zero : Binary64 := .finite false 0 leastExponent

def isFinite : Binary64 → Bool
  | .finite .. => true
  | _ => false

def isZero : Binary64 → Bool
  | .finite _ 0 _ => true
  | _ => false

def isNegative : Binary64 → Bool
  | .nan => false
  | .infinite negative => negative
  | .finite negative _ _ => negative

def magnitude (significand : Nat) (exponent : Int) : Nat × Nat :=
  match exponent with
  | .ofNat k => (significand * Nat.pow 2 k, 1)
  | .negSucc k => (significand, Nat.pow 2 (k + 1))

/-- The exact value of a finite number as a signed quotient with a positive denominator. -/
def ratio? : Binary64 → Option (Int × Nat)
  | .finite negative s e =>
    let (n, d) := magnitude s e
    some (if negative then -(n : Int) else n, d)
  | _ => none

/-- The integer that the number is, if it is one. -/
def toInt? (x : Binary64) : Option Int := do
  let (n, d) ← x.ratio?
  if n.natAbs % d == 0 then some (n / d) else none

def neg : Binary64 → Binary64
  | .nan => .nan
  | .infinite negative => .infinite !negative
  | .finite negative s e => .finite (!negative) s e

def compareRatio? (x : Binary64) (num : Int) (den : Nat) : Option Ordering :=
  match x with
  | .nan => none
  | .infinite negative => some (if negative then .lt else .gt)
  | .finite negative s e =>
    let (n, d) := magnitude s e
    let signed : Int := if negative then -(n : Int) else n
    some (compare (signed * den) (num * d))

/-- Numerical comparison, undefined where either side is not a number. -/
def compare? (x y : Binary64) : Option Ordering :=
  match y with
  | .nan => none
  | .infinite negative =>
    match x with
    | .nan => none
    | .infinite negative' =>
      some (if negative == negative' then .eq else if negative then .gt else .lt)
    | .finite .. => some (if negative then .gt else .lt)
  | .finite negative s e =>
    let (n, d) := magnitude s e
    x.compareRatio? (if negative then -(n : Int) else n) d

/-- Numerical equality: the two zeros are equal and nan equals nothing. -/
def same (x y : Binary64) : Bool := x.compare? y == some .eq

def sameInt (x : Binary64) (n : Int) : Bool := x.compareRatio? n 1 == some .eq

def add (x y : Binary64) : Binary64 :=
  match x, y with
  | .nan, _ | _, .nan => .nan
  | .infinite a, .infinite b => if a == b then .infinite a else .nan
  | .infinite a, _ | _, .infinite a => .infinite a
  | .finite a s e, .finite b t f =>
    let (n, d) := magnitude s e
    let (m, c) := magnitude t f
    let total : Int := (if a then -(n : Int) else n) * c + (if b then -(m : Int) else m) * d
    if total == 0 then .finite (a && b) 0 leastExponent
    else ofRatio (total < 0) total.natAbs (d * c)

def mul (x y : Binary64) : Binary64 :=
  match x, y with
  | .nan, _ | _, .nan => .nan
  | .infinite a, y => if y.isZero then .nan else .infinite (a != y.isNegative)
  | x, .infinite b => if x.isZero then .nan else .infinite (x.isNegative != b)
  | .finite a s e, .finite b t f =>
    let (n, d) := magnitude s e
    let (m, c) := magnitude t f
    ofRatio (a != b) (n * m) (d * c)

end Binary64

end OptionHost

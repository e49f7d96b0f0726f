/-!
# Base64

Octets written with 64 characters, six bits each. Reading is lenient: other characters are
passed over, and the text ends at the first padding that completes a group of four.
-/

namespace OptionHost.Text.Base64

def digit? (c : Char) : Option Nat :=
  let n := c.toNat
  if 65 ≤ n && n ≤ 90 then some (n - 65)
  else if 97 ≤ n && n ≤ 122 then some (n - 71)
  else if 48 ≤ n && n ≤ 57 then some (n + 4)
  else if c == '+' then some 62
  else if c == '/' then some 63
  else none

/-- A group of four characters in the making: how many there are, the bits that are left over,
and the padding just before. -/
structure Group where
  size : Nat
  left : Nat
  pads : Nat
  deriving Inhabited

def Group.start : Group := ⟨0, 0, 0⟩

/-- The octet that six more bits complete, if any, and the group with them. -/
def Group.push (g : Group) (d : Nat) : Option UInt8 × Group :=
  match g.size with
  | 0 => (none, ⟨1, d, 0⟩)
  | 1 => (some (UInt8.ofNat (g.left * 4 + d / 16)), ⟨2, d % 16, 0⟩)
  | 2 => (some (UInt8.ofNat (g.left * 16 + d / 4)), ⟨3, d % 4, 0⟩)
  | _ => (some (UInt8.ofNat (g.left * 64 + d)), .start)

def decodeFrom? : Group → List Char → Option (List UInt8)
  | g, [] => if g.size == 0 then some [] else none
  | g, c :: rest =>
    if c == '=' then
      if 2 ≤ g.size then
        if 4 ≤ g.size + g.pads + 1 then some []
        else decodeFrom? { g with pads := g.pads + 1 } rest
      else decodeFrom? g rest
    else
      match digit? c with
      | none => decodeFrom? g rest
      | some d =>
        let (octet, g) := g.push d
        (decodeFrom? g rest).map (octet.toList ++ ·)

/-- The octets of a text, unless it breaks off within a group. -/
def decode? (text : List Char) : Option (List UInt8) := decodeFrom? .start text

end OptionHost.Text.Base64

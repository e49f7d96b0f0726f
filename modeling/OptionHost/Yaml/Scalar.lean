import OptionHost.Text.Base64
import OptionHost.Text.LowerCase
import OptionHost.Yaml.Tag

/-!
# Values of scalars

What a scalar of a given tag stands for. A tag may be written before any text, so every tag
has texts that do not suit it.
-/

namespace OptionHost.Yaml.Scalar

def withoutUnderscores (s : List Char) : List Char := s.filter (· != '_')

def noDigits : Fault := .foreign "IndexError" "string index out of range"

def readBool (text : String) : Except Fault Bool :=
  match String.ofList (Text.lower text.toList) with
  | "yes" | "true" | "on" => .ok true
  | "no" | "false" | "off" => .ok false
  | word => .error (.unknownKey word)

/-- The number whose places in base sixty are given, the greatest first. -/
def sixtieths (places : List Int) : Int := places.foldl (fun n place => n * 60 + place) 0

def readInt (text : String) : Except Fault Int := do
  let s := withoutUnderscores text.toList
  if s.isEmpty then throw noDigits
  let (negative, body) := Literal.splitSign s
  let n ←
    match body with
    | [] => throw noDigits
    | ['0'] => pure 0
    | '0' :: 'b' :: rest => Literal.readIntegerIn 2 (String.ofList rest)
    | '0' :: 'x' :: rest => Literal.readIntegerIn 16 (String.ofList rest)
    | '0' :: _ => Literal.readIntegerIn 8 (String.ofList body)
    | body =>
      if body.contains ':' then
        sixtieths <$> (body.splitOn ':').mapM (Literal.readInteger ∘ String.ofList)
      else Literal.readInteger (String.ofList body)
  return if negative then -n else n

/-- The sum of places in base sixty, the least first, each rounded as it is added. -/
def addSixtieths (sum : Binary64) (unit : Nat) : List Binary64 → Except Fault Binary64
  | [] => .ok sum
  | place :: rest =>
    let factor := Binary64.ofInt unit
    if factor.isFinite then addSixtieths (sum.add (place.mul factor)) (unit * 60) rest
    else .error (.foreign "OverflowError" "int too large to convert to float")

def readFloat (text : String) : Except Fault Binary64 := do
  let s := Text.lower (withoutUnderscores text.toList)
  if s.isEmpty then throw noDigits
  let (negative, body) := Literal.splitSign s
  let x ←
    match String.ofList body with
    | ".inf" => pure (.infinite false)
    | ".nan" => pure .nan
    | word =>
      if body.contains ':' then do
        let places ← (body.splitOn ':').mapM (Literal.readFloat ∘ String.ofList)
        addSixtieths .zero 1 places.reverse
      else Literal.readFloat word
  return if negative then x.neg else x

/-- Octets are written in ASCII; text that is no octets is a fault of the document. -/
def readBinary (text : String) : Reading (List UInt8) :=
  if text.toList.all (·.toNat < 128) then
    match Text.Base64.decode? text.toList with
    | some octets => .ok octets
    | none => malformed
  else malformed

def readTimestamp (text : String) : Except Fault Value :=
  match Stamp.ofText? (Plain.withoutLastBreak text.toList) with
  | some stamp => stamp.toValue
  | none => .error (.unknownAttribute "NoneType" "groupdict")

def ofFault {α : Type} : Except Fault α → Reading α
  | .ok a => .ok a
  | .error f => .error (.fault f)

def read (tag : Tag) (text : String) : Reading Value :=
  match tag with
  | .null => .ok .null
  | .bool => ofFault ((readBool text).map .bool)
  | .int => ofFault ((readInt text).map .int)
  | .float => ofFault ((readFloat text).map .float)
  | .binary => (readBinary text).map .bytes
  | .timestamp => ofFault (readTimestamp text)
  | .str => .ok (.text text)
  | .seq | .map | .set | .omap | .pairs | .merge | .value | .unknown => malformed

end OptionHost.Yaml.Scalar

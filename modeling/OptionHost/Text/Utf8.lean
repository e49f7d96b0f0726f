import OptionHost.Text.Digit

/-!
# UTF-8

Decoding of octets, refusing overlong forms, surrogates and values beyond U+10FFFF.
-/

namespace OptionHost.Text

/-- The payload of a continuation octet whose value lies between two bounds. -/
def tail? (low high : Nat) (b : UInt8) : Option Nat :=
  if low ≤ b.toNat && b.toNat ≤ high then some (b.toNat - 0x80) else none

/-- The text that a sequence of octets encodes, or nothing where the sequence is malformed. -/
def decodeUtf8? : List UInt8 → Option (List Char)
  | [] => some []
  | a :: rest =>
    let lead := a.toNat
    if lead < 0x80 then
      (decodeUtf8? rest).map (Char.ofNat lead :: ·)
    else if 0xC2 ≤ lead && lead ≤ 0xDF then
      match rest with
      | b :: rest => do
        let x ← tail? 0x80 0xBF b
        (decodeUtf8? rest).map (Char.ofNat ((lead - 0xC0) * 64 + x) :: ·)
      | _ => none
    else if 0xE0 ≤ lead && lead ≤ 0xEF then
      match rest with
      | b :: c :: rest => do
        let x ← tail? (if lead == 0xE0 then 0xA0 else 0x80) (if lead == 0xED then 0x9F else 0xBF) b
        let y ← tail? 0x80 0xBF c
        (decodeUtf8? rest).map (Char.ofNat ((lead - 0xE0) * 4096 + x * 64 + y) :: ·)
      | _ => none
    else if 0xF0 ≤ lead && lead ≤ 0xF4 then
      match rest with
      | b :: c :: d :: rest => do
        let x ← tail? (if lead == 0xF0 then 0x90 else 0x80) (if lead == 0xF4 then 0x8F else 0xBF) b
        let y ← tail? 0x80 0xBF c
        let z ← tail? 0x80 0xBF d
        (decodeUtf8? rest).map
          (Char.ofNat ((lead - 0xF0) * 262144 + x * 4096 + y * 64 + z) :: ·)
      | _ => none
    else none

/-- The bounds of the octets that follow a lead octet; an octet that leads nothing has none. -/
def tailBounds? (lead : Nat) : Option (List (Nat × Nat)) :=
  if lead < 0x80 then some []
  else if lead < 0xC2 then none
  else if lead ≤ 0xDF then some [(0x80, 0xBF)]
  else if lead == 0xE0 then some [(0xA0, 0xBF), (0x80, 0xBF)]
  else if lead == 0xED then some [(0x80, 0x9F), (0x80, 0xBF)]
  else if lead ≤ 0xEF then some [(0x80, 0xBF), (0x80, 0xBF)]
  else if lead == 0xF0 then some [(0x90, 0xBF), (0x80, 0xBF), (0x80, 0xBF)]
  else if lead ≤ 0xF3 then some [(0x80, 0xBF), (0x80, 0xBF), (0x80, 0xBF)]
  else if lead == 0xF4 then some [(0x80, 0x8F), (0x80, 0xBF), (0x80, 0xBF)]
  else none

/-- How many octets of a character are in order, and why the next one is not. -/
def tailTrouble? (taken : Nat) : List (Nat × Nat) → List UInt8 → Option (Nat × String)
  | [], _ => none
  | _ :: _, [] => some (taken, "unexpected end of data")
  | (low, high) :: bounds, b :: rest =>
    if low ≤ b.toNat && b.toNat ≤ high then tailTrouble? (taken + 1) bounds rest
    else some (taken, "invalid continuation byte")

/-- Where octets stop being UTF-8: position, number of octets concerned, and reason. -/
def malformedAt? : (fuel position : Nat) → List UInt8 → Option (Nat × Nat × String)
  | 0, _, _ => none
  | _, _, [] => none
  | fuel + 1, position, a :: rest =>
    match tailBounds? a.toNat with
    | none => some (position, 1, "invalid start byte")
    | some bounds =>
      match tailTrouble? 1 bounds rest with
      | some (length, reason) => some (position, length, reason)
      | none => malformedAt? fuel (position + 1 + bounds.length) (rest.drop bounds.length)

def utf8Trouble (bytes : List UInt8) : String :=
  match malformedAt? bytes.length 0 bytes with
  | none => ""
  | some (position, length, reason) =>
    "'utf-8' codec can't decode " ++
      (if length == 1 then
        let octet := (bytes.getD position 0).toNat
        s!"byte 0x{String.ofList (hexDigits 2 octet)} in position {position}"
      else s!"bytes in position {position}-{position + length - 1}") ++ ": " ++ reason

def encodeChar (c : Char) : List UInt8 :=
  let n := c.toNat
  if n < 0x80 then [n.toUInt8]
  else if n < 0x800 then [(0xC0 + n / 64).toUInt8, (0x80 + n % 64).toUInt8]
  else if n < 0x10000 then
    [(0xE0 + n / 4096).toUInt8, (0x80 + n / 64 % 64).toUInt8, (0x80 + n % 64).toUInt8]
  else
    [(0xF0 + n / 262144).toUInt8, (0x80 + n / 4096 % 64).toUInt8, (0x80 + n / 64 % 64).toUInt8,
      (0x80 + n % 64).toUInt8]

def encodeUtf8 (s : List Char) : List UInt8 := s.flatMap encodeChar

end OptionHost.Text

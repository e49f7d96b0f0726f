import Mathlib.Tactic.Common
import OptionHost.Text.Utf8

/-!
# The encoding of a text

Decoding is the inverse of encoding: octets are read as a text exactly if they are the encoding
of that text. So a text has one encoding, and octets that cannot be read encode no text.
-/

namespace OptionHost.Text

variable {low high n x y z : Nat} {a b c d : UInt8} {rest : List UInt8}

/-! ## Octets and their numbers -/

theorem tail?_eq_some : tail? low high b = some x ↔
    low ≤ b.toNat ∧ b.toNat ≤ high ∧ b.toNat - 0x80 = x := by
  simp only [tail?, Bool.and_eq_true, decide_eq_true_eq]
  grind

theorem toNat_toUInt8 (small : n < 256) : n.toUInt8.toNat = n := by
  simpa using Nat.mod_eq_of_lt small

/-- An octet is the one that its number names. -/
theorem eq_toUInt8 (value : b.toNat = n) : b = n.toUInt8 :=
  UInt8.toNat_inj.mp (by rw [toNat_toUInt8 (value ▸ b.toNat_lt), value])

/-- A continuation octet within two bounds is read as its payload. -/
theorem tail?_toUInt8 (above : low ≤ 0x80 + x) (below : 0x80 + x ≤ high) (small : high < 256) :
    tail? low high (0x80 + x).toUInt8 = some x := by
  have octet := toNat_toUInt8 (n := 0x80 + x) (by omega)
  exact tail?_eq_some.mpr ⟨by omega, by omega, by omega⟩

theorem toNat_ofNat (valid : n.isValidChar) : (Char.ofNat n).toNat = n := by
  rw [Char.ofNat, dif_pos valid]
  rfl

/-! ## What is encoded is decoded, by the number of octets -/

theorem decodeUtf8?_one (small : n < 0x80) :
    decodeUtf8? (n.toUInt8 :: rest) = (decodeUtf8? rest).map (Char.ofNat n :: ·) := by
  have lead := toNat_toUInt8 (n := n) (by omega)
  rw [decodeUtf8?.eq_def]
  simp only [lead, if_pos small]

theorem decodeUtf8?_two (large : 0x80 ≤ n) (small : n < 0x800) :
    decodeUtf8? ((0xC0 + n / 64).toUInt8 :: (0x80 + n % 64).toUInt8 :: rest) =
      (decodeUtf8? rest).map (Char.ofNat n :: ·) := by
  have lead := toNat_toUInt8 (n := 0xC0 + n / 64) (by omega)
  have last : tail? 0x80 0xBF (0x80 + n % 64).toUInt8 = some (n % 64) :=
    tail?_toUInt8 (by omega) (by omega) (by omega)
  have whole : (0xC0 + n / 64 - 0xC0) * 64 + n % 64 = n := by omega
  rw [decodeUtf8?, lead]
  simp only [last, whole, Option.bind_eq_bind, Option.bind_some]
  rw [if_neg (by omega), if_pos (by simp; omega)]

theorem decodeUtf8?_three (large : 0x800 ≤ n) (small : n < 0x10000) (valid : n.isValidChar) :
    decodeUtf8? ((0xE0 + n / 4096).toUInt8 :: (0x80 + n / 64 % 64).toUInt8 ::
        (0x80 + n % 64).toUInt8 :: rest) =
      (decodeUtf8? rest).map (Char.ofNat n :: ·) := by
  unfold Nat.isValidChar at valid
  have lead := toNat_toUInt8 (n := 0xE0 + n / 4096) (by omega)
  have second : tail? (if (0xE0 + n / 4096 == 0xE0) = true then 0xA0 else 0x80)
      (if (0xE0 + n / 4096 == 0xED) = true then 0x9F else 0xBF)
      (0x80 + n / 64 % 64).toUInt8 = some (n / 64 % 64) := by
    apply tail?_toUInt8
    · split_ifs with h <;> simp at h <;> omega
    · split_ifs with h <;> simp at h <;> omega
    · split_ifs <;> omega
  have last : tail? 0x80 0xBF (0x80 + n % 64).toUInt8 = some (n % 64) :=
    tail?_toUInt8 (by omega) (by omega) (by omega)
  have whole : (0xE0 + n / 4096 - 0xE0) * 4096 + n / 64 % 64 * 64 + n % 64 = n := by omega
  rw [decodeUtf8?, lead]
  simp only [second, last, whole, Option.bind_eq_bind, Option.bind_some]
  rw [if_neg (by omega), if_neg (by simp; omega), if_pos (by simp; omega)]

theorem decodeUtf8?_four (large : 0x10000 ≤ n) (valid : n.isValidChar) :
    decodeUtf8? ((0xF0 + n / 262144).toUInt8 :: (0x80 + n / 4096 % 64).toUInt8 ::
        (0x80 + n / 64 % 64).toUInt8 :: (0x80 + n % 64).toUInt8 :: rest) =
      (decodeUtf8? rest).map (Char.ofNat n :: ·) := by
  unfold Nat.isValidChar at valid
  have lead := toNat_toUInt8 (n := 0xF0 + n / 262144) (by omega)
  have second : tail? (if (0xF0 + n / 262144 == 0xF0) = true then 0x90 else 0x80)
      (if (0xF0 + n / 262144 == 0xF4) = true then 0x8F else 0xBF)
      (0x80 + n / 4096 % 64).toUInt8 = some (n / 4096 % 64) := by
    apply tail?_toUInt8
    · split_ifs with h <;> simp at h <;> omega
    · split_ifs with h <;> simp at h <;> omega
    · split_ifs <;> omega
  have third : tail? 0x80 0xBF (0x80 + n / 64 % 64).toUInt8 = some (n / 64 % 64) :=
    tail?_toUInt8 (by omega) (by omega) (by omega)
  have last : tail? 0x80 0xBF (0x80 + n % 64).toUInt8 = some (n % 64) :=
    tail?_toUInt8 (by omega) (by omega) (by omega)
  have whole : (0xF0 + n / 262144 - 0xF0) * 262144 + n / 4096 % 64 * 4096 +
      n / 64 % 64 * 64 + n % 64 = n := by omega
  rw [decodeUtf8?, lead]
  simp only [second, third, last, whole, Option.bind_eq_bind, Option.bind_some]
  rw [if_neg (by omega), if_neg (by simp; omega), if_neg (by simp; omega),
    if_pos (by simp; omega)]

/-- What stands behind a character's encoding is decoded behind that character. -/
theorem decodeUtf8?_encodeChar_append (c : Char) (rest : List UInt8) :
    decodeUtf8? (encodeChar c ++ rest) = (decodeUtf8? rest).map (c :: ·) := by
  have valid : c.toNat.isValidChar := c.valid
  have named := c.ofNat_toNat
  rw [encodeChar]
  generalize c.toNat = n at valid named
  subst named
  split_ifs with one two three
  · exact decodeUtf8?_one one
  · exact decodeUtf8?_two (by omega) two
  · exact decodeUtf8?_three (by omega) three valid
  · exact decodeUtf8?_four (by omega) valid

/-! ## What is decoded is encoded, by the number of octets -/

theorem encodeChar_one (lead : a.toNat < 0x80) : encodeChar (Char.ofNat a.toNat) = [a] := by
  rw [encodeChar, toNat_ofNat (.inl (by omega)), if_pos lead, ← eq_toUInt8 rfl]

theorem encodeChar_two (above : 0xC2 ≤ a.toNat) (below : a.toNat ≤ 0xDF)
    (last : tail? 0x80 0xBF b = some x) :
    encodeChar (Char.ofNat ((a.toNat - 0xC0) * 64 + x)) = [a, b] := by
  obtain ⟨low, high, rfl⟩ := tail?_eq_some.mp last
  rw [encodeChar, toNat_ofNat (.inl (by omega)), if_neg (by omega), if_pos (by omega),
    ← eq_toUInt8 (b := a) (by omega), ← eq_toUInt8 (b := b) (by omega)]

theorem encodeChar_three (above : 0xE0 ≤ a.toNat) (below : a.toNat ≤ 0xEF)
    (second : tail? (if (a.toNat == 0xE0) = true then 0xA0 else 0x80)
      (if (a.toNat == 0xED) = true then 0x9F else 0xBF) b = some x)
    (last : tail? 0x80 0xBF c = some y) :
    encodeChar (Char.ofNat ((a.toNat - 0xE0) * 4096 + x * 64 + y)) = [a, b, c] := by
  simp only [tail?_eq_some, beq_iff_eq] at second last
  obtain ⟨low₂, high₂, rfl⟩ := second
  obtain ⟨low, high, rfl⟩ := last
  have long : a.toNat = 0xE0 → 0xA0 ≤ b.toNat := fun h => by simpa [h] using low₂
  have noSurrogate : a.toNat = 0xED → b.toNat ≤ 0x9F := fun h => by simpa [h] using high₂
  have tail : 0x80 ≤ b.toNat ∧ b.toNat ≤ 0xBF := by
    split_ifs at low₂ high₂ <;> omega
  clear low₂ high₂
  rw [encodeChar, toNat_ofNat (by unfold Nat.isValidChar; omega), if_neg (by omega),
    if_neg (by omega), if_pos (by omega), ← eq_toUInt8 (b := a) (by omega),
    ← eq_toUInt8 (b := b) (by omega), ← eq_toUInt8 (b := c) (by omega)]

theorem encodeChar_four (above : 0xF0 ≤ a.toNat) (below : a.toNat ≤ 0xF4)
    (second : tail? (if (a.toNat == 0xF0) = true then 0x90 else 0x80)
      (if (a.toNat == 0xF4) = true then 0x8F else 0xBF) b = some x)
    (third : tail? 0x80 0xBF c = some y) (last : tail? 0x80 0xBF d = some z) :
    encodeChar (Char.ofNat ((a.toNat - 0xF0) * 262144 + x * 4096 + y * 64 + z)) = [a, b, c, d] := by
  simp only [tail?_eq_some, beq_iff_eq] at second third last
  obtain ⟨low₂, high₂, rfl⟩ := second
  obtain ⟨low₃, high₃, rfl⟩ := third
  obtain ⟨low, high, rfl⟩ := last
  have long : a.toNat = 0xF0 → 0x90 ≤ b.toNat := fun h => by simpa [h] using low₂
  have inRange : a.toNat = 0xF4 → b.toNat ≤ 0x8F := fun h => by simpa [h] using high₂
  have tail : 0x80 ≤ b.toNat ∧ b.toNat ≤ 0xBF := by
    split_ifs at low₂ high₂ <;> omega
  clear low₂ high₂
  rw [encodeChar, toNat_ofNat (by unfold Nat.isValidChar; omega), if_neg (by omega),
    if_neg (by omega), if_neg (by omega), ← eq_toUInt8 (b := a) (by omega),
    ← eq_toUInt8 (b := b) (by omega), ← eq_toUInt8 (b := c) (by omega),
    ← eq_toUInt8 (b := d) (by omega)]

theorem map_cons_eq_some {α : Type} {a c : α} {o : Option (List α)} {s : List α} :
    o.map (a :: ·) = some (c :: s) ↔ a = c ∧ o = some s := by
  cases o <;> simp

/-- The octets of a decoded text begin with the encoding of its first character. -/
theorem decodeUtf8?_eq_cons {bytes : List UInt8} {c : Char} {s : List Char}
    (decoded : decodeUtf8? bytes = some (c :: s)) :
    ∃ rest, bytes = encodeChar c ++ rest ∧ decodeUtf8? rest = some s := by
  rw [decodeUtf8?.eq_def] at decoded
  split at decoded
  next => cases decoded
  next a rest =>
  simp only [Bool.and_eq_true, decide_eq_true_eq, Option.bind_eq_bind] at decoded
  split at decoded
  next one =>
    obtain ⟨rfl, ok⟩ := map_cons_eq_some.mp decoded
    exact ⟨rest, by rw [encodeChar_one one, List.singleton_append], ok⟩
  split at decoded
  next two =>
    split at decoded
    next b rest =>
      obtain ⟨x, last, decoded⟩ := Option.bind_eq_some_iff.mp decoded
      obtain ⟨rfl, ok⟩ := map_cons_eq_some.mp decoded
      exact ⟨rest, by rw [encodeChar_two two.1 two.2 last]; rfl, ok⟩
    next => cases decoded
  split at decoded
  next three =>
    split at decoded
    next b c rest =>
      obtain ⟨x, second, decoded⟩ := Option.bind_eq_some_iff.mp decoded
      obtain ⟨y, last, decoded⟩ := Option.bind_eq_some_iff.mp decoded
      obtain ⟨rfl, ok⟩ := map_cons_eq_some.mp decoded
      exact ⟨rest, by rw [encodeChar_three three.1 three.2 second last]; rfl, ok⟩
    next => cases decoded
  split at decoded
  next four =>
    split at decoded
    next b c d rest =>
      obtain ⟨x, second, decoded⟩ := Option.bind_eq_some_iff.mp decoded
      obtain ⟨y, third, decoded⟩ := Option.bind_eq_some_iff.mp decoded
      obtain ⟨z, last, decoded⟩ := Option.bind_eq_some_iff.mp decoded
      obtain ⟨rfl, ok⟩ := map_cons_eq_some.mp decoded
      exact ⟨rest, by rw [encodeChar_four four.1 four.2 second third last]; rfl, ok⟩
    next => cases decoded
  next => cases decoded

theorem decodeUtf8?_eq_nil {bytes : List UInt8} (decoded : decodeUtf8? bytes = some []) :
    bytes = [] := by
  cases bytes with
  | nil => rfl
  | cons a rest =>
    rw [decodeUtf8?.eq_def] at decoded
    simp only [Option.bind_eq_bind] at decoded
    grind [Option.map_eq_some_iff, Option.bind_eq_some_iff]

/-! ## Texts -/

/-- Octets are read as a text exactly if they are its encoding. -/
theorem decodeUtf8?_eq_some_iff {bytes : List UInt8} {s : List Char} :
    decodeUtf8? bytes = some s ↔ bytes = encodeUtf8 s := by
  constructor
  · intro decoded
    induction s generalizing bytes with
    | nil => exact decodeUtf8?_eq_nil decoded
    | cons c s ih =>
      obtain ⟨rest, rfl, later⟩ := decodeUtf8?_eq_cons decoded
      rw [ih later]
      rfl
  · rintro rfl
    induction s with
    | nil => rfl
    | cons c s ih =>
      rw [encodeUtf8, List.flatMap_cons, decodeUtf8?_encodeChar_append]
      exact map_cons_eq_some.mpr ⟨rfl, ih⟩

theorem decodeUtf8?_eq_none_iff {bytes : List UInt8} :
    decodeUtf8? bytes = none ↔ ∀ s, bytes ≠ encodeUtf8 s := by
  simp only [Option.eq_none_iff_forall_ne_some, ne_eq, decodeUtf8?_eq_some_iff]

end OptionHost.Text

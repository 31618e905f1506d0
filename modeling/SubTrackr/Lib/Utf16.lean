import Mathlib.Data.List.Basic

namespace Lib.Utf16

def isHigh (u : UInt16) : Bool := 0xD800 ≤ u.toNat && u.toNat < 0xDC00

def isLow (u : UInt16) : Bool := 0xDC00 ≤ u.toNat && u.toNat < 0xE000

def encodeChar (c : Char) : List UInt16 :=
  if c.toNat < 0x10000 then [UInt16.ofNat c.toNat]
  else [UInt16.ofNat (0xD800 + (c.toNat - 0x10000) / 0x400), UInt16.ofNat (0xDC00 + (c.toNat - 0x10000) % 0x400)]

def encode (text : List Char) : List UInt16 := text.flatMap encodeChar

/-- The character of a unit without its partner; U+FFFD stands for a surrogate. -/
def single (u : UInt16) : Char := if isHigh u || isLow u then Char.ofNat 0xFFFD else Char.ofNat u.toNat

def pair (u v : UInt16) : Char := Char.ofNat (0x10000 + (u.toNat - 0xD800) * 0x400 + (v.toNat - 0xDC00))

def decode : List UInt16 → List Char
  | [] => []
  | [u] => [single u]
  | u :: v :: rest => if isHigh u && isLow v then pair u v :: decode rest else single u :: decode (v :: rest)

/-- The units are those of a text: no surrogate stands alone. -/
def WellFormed (units : List UInt16) : Prop := ∃ text, units = encode text

variable {u v : UInt16} {c : Char}

theorem decode_cons (alone : isHigh u = false) (rest : List UInt16) : decode (u :: rest) = single u :: decode rest := by
  cases rest with
  | nil => rfl
  | cons v rest => simp [decode, alone]

theorem decode_pair (high : isHigh u = true) (low : isLow v = true) (rest : List UInt16) :
    decode (u :: v :: rest) = pair u v :: decode rest := by
  simp [decode, high, low]

theorem toNat_ofNat_of_lt {n : ℕ} (small : n < 0x10000) : (UInt16.ofNat n).toNat = n := by
  rw [UInt16.toNat_ofNat']
  exact Nat.mod_eq_of_lt small

theorem decode_encodeChar (c : Char) (rest : List UInt16) : decode (encodeChar c ++ rest) = c :: decode rest := by
  have valid : c.toNat < 0xD800 ∨ 0xDFFF < c.toNat ∧ c.toNat < 0x110000 := c.valid
  unfold encodeChar
  split
  · rename_i small
    have same := toNat_ofNat_of_lt small
    have not_high : isHigh (UInt16.ofNat c.toNat) = false := by
      simp only [isHigh, same, Bool.and_eq_false_iff, decide_eq_false_iff_not]
      omega
    have not_low : isLow (UInt16.ofNat c.toNat) = false := by
      simp only [isLow, same, Bool.and_eq_false_iff, decide_eq_false_iff_not]
      omega
    rw [List.singleton_append, decode_cons not_high, single, not_high, not_low, same, Char.ofNat_toNat]
    rfl
  · have high_same : (UInt16.ofNat (0xD800 + (c.toNat - 0x10000) / 0x400)).toNat = 0xD800 + (c.toNat - 0x10000) / 0x400 :=
      toNat_ofNat_of_lt (by omega)
    have low_same : (UInt16.ofNat (0xDC00 + (c.toNat - 0x10000) % 0x400)).toNat = 0xDC00 + (c.toNat - 0x10000) % 0x400 :=
      toNat_ofNat_of_lt (by omega)
    have high : isHigh (UInt16.ofNat (0xD800 + (c.toNat - 0x10000) / 0x400)) = true := by
      simp only [isHigh, high_same, Bool.and_eq_true, decide_eq_true_iff]
      omega
    have low : isLow (UInt16.ofNat (0xDC00 + (c.toNat - 0x10000) % 0x400)) = true := by
      simp only [isLow, low_same, Bool.and_eq_true, decide_eq_true_iff]
      omega
    have joined : 0x10000 + (0xD800 + (c.toNat - 0x10000) / 0x400 - 0xD800) * 0x400 +
        (0xDC00 + (c.toNat - 0x10000) % 0x400 - 0xDC00) = c.toNat := by omega
    rw [List.cons_append, List.singleton_append, decode_pair high low, pair, high_same, low_same, joined, Char.ofNat_toNat]

theorem decode_encode (text : List Char) : decode (encode text) = text := by
  induction text with
  | nil => rfl
  | cons c rest ih => rw [encode, List.flatMap_cons, decode_encodeChar, ← encode, ih]

theorem encode_decode_iff {units : List UInt16} : encode (decode units) = units ↔ WellFormed units := by
  constructor
  · intro same
    exact ⟨decode units, same.symm⟩
  · rintro ⟨text, rfl⟩
    rw [decode_encode]

theorem encode_eq_nil {text : List Char} : encode text = [] ↔ text = [] := by
  constructor
  · intro none
    rw [← decode_encode text, none]
    rfl
  · rintro rfl
    rfl

theorem decode_eq_nil {units : List UInt16} : decode units = [] ↔ units = [] := by
  constructor
  · intro none
    cases units with
    | nil => rfl
    | cons u rest =>
      cases rest with
      | nil => cases none
      | cons v rest =>
        rw [decode] at none
        split at none
        · cases none
        · cases none
  · rintro rfl
    rfl

end Lib.Utf16

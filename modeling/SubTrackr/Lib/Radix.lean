import Mathlib.Data.List.Basic

namespace Lib.Base36

open List

def digit (n : ℕ) : Char := if n < 10 then Char.ofNat (48 + n) else Char.ofNat (87 + n)

def digits (n : ℕ) : List Char := if n < 36 then [digit n] else digits (n / 36) ++ [digit (n % 36)]

theorem digit_inj : ∀ m < 36, ∀ n < 36, digit m = digit n → m = n := by decide

theorem digit_ne_underscore : ∀ n < 36, digit n ≠ '_' := by decide

theorem digits_ne_nil (n : ℕ) : digits n ≠ [] := by
  unfold digits
  split <;> simp

theorem underscore_notMem (n : ℕ) : '_' ∉ digits n := by
  induction n using digits.induct with
  | case1 n small =>
    rw [digits, if_pos small, mem_singleton]
    exact (digit_ne_underscore n small).symm
  | case2 n large ih =>
    rw [digits, if_neg large, mem_append, mem_singleton, not_or]
    exact ⟨ih, (digit_ne_underscore _ (Nat.mod_lt n (by decide))).symm⟩

theorem digits_of_lt {n : ℕ} (small : n < 36) : digits n = [digit n] := by rw [digits, if_pos small]

theorem digits_of_not_lt {n : ℕ} (large : ¬ n < 36) : digits n = digits (n / 36) ++ [digit (n % 36)] := by
  rw [digits, if_neg large]

theorem digits_inj {m n : ℕ} (same : digits m = digits n) : m = n := by
  induction m using digits.induct generalizing n with
  | case1 m small =>
    rw [digits_of_lt small] at same
    by_cases small' : n < 36
    · rw [digits_of_lt small'] at same
      exact digit_inj m small n small' (singleton_inj.mp same)
    · rw [digits_of_not_lt small', ← nil_append [digit m], append_singleton_inj] at same
      exact absurd same.1.symm (digits_ne_nil _)
  | case2 m large ih =>
    rw [digits_of_not_lt large] at same
    by_cases small : n < 36
    · rw [digits_of_lt small, ← nil_append [digit n], append_singleton_inj] at same
      exact absurd same.1 (digits_ne_nil _)
    · rw [digits_of_not_lt small, append_singleton_inj] at same
      have high := ih same.1
      have low := digit_inj _ (Nat.mod_lt m (by decide)) _ (Nat.mod_lt n (by decide)) same.2
      omega

theorem digits_append_inj {m n : ℕ} {after after' : List Char}
    (same : digits m ++ '_' :: after = digits n ++ '_' :: after') : m = n := by
  have number (k : ℕ) (rest : List Char) : (digits k ++ '_' :: rest).takeWhile (fun c => c ≠ '_') = digits k := by
    have marked : ∀ c ∈ digits k, decide (c ≠ '_') = true := by
      intro c mem
      rw [decide_eq_true_eq]
      rintro rfl
      exact underscore_notMem k mem
    rw [takeWhile_append_of_pos marked, takeWhile_cons_of_neg (by simp), append_nil]
  apply digits_inj
  rw [← number m after, same, number]

end Lib.Base36

namespace Lib.Base64url

def alphabet : List Char := "ABCDEFGHIJKLMNOPQRSTUVWXYZabcdefghijklmnopqrstuvwxyz0123456789-_".toList

def digit (n : ℕ) : Char := alphabet.getD (n % 64) 'A'

/-- The six bits of a character; the two of the other alphabet are read too. -/
def value (c : Char) : Option ℕ :=
  if c.isUpper then some (c.toNat - 65)
  else if c.isLower then some (c.toNat - 71)
  else if c.isDigit then some (c.toNat + 4)
  else if c = '-' ∨ c = '+' then some 62
  else if c = '_' ∨ c = '/' then some 63
  else none

def encodeBytes : List UInt8 → List Char
  | [] => []
  | [a] => [digit (a.toNat / 4), digit (a.toNat % 4 * 16)]
  | [a, b] => [digit (a.toNat / 4), digit (a.toNat % 4 * 16 + b.toNat / 16), digit (b.toNat % 16 * 4)]
  | a :: b :: c :: rest =>
    digit (a.toNat / 4) :: digit (a.toNat % 4 * 16 + b.toNat / 16) :: digit (b.toNat % 16 * 4 + c.toNat / 64) ::
      digit (c.toNat % 64) :: encodeBytes rest

def decodeValues : List ℕ → List UInt8
  | w :: x :: y :: z :: rest =>
    UInt8.ofNat (w * 4 + x / 16) :: UInt8.ofNat (x % 16 * 16 + y / 4) :: UInt8.ofNat (y % 4 * 64 + z) :: decodeValues rest
  | [w, x, y] => [UInt8.ofNat (w * 4 + x / 16), UInt8.ofNat (x % 16 * 16 + y / 4)]
  | [w, x] => [UInt8.ofNat (w * 4 + x / 16)]
  | _ => []

def decodeBytes (text : List Char) : List UInt8 := decodeValues (text.filterMap value)

theorem value_digit (n : ℕ) (small : n < 64) : value (digit n) = some n := by
  revert n
  decide +kernel

theorem ofNat_toNat (a : UInt8) {n : ℕ} (same : n = a.toNat) : UInt8.ofNat n = a := by
  rw [same, UInt8.ofNat_toNat]

theorem decode_encodeBytes (bytes : List UInt8) : decodeBytes (encodeBytes bytes) = bytes := by
  unfold decodeBytes
  induction bytes using encodeBytes.induct with
  | case1 => rfl
  | case2 a =>
    have small := a.toNat_lt
    simp only [encodeBytes, List.filterMap_cons, List.filterMap_nil, value_digit (a.toNat / 4) (by omega),
      value_digit (a.toNat % 4 * 16) (by omega), decodeValues]
    rw [ofNat_toNat a (by omega)]
  | case3 a b =>
    have smallA := a.toNat_lt
    have smallB := b.toNat_lt
    simp only [encodeBytes, List.filterMap_cons, List.filterMap_nil, value_digit (a.toNat / 4) (by omega),
      value_digit (a.toNat % 4 * 16 + b.toNat / 16) (by omega), value_digit (b.toNat % 16 * 4) (by omega), decodeValues]
    rw [ofNat_toNat a (by omega), ofNat_toNat b (by omega)]
  | case4 a b c rest ih =>
    have smallA := a.toNat_lt
    have smallB := b.toNat_lt
    have smallC := c.toNat_lt
    simp only [encodeBytes, List.filterMap_cons, value_digit (a.toNat / 4) (by omega),
      value_digit (a.toNat % 4 * 16 + b.toNat / 16) (by omega),
      value_digit (b.toNat % 16 * 4 + c.toNat / 64) (by omega), value_digit (c.toNat % 64) (by omega), decodeValues]
    rw [ofNat_toNat a (by omega), ofNat_toNat b (by omega), ofNat_toNat c (by omega), ih]

def encode (text : String) : String := String.ofList (encodeBytes text.toUTF8.data.toList)

def decode (text : String) : Option String := String.fromUTF8? ⟨(decodeBytes text.toList).toArray⟩

theorem decode_encode (text : String) : decode (encode text) = some text := by
  have bytes : (⟨text.toUTF8.data.toList.toArray⟩ : ByteArray) = text.toUTF8 := by rw [Array.toArray_toList]
  rw [decode, encode, String.toList_ofList, decode_encodeBytes, bytes]
  exact dif_pos text.isValidUTF8

theorem encode_ne_empty {text : String} (nonempty : text ≠ "") : encode text ≠ "" := by
  intro none
  have empty : decode (encode text) = some "" := by
    rw [none]
    decide +kernel
  rw [decode_encode] at empty
  exact nonempty (Option.some.inj empty)

end Lib.Base64url

namespace Lib.Base64

def alphabet : List Char := "ABCDEFGHIJKLMNOPQRSTUVWXYZabcdefghijklmnopqrstuvwxyz0123456789+/".toList

def digit (n : ℕ) : Char := alphabet.getD (n % 64) 'A'

def encode : List UInt8 → List Char
  | [] => []
  | [a] => [digit (a.toNat / 4), digit (a.toNat % 4 * 16), '=', '=']
  | [a, b] => [digit (a.toNat / 4), digit (a.toNat % 4 * 16 + b.toNat / 16), digit (b.toNat % 16 * 4), '=']
  | a :: b :: c :: rest =>
    digit (a.toNat / 4) :: digit (a.toNat % 4 * 16 + b.toNat / 16) :: digit (b.toNat % 16 * 4 + c.toNat / 64) ::
      digit (c.toNat % 64) :: encode rest

theorem digit_mem (n : ℕ) : digit n ∈ alphabet := by
  have inside : n % 64 < alphabet.length := Nat.mod_lt n (by decide)
  rw [digit, List.getD_eq_getElem?_getD, List.getElem?_eq_getElem inside]
  exact List.getElem_mem inside

theorem encode_eq (bytes : List UInt8) : ∃ text padding, encode bytes = text ++ padding ∧ (∀ c ∈ text, c ∈ alphabet) ∧
    padding = List.replicate ((3 - bytes.length % 3) % 3) '=' := by
  induction bytes using encode.induct with
  | case1 => exact ⟨[], [], rfl, by simp, rfl⟩
  | case2 a => exact ⟨[_, _], ['=', '='], rfl, by simp [digit_mem], rfl⟩
  | case3 a b => exact ⟨[_, _, _], ['='], rfl, by simp [digit_mem], rfl⟩
  | case4 a b c rest ih =>
    obtain ⟨text, padding, same, inside, pads⟩ := ih
    refine ⟨_ :: _ :: _ :: _ :: text, padding, by rw [encode, same]; rfl, ?_, ?_⟩
    · simp only [List.forall_mem_cons]
      exact ⟨digit_mem _, digit_mem _, digit_mem _, digit_mem _, inside⟩
    · rw [pads]
      simp only [List.length_cons]
      congr 2
      omega

theorem value_digit (n : ℕ) : Base64url.value (digit n) = Base64url.value (Base64url.digit n) := by
  have small : ∀ m < 64, Base64url.value (digit m) = Base64url.value (Base64url.digit m) := by decide +kernel
  have reduced := small (n % 64) (Nat.mod_lt n (by decide))
  simpa only [digit, Base64url.digit, Nat.mod_mod] using reduced

theorem value_pad : Base64url.value '=' = none := by decide +kernel

theorem decodeBytes_encode (bytes : List UInt8) : Base64url.decodeBytes (encode bytes) = bytes := by
  have same : (encode bytes).filterMap Base64url.value = (Base64url.encodeBytes bytes).filterMap Base64url.value := by
    induction bytes using encode.induct with
    | case1 => rfl
    | case2 a => simp only [encode, Base64url.encodeBytes, List.filterMap_cons, List.filterMap_nil, value_digit, value_pad]
    | case3 a b => simp only [encode, Base64url.encodeBytes, List.filterMap_cons, List.filterMap_nil, value_digit, value_pad]
    | case4 a b c rest ih => simp only [encode, Base64url.encodeBytes, List.filterMap_cons, value_digit, ih]
  rw [Base64url.decodeBytes, same, ← Base64url.decodeBytes, Base64url.decode_encodeBytes]

end Lib.Base64

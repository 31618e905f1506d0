import Mathlib.Algebra.Order.Ring.Nat
import Mathlib.Data.List.Basic
import Mathlib.Data.Nat.ModEq

namespace Lib

open List

def bigEndian (width n : ℕ) : List UInt8 := (List.range width).reverse.map fun i => UInt8.ofNat (n / 256 ^ i)

theorem length_bigEndian (width n : ℕ) : (bigEndian width n).length = width := by simp [bigEndian]

theorem mod_eq_of_bytes {width n m : ℕ} (same : ∀ i < width, n / 256 ^ i % 256 = m / 256 ^ i % 256) :
    n % 256 ^ width = m % 256 ^ width := by
  induction width with
  | zero => rw [Nat.pow_zero, Nat.mod_one, Nat.mod_one]
  | succ width ih =>
    have lower := ih fun i below => same i (by omega)
    rw [Nat.mod_pow_succ, Nat.mod_pow_succ, lower, same width (by omega)]

theorem bigEndian_inj {width n m : ℕ} (n_lt : n < 256 ^ width) (m_lt : m < 256 ^ width)
    (same : bigEndian width n = bigEndian width m) : n = m := by
  have bytes : ∀ i < width, n / 256 ^ i % 256 = m / 256 ^ i % 256 := by
    intro i below
    unfold bigEndian at same
    have byte := map_inj_left.mp same i (mem_reverse.mpr (mem_range.mpr below))
    have value := congrArg UInt8.toNat byte
    simpa using value
  have equal := mod_eq_of_bytes bytes
  rwa [Nat.mod_eq_of_lt n_lt, Nat.mod_eq_of_lt m_lt] at equal

end Lib

namespace Lib.Sha256

def roundConstants : List UInt32 :=
  [
    0x428a2f98, 0x71374491, 0xb5c0fbcf, 0xe9b5dba5, 0x3956c25b, 0x59f111f1, 0x923f82a4, 0xab1c5ed5,
    0xd807aa98, 0x12835b01, 0x243185be, 0x550c7dc3, 0x72be5d74, 0x80deb1fe, 0x9bdc06a7, 0xc19bf174,
    0xe49b69c1, 0xefbe4786, 0x0fc19dc6, 0x240ca1cc, 0x2de92c6f, 0x4a7484aa, 0x5cb0a9dc, 0x76f988da,
    0x983e5152, 0xa831c66d, 0xb00327c8, 0xbf597fc7, 0xc6e00bf3, 0xd5a79147, 0x06ca6351, 0x14292967,
    0x27b70a85, 0x2e1b2138, 0x4d2c6dfc, 0x53380d13, 0x650a7354, 0x766a0abb, 0x81c2c92e, 0x92722c85,
    0xa2bfe8a1, 0xa81a664b, 0xc24b8b70, 0xc76c51a3, 0xd192e819, 0xd6990624, 0xf40e3585, 0x106aa070,
    0x19a4c116, 0x1e376c08, 0x2748774c, 0x34b0bcb5, 0x391c0cb3, 0x4ed8aa4a, 0x5b9cca4f, 0x682e6ff3,
    0x748f82ee, 0x78a5636f, 0x84c87814, 0x8cc70208, 0x90befffa, 0xa4506ceb, 0xbef9a3f7, 0xc67178f2]

structure Words where
  (a b c d e f g h : UInt32)

def initial : Words :=
  ⟨0x6a09e667, 0xbb67ae85, 0x3c6ef372, 0xa54ff53a, 0x510e527f, 0x9b05688c, 0x1f83d9ab, 0x5be0cd19⟩

def rotr (x : UInt32) (n : UInt32) : UInt32 := (x >>> n) ||| (x <<< (32 - n))

def Words.round (v : Words) (constant word : UInt32) : Words :=
  let sum1 := rotr v.e 6 ^^^ rotr v.e 11 ^^^ rotr v.e 25
  let choice := (v.e &&& v.f) ^^^ (~~~v.e &&& v.g)
  let first := v.h + sum1 + choice + constant + word
  let sum0 := rotr v.a 2 ^^^ rotr v.a 13 ^^^ rotr v.a 22
  let majority := (v.a &&& v.b) ^^^ (v.a &&& v.c) ^^^ (v.b &&& v.c)
  ⟨first + sum0 + majority, v.a, v.b, v.c, v.d + first, v.e, v.f, v.g⟩

def Words.add (v w : Words) : Words :=
  ⟨v.a + w.a, v.b + w.b, v.c + w.c, v.d + w.d, v.e + w.e, v.f + w.f, v.g + w.g, v.h + w.h⟩

def slide (window : List UInt32) : List UInt32 :=
  let word (i : ℕ) := window.getD i 0
  let sigma0 := rotr (word 1) 7 ^^^ rotr (word 1) 18 ^^^ (word 1 >>> 3)
  let sigma1 := rotr (word 14) 17 ^^^ rotr (word 14) 19 ^^^ (word 14 >>> 10)
  window.tail ++ [sigma1 + word 9 + sigma0 + word 0]

def rounds : List UInt32 → List UInt32 → Words → Words
  | [], _, v => v
  | constant :: rest, window, v => rounds rest (slide window) (v.round constant (window.getD 0 0))

def compress (v : Words) (block : List UInt32) : Words := v.add (rounds roundConstants block v)

def pad (message : List UInt8) : List UInt8 :=
  message ++ 0x80 :: List.replicate ((55 + 64 - message.length % 64) % 64) 0 ++ bigEndian 8 (8 * message.length)

def toWords : List UInt8 → List UInt32
  | a :: b :: c :: d :: rest => (a.toUInt32 <<< 24 ||| b.toUInt32 <<< 16 ||| c.toUInt32 <<< 8 ||| d.toUInt32) :: toWords rest
  | _ => []

def absorb : ℕ → List UInt32 → Words → Words
  | 0, _, v => v
  | blocks + 1, words, v => absorb blocks (words.drop 16) (compress v (words.take 16))

def hash (message : List UInt8) : Vector UInt8 32 :=
  let padded := pad message
  let v := absorb (padded.length / 64) (toWords padded) initial
  let words := [v.a, v.b, v.c, v.d, v.e, v.f, v.g, v.h]
  Vector.ofFn fun i => ((words.getD (i / 4) 0) >>> (8 * UInt32.ofNat (3 - i % 4))).toUInt8

example : (hash "abc".toUTF8.toList).toList.take 4 = [0xba, 0x78, 0x16, 0xbf] := by decide +kernel

end Lib.Sha256

namespace Lib

variable {α : Type*} {mask : ℕ → α → α} {xs ys : List α}

theorem mapIdx_undo (undoes : ∀ i x, mask i (mask i x) = x) : (xs.mapIdx mask).mapIdx mask = xs := by
  rw [List.mapIdx_mapIdx]
  apply List.ext_getElem
  · rw [List.length_mapIdx]
  · intro i _ within
    rw [List.getElem_mapIdx, Function.comp_apply, undoes]

theorem mapIdx_masks_inj (undoes : ∀ i x, mask i (mask i x) = x) (same : xs.mapIdx mask = ys.mapIdx mask) : xs = ys := by
  have undone := congrArg (List.mapIdx mask) same
  rwa [mapIdx_undo undoes, mapIdx_undo undoes] at undone

end Lib

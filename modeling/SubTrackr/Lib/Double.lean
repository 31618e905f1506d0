import Mathlib.Data.Int.Log
import Mathlib.Data.Rat.Floor

namespace Lib

def roundEven (q : ℚ) : ℤ :=
  if q - ⌊q⌋ < 1 / 2 then ⌊q⌋ else if 1 / 2 < q - ⌊q⌋ then ⌊q⌋ + 1 else ⌊q⌋ + ⌊q⌋ % 2

section RoundEven

variable {q : ℚ} {n : ℤ}

@[simp]
theorem roundEven_intCast (n : ℤ) : roundEven (n : ℚ) = n := by simp [roundEven]

theorem floor_le_roundEven (q : ℚ) : ⌊q⌋ ≤ roundEven q := by
  unfold roundEven
  split_ifs <;> omega

theorem roundEven_le_floor_add_one (q : ℚ) : roundEven q ≤ ⌊q⌋ + 1 := by
  unfold roundEven
  split_ifs <;> omega

theorem le_roundEven (below : (n : ℚ) ≤ q) : n ≤ roundEven q :=
  (Int.le_floor.mpr below).trans (floor_le_roundEven q)

theorem roundEven_le (above : q ≤ (n : ℚ)) : roundEven q ≤ n := by
  have floors : ⌊q⌋ ≤ n := by exact_mod_cast (Int.floor_le q).trans above
  rcases floors.lt_or_eq with less | same
  · exact (roundEven_le_floor_add_one q).trans less
  · have whole : q = (n : ℚ) := above.antisymm (same ▸ Int.floor_le q)
    rw [whole, roundEven_intCast]

theorem roundEven_error (q : ℚ) : q - roundEven q ≤ 1 / 2 := by
  have below := Int.floor_le q
  have above := Int.lt_floor_add_one q
  have even : (0 : ℚ) ≤ (⌊q⌋ % 2 : ℤ) := by exact_mod_cast Int.emod_nonneg ⌊q⌋ (by decide : (2 : ℤ) ≠ 0)
  unfold roundEven
  split_ifs <;> push_cast <;> linarith

end RoundEven

/-- The exponent of the last bit that a number near `q` keeps, of 53 bits and at least `2 ^ -1074`. -/
def exponent (q : ℚ) : ℤ := max (Int.log 2 |q| - 52) (-1074)

/-- Rounding to the binary64 format, before the check for overflow. -/
def nearest (q : ℚ) : ℚ := roundEven (q / 2 ^ exponent q) * 2 ^ exponent q

def Representable (q : ℚ) : Prop := ∃ m e : ℤ, |m| < 2 ^ 53 ∧ -1074 ≤ e ∧ q = m * 2 ^ e

section Nearest

variable {q y : ℚ} {k n : ℤ}

theorem abs_lt_exponent (q : ℚ) : |q| < 2 ^ (exponent q + 53) := by
  have log := Int.lt_zpow_succ_log_self (by decide : 1 < 2) |q|
  have order : Int.log 2 |q| + 1 ≤ exponent q + 53 := by unfold exponent; omega
  exact log.trans_le (zpow_le_zpow_right₀ (by norm_num) order)

theorem leading_le (nonzero : q ≠ 0) (normal : -1074 < exponent q) : 2 ^ (exponent q + 52) ≤ |q| := by
  have log := Int.zpow_log_le_self (by decide : 1 < 2) (abs_pos.mpr nonzero)
  have order : exponent q + 52 = Int.log 2 |q| := by unfold exponent at normal ⊢; omega
  rw [order]
  exact_mod_cast log

theorem le_nearest_of_grid (grid : y = k * 2 ^ exponent q) (below : y ≤ q) : y ≤ nearest q := by
  have unit : (0 : ℚ) < 2 ^ exponent q := zpow_pos two_pos _
  have scaled : (k : ℚ) ≤ q / 2 ^ exponent q := by rwa [le_div_iff₀ unit, ← grid]
  have rounded : (k : ℚ) ≤ roundEven (q / 2 ^ exponent q) := by exact_mod_cast le_roundEven scaled
  rw [grid]
  exact mul_le_mul_of_nonneg_right rounded unit.le

theorem nearest_le_of_grid (grid : y = k * 2 ^ exponent q) (above : q ≤ y) : nearest q ≤ y := by
  have unit : (0 : ℚ) < 2 ^ exponent q := zpow_pos two_pos _
  have scaled : q / 2 ^ exponent q ≤ (k : ℚ) := by rwa [div_le_iff₀ unit, ← grid]
  have rounded : (roundEven (q / 2 ^ exponent q) : ℚ) ≤ k := by exact_mod_cast roundEven_le scaled
  rw [grid]
  exact mul_le_mul_of_nonneg_right rounded unit.le

theorem Representable.grid_or_lt (mem : Representable y) (nonzero : q ≠ 0) :
    (∃ k : ℤ, y = k * 2 ^ exponent q) ∨ |y| < 2 ^ (exponent q + 52) ∧ (2 : ℚ) ^ (exponent q + 52) ≤ |q| := by
  obtain ⟨m, e, digits, least, rfl⟩ := mem
  by_cases fine : exponent q ≤ e
  · refine .inl ⟨m * 2 ^ (e - exponent q).toNat, ?_⟩
    push_cast
    rw [mul_assoc, ← zpow_natCast, Int.toNat_of_nonneg (by omega), ← zpow_add₀ (by norm_num)]
    congr 2
    omega
  · refine .inr ⟨?_, leading_le nonzero (by omega)⟩
    have unit : (0 : ℚ) < 2 ^ e := zpow_pos two_pos _
    have small : (|m| : ℚ) < 2 ^ (53 : ℤ) := by exact_mod_cast digits
    calc |(m : ℚ) * 2 ^ e| = |(m : ℚ)| * 2 ^ e := by rw [abs_mul, abs_of_pos unit]
      _ < 2 ^ (53 : ℤ) * 2 ^ e := mul_lt_mul_of_pos_right small unit
      _ = 2 ^ (53 + e) := by rw [zpow_add₀ (by norm_num)]
      _ ≤ 2 ^ (exponent q + 52) := zpow_le_zpow_right₀ (by norm_num) (by omega)

theorem leading_grid (q : ℚ) : (2 : ℚ) ^ (exponent q + 52) = ((2 ^ 52 : ℤ) : ℚ) * 2 ^ exponent q := by
  rw [add_comm, zpow_add₀ (by norm_num)]
  norm_num

theorem nearest_zero : nearest 0 = 0 := by simp [nearest, roundEven]

theorem Representable.le_nearest (mem : Representable y) (below : y ≤ q) : y ≤ nearest q := by
  by_cases zero : q = 0
  · rwa [zero, nearest_zero, ← zero]
  · rcases mem.grid_or_lt zero with ⟨k, grid⟩ | ⟨small, leading⟩
    · exact le_nearest_of_grid grid below
    · rcases abs_cases q with ⟨same, _⟩ | ⟨same, negative⟩
      · rw [same] at leading
        have rounded := le_nearest_of_grid (leading_grid q) leading
        exact (le_abs_self y).trans (small.le.trans rounded)
      · have further : |q| ≤ |y| := by
          rw [same, abs_of_neg (below.trans_lt negative)]
          exact neg_le_neg below
        exact absurd further (small.trans_le leading).not_ge

theorem Representable.nearest_le (mem : Representable y) (above : q ≤ y) : nearest q ≤ y := by
  by_cases zero : q = 0
  · rwa [zero, nearest_zero, ← zero]
  · rcases mem.grid_or_lt zero with ⟨k, grid⟩ | ⟨small, leading⟩
    · exact nearest_le_of_grid grid above
    · rcases abs_cases q with ⟨same, pos⟩ | ⟨same, _⟩
      · have further : |q| ≤ |y| := by
          rw [same]
          exact above.trans (le_abs_self y)
        exact absurd further (small.trans_le leading).not_ge
      · rw [same] at leading
        have grid : -(2 : ℚ) ^ (exponent q + 52) = ((-2 ^ 52 : ℤ) : ℚ) * 2 ^ exponent q := by
          rw [leading_grid]
          push_cast
          ring
        have rounded := nearest_le_of_grid grid (by linarith)
        exact rounded.trans ((neg_le_neg small.le).trans (neg_abs_le y))

theorem Representable.nearest_eq (mem : Representable q) : nearest q = q :=
  (mem.nearest_le le_rfl).antisymm (mem.le_nearest le_rfl)

theorem nearest_representable (q : ℚ) : Representable (nearest q) := by
  have unit : (0 : ℚ) < 2 ^ exponent q := zpow_pos two_pos _
  have scaled : |q / 2 ^ exponent q| < 2 ^ (53 : ℤ) := by
    rw [abs_div, abs_of_pos unit, div_lt_iff₀ unit, ← zpow_add₀ (by norm_num), add_comm]
    exact abs_lt_exponent q
  obtain ⟨low, high⟩ := abs_lt.mp scaled
  have below : -2 ^ 53 ≤ roundEven (q / 2 ^ exponent q) := le_roundEven (by push_cast; exact_mod_cast low.le)
  have above : roundEven (q / 2 ^ exponent q) ≤ 2 ^ 53 := roundEven_le (by push_cast; exact_mod_cast high.le)
  have least : -1074 ≤ exponent q := le_max_right _ _
  have doubled : (2 : ℚ) ^ (exponent q + 1) = 2 ^ exponent q * 2 := zpow_add_one₀ (by norm_num) _
  by_cases inside : |roundEven (q / 2 ^ exponent q)| < 2 ^ 53
  · exact ⟨_, _, inside, least, rfl⟩
  · rcases abs_cases (roundEven (q / 2 ^ exponent q)) with ⟨same, _⟩ | ⟨same, _⟩
    · have top : roundEven (q / 2 ^ exponent q) = 2 ^ 53 := by omega
      refine ⟨2 ^ 52, exponent q + 1, by decide, by omega, ?_⟩
      rw [nearest, top, doubled]
      push_cast
      ring
    · have bottom : roundEven (q / 2 ^ exponent q) = -2 ^ 53 := by omega
      refine ⟨-2 ^ 52, exponent q + 1, by decide, by omega, ?_⟩
      rw [nearest, bottom, doubled]
      push_cast
      ring

theorem representable_intCast (bound : |n| ≤ 2 ^ 53) : Representable n := by
  rcases bound.lt_or_eq with inside | edge
  · exact ⟨n, 0, inside, by decide, by simp⟩
  · rcases abs_cases n with ⟨same, _⟩ | ⟨same, _⟩
    · have top : n = 2 ^ 53 := by omega
      exact ⟨2 ^ 52, 1, by decide, by decide, by rw [top]; norm_num⟩
    · have bottom : n = -2 ^ 53 := by omega
      exact ⟨-2 ^ 52, 1, by decide, by decide, by rw [bottom]; norm_num⟩

theorem representable_zpow {e : ℤ} (least : -1074 ≤ e) : Representable (2 ^ e) :=
  ⟨1, e, by decide, least, by simp⟩

theorem sub_nearest_le (nonzero : q ≠ 0) (normal : -1074 < exponent q) : q - nearest q ≤ |q| / 2 ^ 53 := by
  have unit : (0 : ℚ) < 2 ^ exponent q := zpow_pos two_pos _
  have leading := leading_le nonzero normal
  rw [leading_grid] at leading
  have half := mul_le_mul_of_nonneg_right (roundEven_error (q / 2 ^ exponent q)) unit.le
  rw [sub_mul, div_mul_cancel₀ _ unit.ne'] at half
  rw [le_div_iff₀ (by norm_num)]
  unfold nearest
  push_cast at leading
  linarith

end Nearest

/-- A binary64 number. Its zero has one sign, since none of the operations below tells the two apart. -/
inductive Double where
  | nan
  | infinity (negative : Bool)
  | finite (value : ℚ) (representable : Representable value) (bounded : |value| < 2 ^ 1024)
  deriving DecidableEq

namespace Double

def ofRat (q : ℚ) : Double :=
  if bounded : |nearest q| < 2 ^ 1024 then finite (nearest q) (nearest_representable q) bounded
  else infinity (decide (q < 0))

instance (n : Nat) : OfNat Double n := ⟨ofRat n⟩

def value? : Double → Option ℚ
  | finite value _ _ => some value
  | _ => none

def isFinite (x : Double) : Bool := x.value?.isSome

def add : Double → Double → Double
  | finite a _ _, finite b _ _ => ofRat (a + b)
  | infinity s, infinity t => if s = t then infinity s else nan
  | infinity s, finite _ _ _ => infinity s
  | finite .., infinity t => infinity t
  | nan, _ | _, nan => nan

def sub : Double → Double → Double
  | finite a _ _, finite b _ _ => ofRat (a - b)
  | infinity s, infinity t => if s = t then nan else infinity s
  | infinity s, finite _ _ _ => infinity s
  | finite .., infinity t => infinity (!t)
  | nan, _ | _, nan => nan

def mul : Double → Double → Double
  | finite a _ _, finite b _ _ => ofRat (a * b)
  | infinity s, infinity t => infinity (s != t)
  | infinity s, finite b _ _ => if b = 0 then nan else infinity (s != decide (b < 0))
  | finite a _ _, infinity t => if a = 0 then nan else infinity (decide (a < 0) != t)
  | nan, _ | _, nan => nan

def div : Double → Double → Double
  | finite a _ _, finite b _ _ =>
    if b = 0 then if a = 0 then nan else infinity (decide (a < 0)) else ofRat (a / b)
  | infinity _, infinity _ => nan
  | infinity s, finite b _ _ => infinity (s != decide (b < 0))
  | finite .., infinity _ => 0
  | nan, _ | _, nan => nan

def le : Double → Double → Bool
  | nan, _ | _, nan => false
  | finite a _ _, finite b _ _ => decide (a ≤ b)
  | infinity s, infinity t => s || !t
  | infinity s, finite _ _ _ => s
  | finite .., infinity t => !t

instance : Add Double := ⟨add⟩
instance : Sub Double := ⟨sub⟩
instance : Mul Double := ⟨mul⟩
instance : Div Double := ⟨div⟩
instance : LE Double := ⟨fun x y => x.le y = true⟩
instance : LT Double := ⟨fun x y => x.le y = true ∧ y.le x = false⟩
instance : DecidableLE Double := fun x y => inferInstanceAs (Decidable (x.le y = true))
instance : DecidableLT Double := fun x y => inferInstanceAs (Decidable (x.le y = true ∧ y.le x = false))

def same (x y : Double) : Bool := x.le y && y.le x

def min (x y : Double) : Double := if x = nan ∨ y = nan then nan else if x ≤ y then x else y

def max (x y : Double) : Double := if x = nan ∨ y = nan then nan else if x ≤ y then y else x

def floor : Double → Double
  | finite value _ _ => ofRat ⌊value⌋
  | x => x

def ceil : Double → Double
  | finite value _ _ => ofRat ⌈value⌉
  | x => x

def Is (x : Double) (n : ℤ) : Prop := x.value? = some (n : ℚ)

instance (x : Double) (n : ℤ) : Decidable (x.Is n) := inferInstanceAs (Decidable (x.value? = some (n : ℚ)))

def maxSafeInteger : ℤ := 2 ^ 53 - 1

section Is

variable {x y z : Double} {a b n : ℤ}

theorem Is.unique (first : x.Is a) (second : x.Is b) : a = b := by
  have same : ((a : ℤ) : ℚ) = b := Option.some.inj (first.symm.trans second)
  exact_mod_cast same

theorem Is.finite_eq (is : x.Is n) : ∃ representable bounded, x = finite n representable bounded := by
  cases x with
  | nan => cases is
  | infinity _ => cases is
  | finite value representable bounded =>
    cases Option.some.inj is
    exact ⟨representable, bounded, rfl⟩

theorem Is.isFinite (is : x.Is n) : x.isFinite = true := by
  obtain ⟨_, _, rfl⟩ := is.finite_eq
  rfl

theorem Is.ne_nan (is : x.Is n) : x ≠ nan := by
  rintro rfl
  cases is

theorem Is.le_iff (first : x.Is a) (second : y.Is b) : x ≤ y ↔ a ≤ b := by
  obtain ⟨_, _, rfl⟩ := first.finite_eq
  obtain ⟨_, _, rfl⟩ := second.finite_eq
  change decide ((a : ℚ) ≤ b) = true ↔ a ≤ b
  rw [decide_eq_true_eq, Int.cast_le]

theorem Is.lt_iff (first : x.Is a) (second : y.Is b) : x < y ↔ a < b := by
  change x ≤ y ∧ y.le x = false ↔ a < b
  rw [← Bool.not_eq_true]
  change x ≤ y ∧ ¬ y ≤ x ↔ a < b
  rw [first.le_iff second, second.le_iff first]
  omega

theorem Is.same_iff (first : x.Is a) (second : y.Is b) : x.same y = true ↔ a = b := by
  unfold same
  rw [Bool.and_eq_true]
  change x ≤ y ∧ y ≤ x ↔ a = b
  rw [first.le_iff second, second.le_iff first]
  omega

theorem safe_abs (nonneg : 0 ≤ n) (safe : n ≤ maxSafeInteger) : |n| ≤ 2 ^ 53 := by
  unfold maxSafeInteger at safe
  rw [abs_of_nonneg nonneg]
  omega

theorem ofRat_is (bound : |n| ≤ 2 ^ 53) : (ofRat n).Is n := by
  have exact_ := (representable_intCast bound).nearest_eq
  have small : |(n : ℚ)| ≤ 2 ^ 53 := by exact_mod_cast bound
  have bounded : |nearest (n : ℚ)| < 2 ^ 1024 := by
    rw [exact_]
    exact small.trans_lt (pow_lt_pow_right₀ (by norm_num) (by decide))
  unfold ofRat
  rw [dif_pos bounded]
  exact congrArg some exact_

theorem zero_is : (0 : Double).Is 0 := ofRat_is (n := 0) (by decide)

section

variable (first : x.Is a) (second : y.Is b)

include first second

theorem Is.add (bound : |a + b| ≤ 2 ^ 53) : (x + y).Is (a + b) := by
  obtain ⟨_, _, rfl⟩ := first.finite_eq
  obtain ⟨_, _, rfl⟩ := second.finite_eq
  change (ofRat (a + b)).Is (a + b)
  rw [← Int.cast_add]
  exact ofRat_is bound

theorem Is.sub (bound : |a - b| ≤ 2 ^ 53) : (x - y).Is (a - b) := by
  obtain ⟨_, _, rfl⟩ := first.finite_eq
  obtain ⟨_, _, rfl⟩ := second.finite_eq
  change (ofRat (a - b)).Is (a - b)
  rw [← Int.cast_sub]
  exact ofRat_is bound

theorem Is.mul (bound : |a * b| ≤ 2 ^ 53) : (x * y).Is (a * b) := by
  obtain ⟨_, _, rfl⟩ := first.finite_eq
  obtain ⟨_, _, rfl⟩ := second.finite_eq
  change (ofRat (a * b)).Is (a * b)
  rw [← Int.cast_mul]
  exact ofRat_is bound

theorem Is.min : (x.min y).Is (Min.min a b) := by
  unfold Double.min
  rw [if_neg (by simp [first.ne_nan, second.ne_nan])]
  split
  · rename_i le
    rwa [min_eq_left ((first.le_iff second).mp le)]
  · rename_i le
    rwa [min_eq_right (by have := mt (first.le_iff second).mpr le; omega)]

theorem Is.max : (x.max y).Is (Max.max a b) := by
  unfold Double.max
  rw [if_neg (by simp [first.ne_nan, second.ne_nan])]
  split
  · rename_i le
    rwa [max_eq_right ((first.le_iff second).mp le)]
  · rename_i le
    rwa [max_eq_left (by have := mt (first.le_iff second).mpr le; omega)]

end

theorem Is.min_of_le (is : x.Is n) (le : x ≤ y) : (x.min y).Is n := by
  have known : y ≠ nan := by
    rintro rfl
    cases x <;> cases le
  unfold Double.min
  rwa [if_neg (by simp [is.ne_nan, known]), if_pos le]

theorem Is.max_of_le (is : x.Is n) (le : y ≤ x) : (x.max y).Is n := by
  have known : y ≠ nan := by
    rintro rfl
    cases x <;> cases le
  unfold Double.max
  rw [if_neg (by simp [is.ne_nan, known])]
  split
  · rename_i back
    obtain ⟨_, _, rfl⟩ := is.finite_eq
    cases y with
    | nan => cases le
    | infinity negative => cases negative <;> simp [LE.le, Double.le] at le back
    | finite value _ _ =>
      change decide (value ≤ (n : ℚ)) = true at le
      change decide ((n : ℚ) ≤ value) = true at back
      exact congrArg some ((of_decide_eq_true le).antisymm (of_decide_eq_true back))
  · exact is

theorem Is.mul_one_floor (first : x.Is a) (second : y.Is 1) : (x * y).floor.Is a := by
  obtain ⟨representable, bounded, rfl⟩ := first.finite_eq
  obtain ⟨_, _, rfl⟩ := second.finite_eq
  have kept : ofRat a = finite a representable bounded := by
    have inRange : |nearest (a : ℚ)| < 2 ^ 1024 := representable.nearest_eq.symm ▸ bounded
    unfold ofRat
    rw [dif_pos inRange]
    simp only [representable.nearest_eq]
  change (floor (ofRat ((a : ℚ) * (1 : ℤ)))).Is a
  rw [Int.cast_one, mul_one, kept]
  show (ofRat (⌊(a : ℚ)⌋ : ℤ)).value? = some (a : ℚ)
  rw [Int.floor_intCast, kept, value?]

theorem le_ofRat {q : ℚ} (is : x.Is n) (bound : |n| ≤ 2 ^ 53) (below : (n : ℚ) ≤ q) : x ≤ ofRat q := by
  obtain ⟨_, bounded, rfl⟩ := is.finite_eq
  have rounded := (representable_intCast bound).le_nearest below
  unfold ofRat
  split
  · change decide ((n : ℚ) ≤ nearest q) = true
    rwa [decide_eq_true_eq]
  · rename_i overflow
    have pos : ¬ q < 0 := by
      intro negative
      have low : nearest q ≤ 0 := by
        simpa using (representable_intCast (n := 0) (by decide)).nearest_le (q := q) (by simpa using negative.le)
      have small : |nearest q| ≤ |(n : ℚ)| := by
        rw [abs_of_nonpos low, abs_of_neg (below.trans_lt negative)]
        exact neg_le_neg rounded
      exact overflow (small.trans_lt bounded)
    rw [decide_eq_false pos]
    rfl

theorem ofRat_le {q : ℚ} (is : x.Is n) (bound : |n| ≤ 2 ^ 53) (above : q ≤ (n : ℚ)) : ofRat q ≤ x := by
  obtain ⟨_, bounded, rfl⟩ := is.finite_eq
  have rounded := (representable_intCast bound).nearest_le above
  unfold ofRat
  split
  · change decide (nearest q ≤ (n : ℚ)) = true
    rwa [decide_eq_true_eq]
  · rename_i overflow
    have negative : q < 0 := by
      by_contra pos
      have nonneg : 0 ≤ q := not_lt.mp pos
      have high : 0 ≤ nearest q := by
        simpa using (representable_intCast (n := 0) (by decide)).le_nearest (q := q) (by simpa using nonneg)
      have small : |nearest q| ≤ |(n : ℚ)| := by
        rw [abs_of_nonneg high, abs_of_nonneg (nonneg.trans above)]
        exact rounded
      exact overflow (small.trans_lt bounded)
    rw [decide_eq_true negative]
    rfl

theorem Is.lt_of_le (is : y.Is a) (above : z.Is b) (order : a < b) (le : x ≤ y) : x < z := by
  obtain ⟨_, _, rfl⟩ := is.finite_eq
  obtain ⟨_, _, rfl⟩ := above.finite_eq
  cases x with
  | nan => cases le
  | infinity negative =>
    cases negative
    · cases le
    · exact ⟨rfl, rfl⟩
  | finite value _ _ =>
    change decide (value ≤ (a : ℚ)) = true at le
    have less : value < (b : ℚ) := (of_decide_eq_true le).trans_lt (by exact_mod_cast order)
    exact ⟨decide_eq_true less.le, decide_eq_false less.not_ge⟩

theorem Is.le_sub (first : x.Is a) (second : y.Is b) (is : z.Is n) (bound : |n| ≤ 2 ^ 53) (below : n ≤ a - b) :
    z ≤ x - y := by
  obtain ⟨_, _, rfl⟩ := first.finite_eq
  obtain ⟨_, _, rfl⟩ := second.finite_eq
  exact le_ofRat is bound (by exact_mod_cast below)

theorem Is.sub_le (first : x.Is a) (second : y.Is b) (is : z.Is n) (bound : |n| ≤ 2 ^ 53) (above : a - b ≤ n) :
    x - y ≤ z := by
  obtain ⟨_, _, rfl⟩ := first.finite_eq
  obtain ⟨_, _, rfl⟩ := second.finite_eq
  exact ofRat_le is bound (by exact_mod_cast above)

theorem Is.min_sub (first : x.Is a) (second : y.Is b) (is : z.Is n) (nonneg : 0 ≤ n) (bound : n ≤ 2 ^ 53)
    (order : b ≤ a) : (z.min (x - y)).Is (Min.min n (a - b)) := by
  rcases le_or_gt n (a - b) with le | gt
  · rw [min_eq_left le]
    exact is.min_of_le (first.le_sub second is (by rwa [abs_of_nonneg nonneg]) le)
  · exact is.min (first.sub second (by rw [abs_of_nonneg (by omega)]; omega))

theorem Is.max_zero_sub (first : x.Is a) (second : y.Is b) (bound : a - b ≤ 2 ^ 53) :
    (Double.max 0 (x - y)).Is (Max.max 0 (a - b)) := by
  rcases le_total (a - b) 0 with le | ge
  · rw [max_eq_left le]
    exact zero_is.max_of_le (first.sub_le second zero_is (by decide) le)
  · exact zero_is.max (first.sub second (by rwa [abs_of_nonneg ge]))

theorem nearest_div_lt (dividend : 0 < a) (safe : a ≤ maxSafeInteger) (divisor : 0 < b) (small : (b : ℚ) < 2 ^ 1024)
    (below : n * b < a) : (n : ℚ) < nearest (a / b) := by
  have positiveA : (0 : ℚ) < a := by exact_mod_cast dividend
  have positiveB : (0 : ℚ) < b := by exact_mod_cast divisor
  have pos : (0 : ℚ) < a / b := div_pos positiveA positiveB
  have step : (n : ℚ) + 1 / b ≤ a / b := by
    rw [le_div_iff₀ positiveB, add_mul, div_mul_cancel₀ _ positiveB.ne']
    exact_mod_cast below
  by_cases normal : -1074 < exponent ((a : ℚ) / b)
  · have error := sub_nearest_le pos.ne' normal
    rw [abs_of_pos pos, div_div, mul_comm, ← div_div] at error
    have part : (a : ℚ) / 2 ^ 53 / b < 1 / b := by
      apply div_lt_div_of_pos_right _ positiveB
      rw [div_lt_one (by norm_num)]
      have strict : a < 2 ^ 53 := by unfold maxSafeInteger at safe; omega
      exact_mod_cast strict
    linarith
  · have tiny : (n : ℚ) ≤ 0 := by
      have less := abs_lt_exponent ((a : ℚ) / b)
      have bound : (2 : ℚ) ^ (exponent ((a : ℚ) / b) + 53) ≤ 2 ^ (0 : ℤ) :=
        zpow_le_zpow_right₀ (by norm_num) (by omega)
      rw [abs_of_pos pos, zpow_zero] at *
      have under : (n : ℚ) < 1 := by
        have share : (0 : ℚ) < 1 / b := div_pos one_pos positiveB
        linarith
      have whole : n < 1 := by exact_mod_cast under
      exact_mod_cast (show n ≤ 0 by omega)
    have least : (2 : ℚ) ^ (-1024 : ℤ) ≤ a / b := by
      have one : (1 : ℚ) ≤ a := by exact_mod_cast dividend
      have scale : (2 : ℚ) ^ (1024 : ℤ) = 2 ^ 1024 := zpow_natCast 2 1024
      rw [le_div_iff₀ positiveB, zpow_neg, scale, inv_mul_le_iff₀ (pow_pos two_pos _)]
      exact small.le.trans (le_mul_of_one_le_right (pow_pos two_pos _).le one)
    have kept := (representable_zpow (by decide)).le_nearest least
    exact tiny.trans_lt (lt_of_lt_of_le (zpow_pos two_pos _) kept)

theorem Is.ceil_div (first : x.Is a) (second : y.Is b) (dividend : 0 < a) (safe : a ≤ maxSafeInteger)
    (divisor : 0 < b) : (x / y).ceil.Is ((a + b - 1) / b) := by
  obtain ⟨_, _, rfl⟩ := first.finite_eq
  obtain ⟨_, bounded, rfl⟩ := second.finite_eq
  have pos : (0 : ℚ) < b := by exact_mod_cast divisor
  rw [abs_of_pos pos] at bounded
  obtain ⟨blocks, quotient⟩ : ∃ c, c = (a + b - 1) / b := ⟨_, rfl⟩
  have split := Int.emod_add_mul_ediv (a + b - 1) b
  have low := Int.emod_nonneg (a + b - 1) divisor.ne'
  have high := Int.emod_lt_of_pos (a + b - 1) divisor
  rw [← quotient] at split ⊢
  have covers : a ≤ blocks * b := by linarith
  have tight : (blocks - 1) * b < a := by linarith
  have atLeast : 0 < blocks := by
    by_contra none
    nlinarith
  have atMost : blocks ≤ a := by nlinarith
  have safeBlocks : |blocks| ≤ 2 ^ 53 := by
    unfold maxSafeInteger at safe
    rw [abs_of_pos atLeast]
    omega
  have above : nearest (a / b) ≤ blocks := by
    apply (representable_intCast safeBlocks).nearest_le
    rw [div_le_iff₀ pos]
    exact_mod_cast covers
  have below : ((blocks - 1 : ℤ) : ℚ) < nearest (a / b) := nearest_div_lt dividend safe divisor bounded tight
  have nonneg : 0 ≤ nearest ((a : ℚ) / b) := by
    have start : (0 : ℚ) ≤ (blocks - 1 : ℤ) := by exact_mod_cast (show 0 ≤ blocks - 1 by omega)
    exact start.trans below.le
  have inRange : |nearest ((a : ℚ) / b)| < 2 ^ 1024 := by
    have cast : (blocks : ℚ) ≤ 2 ^ 53 := by exact_mod_cast (le_abs_self blocks).trans safeBlocks
    rw [abs_of_nonneg nonneg]
    exact (above.trans cast).trans_lt (pow_lt_pow_right₀ (by norm_num) (by decide))
  have whole : ⌈nearest ((a : ℚ) / b)⌉ = blocks := by
    rw [Int.ceil_eq_iff]
    push_cast at below
    exact ⟨below, above⟩
  change (ceil (if (b : ℚ) = 0 then _ else ofRat (a / b))).Is blocks
  rw [if_neg pos.ne']
  unfold ofRat
  rw [dif_pos inRange]
  change (ofRat ⌈nearest ((a : ℚ) / b)⌉).Is blocks
  rw [whole]
  exact ofRat_is safeBlocks

end Is

end Double

end Lib

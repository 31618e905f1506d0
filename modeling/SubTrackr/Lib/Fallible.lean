import Mathlib.Algebra.Order.Ring.Int

namespace Lib

variable {ε α β : Type}

def require (c : Prop) [Decidable c] (e : ε) : Except ε Unit := if c then .ok () else .error e

def present (o : Option α) (e : ε) : Except ε α :=
  match o with
  | some a => .ok a
  | none => .error e

def below (bound : Nat) (e : ε) (n : Nat) : Except ε Nat := if n < bound then .ok n else .error e

def signed (bits : Nat) (e : ε) (n : Int) : Except ε Int :=
  if -2 ^ (bits - 1) ≤ n ∧ n < 2 ^ (bits - 1) then .ok n else .error e

theorem bind_eq_ok (x : Except ε α) (f : α → Except ε β) (b : β) : (x >>= f) = .ok b ↔ ∃ a, x = .ok a ∧ f a = .ok b := by
  cases x with
  | error e => simp [Bind.bind, Except.bind]
  | ok a => simp [Bind.bind, Except.bind]

theorem map_eq_ok (f : α → β) (x : Except ε α) (b : β) : (f <$> x) = .ok b ↔ ∃ a, x = .ok a ∧ f a = b := by
  cases x with
  | error e => simp [Functor.map, Except.map]
  | ok a => simp [Functor.map, Except.map]

theorem ok_bind (a : α) (f : α → Except ε β) : (Except.ok a >>= f) = f a := rfl

theorem bind_ne_error {x : Except ε α} {f : α → Except ε β} {e : ε} (first : x ≠ .error e)
    (rest : ∀ a, x = .ok a → f a ≠ .error e) : (x >>= f) ≠ .error e := by
  cases run : x with
  | error other =>
    intro same
    cases same
    exact first run
  | ok a => exact rest a run

theorem require_ne_error (c : Prop) [Decidable c] {e other : ε} (nodup : other ≠ e) : require c other ≠ .error e := by
  unfold require
  split
  · exact fun same => by cases same
  · exact fun same => nodup (Except.error.inj same)

theorem present_ne_error (o : Option α) {e other : ε} (nodup : other ≠ e) : present o other ≠ .error e := by
  cases o with
  | none => exact fun same => nodup (Except.error.inj same)
  | some => exact fun same => by cases same

theorem below_ne_error (bound n : Nat) {e other : ε} (nodup : other ≠ e) : below bound other n ≠ .error e := by
  unfold below
  split
  · exact fun same => by cases same
  · exact fun same => nodup (Except.error.inj same)

theorem pure_eq_ok (a b : α) : (pure a : Except ε α) = .ok b ↔ a = b := by
  simp [Pure.pure, Except.pure]

theorem ok_eq_ok (a b : α) : (.ok a : Except ε α) = .ok b ↔ a = b := Except.ok.injEq a b ▸ Iff.rfl

theorem error_eq_ok (e : ε) (b : α) : (.error e : Except ε α) = .ok b ↔ False := by simp

theorem toBool_eq_true {x : Except ε α} (succeeds : x.toBool = true) : ∃ a, x = .ok a := by
  cases x with
  | error e => cases succeeds
  | ok a => exact ⟨a, rfl⟩

def errorOf (x : Except ε α) : Option ε :=
  match x with
  | .ok _ => none
  | .error e => some e

theorem errorOf_eq_some (x : Except ε α) (e : ε) : errorOf x = some e ↔ x = .error e := by
  cases x <;> simp [errorOf]

theorem toOption_eq_some (x : Except ε α) (a : α) : x.toOption = some a ↔ x = .ok a := by
  cases x <;> simp [Except.toOption]

theorem require_eq_ok (c : Prop) [Decidable c] (e : ε) (u : Unit) : require c e = .ok u ↔ c := by
  unfold require
  split <;> simp_all

theorem present_eq_ok (o : Option α) (e : ε) (a : α) : present o e = .ok a ↔ o = some a := by
  cases o <;> simp [present]

theorem below_eq_ok (bound : Nat) (e : ε) (n m : Nat) : below bound e n = .ok m ↔ n < bound ∧ n = m := by
  unfold below
  by_cases fits : n < bound <;> simp [fits]

theorem signed_eq_ok (bits : Nat) (e : ε) (n m : Int) :
    signed bits e n = .ok m ↔ (-2 ^ (bits - 1) ≤ n ∧ n < 2 ^ (bits - 1)) ∧ n = m := by
  unfold signed
  by_cases fits : -2 ^ (bits - 1) ≤ n ∧ n < 2 ^ (bits - 1)
  · simp [fits]
  · simp only [fits, if_false, false_and, reduceCtorEq]

theorem mapM_ok {xs : List α} {f : α → Except ε β} {g : α → β} (each : ∀ x ∈ xs, f x = .ok (g x)) :
    xs.mapM f = .ok (xs.map g) := by
  induction xs with
  | nil => rfl
  | cons x xs ih =>
    rw [List.mapM_cons, each x (by simp), ih fun y mem => each y (List.mem_cons_of_mem _ mem)]
    rfl

theorem ok_of_mapM {xs : List α} {f : α → Except ε β} {ys : List β} (done : xs.mapM f = .ok ys) {x : α} (mem : x ∈ xs) :
    ∃ y, f x = .ok y := by
  induction xs generalizing ys with
  | nil => cases mem
  | cons first xs ih =>
    rw [List.mapM_cons, bind_eq_ok] at done
    obtain ⟨y, found, rest⟩ := done
    obtain ⟨ys', done', -⟩ := (bind_eq_ok ..).mp rest
    rcases List.mem_cons.mp mem with rfl | mem
    · exact ⟨y, found⟩
    · exact ih done' mem

theorem ite_eq_ok (c : Prop) [Decidable c] (x y : Except ε α) (a : α) :
    (if c then x else y) = .ok a ↔ (c ∧ x = .ok a) ∨ (¬ c ∧ y = .ok a) := by
  split <;> simp_all

end Lib

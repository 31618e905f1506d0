import Mathlib.Logic.Relation
import Mathlib.Tactic.Common

namespace Lib

variable {σ α : Type*} {step : σ → α → Option σ} {allowed weaker : σ → α → Prop} {s s' s'' : σ}

def Runs (step : σ → α → Option σ) (allowed : σ → α → Prop) : σ → σ → Prop :=
  Relation.ReflTransGen fun s s' => ∃ action, allowed s action ∧ step s action = some s'

def anyAction : σ → α → Prop := fun _ _ => True

instance (s : σ) (action : α) : Decidable (anyAction s action) := isTrue trivial

namespace Runs

theorem refl (s : σ) : Runs step allowed s s := Relation.ReflTransGen.refl

theorem trans (first : Runs step allowed s s') (second : Runs step allowed s' s'') : Runs step allowed s s'' :=
  Relation.ReflTransGen.trans first second

theorem next (run : Runs step allowed s s') (action : α) (fine : allowed s' action) (stepped : step s' action = some s'') :
    Runs step allowed s s'' := run.tail ⟨action, fine, stepped⟩

theorem mono (run : Runs step allowed s s') (weaken : ∀ s action, allowed s action → weaker s action) :
    Runs step weaker s s' :=
  Relation.ReflTransGen.mono (fun s _ ⟨action, fine, stepped⟩ => ⟨action, weaken s action fine, stepped⟩) _ _ run

theorem keeps (Inv : σ → Prop) (run : Runs step allowed s s') (initially : Inv s)
    (kept : ∀ s s' action, Inv s → allowed s action → step s action = some s' → Inv s') : Inv s' := by
  induction run with
  | refl => exact initially
  | tail _ last ih =>
    obtain ⟨action, fine, stepped⟩ := last
    exact kept _ _ action ih fine stepped

def guarded (step : σ → α → Option σ) (allowed : σ → α → Prop) [∀ s action, Decidable (allowed s action)] (s : σ)
    (action : α) : Option σ := if allowed s action then step s action else none

variable [∀ s action, Decidable (allowed s action)]

theorem of_foldlM {actions : List α} (performed : actions.foldlM (guarded step allowed) s = some s') :
    Runs step allowed s s' := by
  induction actions generalizing s with
  | nil =>
    cases performed
    exact refl _
  | cons action rest ih =>
    rw [List.foldlM_cons] at performed
    obtain ⟨middle, stepped, rest⟩ := Option.bind_eq_some_iff.mp performed
    unfold guarded at stepped
    split at stepped
    · rename_i fine
      exact ((refl s).next action fine stepped).trans (ih rest)
    · cases stepped

theorem exists_of_foldlM (actions : List α) {P : σ → Prop} [DecidablePred P]
    (performed : (actions.foldlM (guarded step allowed) s).any (fun s => decide (P s)) = true) :
    ∃ s', Runs step allowed s s' ∧ P s' := by
  obtain ⟨s', performed, holds⟩ := (Option.any_eq_true _ _).mp performed
  exact ⟨s', of_foldlM performed, of_decide_eq_true holds⟩

end Runs

end Lib

namespace Lib.Guarded

variable {σ α : Type*} {step : σ → α → σ} {allowed : σ → α → Prop} {P Inv : σ → Prop} {s : σ} {actions : List α}

def Always (step : σ → α → σ) (P : σ → Prop) : σ → List α → Prop
  | s, [] => P s
  | s, action :: rest => P s ∧ Always step P (step s action) rest

def Permitted (step : σ → α → σ) (allowed : σ → α → Prop) : σ → List α → Prop
  | _, [] => True
  | s, action :: rest => allowed s action ∧ Permitted step allowed (step s action) rest

theorem Always.head (always : Always step P s actions) : P s := by
  cases actions with
  | nil => exact always
  | cons action rest => exact always.1

/-- Where one step keeps the property exactly if it is allowed, a sequence of steps does. -/
theorem always_iff (initially : P s) (inv : Inv s) (kept : ∀ s action, Inv s → Inv (step s action))
    (exact_step : ∀ s action, Inv s → P s → (P (step s action) ↔ allowed s action)) :
    Always step P s actions ↔ Permitted step allowed s actions := by
  induction actions generalizing s with
  | nil =>
    constructor
    · intro _
      trivial
    · intro _
      exact initially
  | cons action rest ih =>
    constructor
    · intro always
      have after := always.2.head
      exact ⟨(exact_step s action inv initially).mp after, (ih after (kept s action inv)).mp always.2⟩
    · intro permitted
      have after := (exact_step s action inv initially).mpr permitted.1
      exact ⟨initially, (ih after (kept s action inv)).mpr permitted.2⟩

end Lib.Guarded

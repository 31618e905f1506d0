import SubTrackr.Lib.Fallible
import SubTrackr.Lib.Ledger

namespace Lib

variable {ε α β α' β' : Type} {R : α → β → Prop} {S : α' → β' → Prop} {x : Except ε α} {y : Except ε β}

/-- Two computations agree: both stop with the same error, or both go through with related results. -/
inductive Agree (R : α → β → Prop) : Except ε α → Except ε β → Prop where
  | ok {a b} (related : R a b) : Agree R (.ok a) (.ok b)
  | error (e) : Agree R (.error e) (.error e)

theorem Agree.bind {f : α → Except ε α'} {g : β → Except ε β'} (first : Agree R x y)
    (rest : ∀ a b, R a b → Agree S (f a) (g b)) : Agree S (x >>= f) (y >>= g) := by
  cases first with
  | ok related => exact rest _ _ related
  | error e => exact .error e

theorem Agree.bind_same {f : α → Except ε α'} {g : α → Except ε β'} (rest : ∀ a, x = .ok a → Agree S (f a) (g a)) :
    Agree S (x >>= f) (x >>= g) := by
  cases run : x with
  | ok a => exact rest a run
  | error e => exact .error e

theorem Agree.map_eq {γ : Type} {f : α → γ} {g : β → γ} (agree : Agree R x y) (same : ∀ a b, R a b → f a = g b) :
    x.map f = y.map g := by
  cases agree with
  | ok related => exact congrArg Except.ok (same _ _ related)
  | error e => rfl

namespace Ledger

variable {τ σ : Type} {c : Contract τ σ ε} {init : σ → Prop} {guard extra : Ledger τ σ → τ → Prop}

def settle (c : Contract τ σ ε) (t : τ) (s : σ) : σ :=
  match c.exec t s with
  | .ok s' => s'
  | .error _ => s

theorem settle_ok {t : τ} {s s' : σ} (run : c.exec t s = .ok s') : settle c t s = s' := by
  simp only [settle, run]

theorem settle_error {t : τ} {s : σ} {e : ε} (run : c.exec t s = .error e) : settle c t s = s := by
  simp only [settle, run]

theorem submit_state (c : Contract τ σ ε) (w : Ledger τ σ) (t : τ) : (submit c w t).state = settle c t w.state := by
  unfold submit settle
  generalize c.exec t w.state = x
  cases x <;> rfl

theorem settle_cases (c : Contract τ σ ε) (t : τ) (s : σ) : c.exec t s = .ok (settle c t s) ∨ settle c t s = s := by
  unfold settle
  split
  · rename_i run
    exact .inl run
  · exact .inr rfl

theorem settle_agree {R : σ → σ → Prop} {t : τ} {s s' : σ} (agree : Agree R (c.exec t s) (c.exec t s')) :
    R (settle c t s) (settle c t s') ∨ settle c t s = s ∧ settle c t s' = s' := by
  unfold settle
  generalize c.exec t s = x at agree
  generalize c.exec t s' = y at agree
  cases agree with
  | ok related => exact .inl related
  | error e => exact .inr ⟨rfl, rfl⟩

/-- Two runs from the same state, of which the second makes extra calls between those of the first. -/
inductive Padded (c : Contract τ σ ε) (init : σ → Prop) (guard extra : Ledger τ σ → τ → Prop) :
    Ledger τ σ → Ledger τ σ → Prop where
  | genesis {s} (initial : init s) : Padded c init guard extra (genesis s) (genesis s)
  | both {w v} (t) (before : Padded c init guard extra w v) (left : guard w t) (right : guard v t) :
      Padded c init guard extra (submit c w t) (submit c v t)
  | inserted {w v} (t) (before : Padded c init guard extra w v) (allowed : extra v t) (right : guard v t) :
      Padded c init guard extra w (submit c v t)

variable {w v : Ledger τ σ}

theorem Padded.left (padded : Padded c init guard extra w v) : Reachable c init guard w := by
  induction padded with
  | genesis initial => exact ⟨_, initial, .refl⟩
  | both t _ left _ ih => exact ih.submit left
  | inserted _ _ _ _ ih => exact ih

theorem Padded.right (padded : Padded c init guard extra w v) : Reachable c init guard v := by
  induction padded with
  | genesis initial => exact ⟨_, initial, .refl⟩
  | both t _ _ right ih => exact ih.submit right
  | inserted t _ _ right ih => exact ih.submit right

theorem Padded.of_reachable (reached : Reachable c init guard w) : Padded c init guard extra w w := by
  rcases reached with ⟨s, initial, steps⟩
  induction steps with
  | refl => exact .genesis initial
  | tail _ step ih =>
    rcases step with ⟨t, met, rfl⟩
    exact .both t ih met met

theorem Padded.run_inOrder {ts : List τ} (padded : Padded c init (inOrder c) extra w v)
    (allowed : ∀ t ∈ ts, ∀ v, extra v t) (sorted : (v.clock :: ts.map c.time).IsChain (· ≤ ·)) :
    Padded c init (inOrder c) extra w (run c v ts) := by
  induction ts generalizing v with
  | nil => exact padded
  | cons t ts ih =>
    rcases List.isChain_cons_cons.mp sorted with ⟨first, rest⟩
    refine ih (.inserted t padded (allowed t (.head _) v) first) (fun u later => allowed u (.tail _ later)) ?_
    rwa [submit_clock]

theorem Padded.related {R : Nat → σ → σ → Prop} (padded : Padded c init guard extra w v)
    (ordered : ∀ w t, guard w t → inOrder c w t) (start : ∀ s now, init s → R now s s)
    (both : ∀ w v t, Padded c init guard extra w v → guard w t → guard v t →
      (∀ now, c.time t ≤ now → R now w.state v.state) →
        ∀ now, c.time t ≤ now → R now (settle c t w.state) (settle c t v.state))
    (inserted : ∀ w v t, Padded c init guard extra w v → extra v t → guard v t →
      (∀ now, w.clock ≤ now → c.time t ≤ now → R now w.state v.state) →
        ∀ now, w.clock ≤ now → c.time t ≤ now → R now w.state (settle c t v.state)) :
    ∀ now, w.clock ≤ now → v.clock ≤ now → R now w.state v.state := by
  induction padded with
  | genesis initial => exact fun now _ _ => start _ now initial
  | both t before left right ih =>
    intro now later _
    rw [submit_clock] at later
    rw [submit_state, submit_state]
    apply both _ _ t before left right _ now later
    intro now later
    exact ih now ((ordered _ t left).trans later) ((ordered _ t right).trans later)
  | inserted t before allowed right ih =>
    intro now earlier later
    rw [submit_clock] at later
    rw [submit_state]
    apply inserted _ _ t before allowed right _ now earlier later
    intro now earlier later
    exact ih now earlier ((ordered _ t right).trans later)

end Ledger

end Lib

import Mathlib.Data.List.Chain

namespace Lib

open List

variable {τ σ ε : Type}

/-- A transactional component: `exec` either yields the next state or stops with an error, and a
    transaction carries the ledger time it runs at. -/
structure Contract (τ σ ε : Type) where
  time : τ → Nat
  exec : τ → σ → Except ε σ

structure Receipt (τ σ : Type) where
  tx : τ
  (before after : σ)

/-- A component's state together with the time of the last transaction and the successful
    transactions so far, oldest first. -/
structure Ledger (τ σ : Type) where
  clock : Nat
  state : σ
  history : List (Receipt τ σ)

namespace Ledger

def genesis (s : σ) : Ledger τ σ := ⟨0, s, []⟩

/-- A failing transaction reverts every write; only the ledger time moves. -/
def submit (c : Contract τ σ ε) (w : Ledger τ σ) (t : τ) : Ledger τ σ :=
  match c.exec t w.state with
  | .ok s => ⟨c.time t, s, w.history ++ [⟨t, w.state, s⟩]⟩
  | .error _ => { w with clock := c.time t }

variable {w : Ledger τ σ}

theorem submit_ok (c : Contract τ σ ε) {t : τ} {s : σ} (run : c.exec t w.state = .ok s) :
    submit c w t = ⟨c.time t, s, w.history ++ [⟨t, w.state, s⟩]⟩ := by
  simp only [submit, run]

theorem submit_error (c : Contract τ σ ε) {t : τ} {e : ε}
    (run : c.exec t w.state = .error e) : submit c w t = { w with clock := c.time t } := by
  simp only [submit, run]

def Step (c : Contract τ σ ε) (guard : Ledger τ σ → τ → Prop) (w w' : Ledger τ σ) : Prop :=
  ∃ t, guard w t ∧ w' = submit c w t

def Steps (c : Contract τ σ ε) (guard : Ledger τ σ → τ → Prop) : Ledger τ σ → Ledger τ σ → Prop :=
  Relation.ReflTransGen (Step c guard)

def Reachable (c : Contract τ σ ε) (init : σ → Prop) (guard : Ledger τ σ → τ → Prop)
    (w : Ledger τ σ) : Prop :=
  ∃ s, init s ∧ Steps c guard (genesis s) w

def anyTx : Ledger τ σ → τ → Prop := fun _ _ => True

def inOrder (c : Contract τ σ ε) : Ledger τ σ → τ → Prop := fun w t => w.clock ≤ c.time t

instance (c : Contract τ σ ε) (w : Ledger τ σ) (t : τ) : Decidable (inOrder c w t) :=
  inferInstanceAs (Decidable (_ ≤ _))

def run (c : Contract τ σ ε) (w : Ledger τ σ) (ts : List τ) : Ledger τ σ := ts.foldl (submit c) w

variable {c : Contract τ σ ε} {init : σ → Prop} {guard : Ledger τ σ → τ → Prop}

variable {w' : Ledger τ σ}

theorem Reachable.steps (reached : Reachable c init guard w)
    (steps : Steps c guard w w') : Reachable c init guard w' := by
  rcases reached with ⟨s, initial, before⟩
  exact ⟨s, initial, before.trans steps⟩

theorem Reachable.mono {weaker : Ledger τ σ → τ → Prop} (reached : Reachable c init guard w)
    (implied : ∀ w t, guard w t → weaker w t) : Reachable c init weaker w := by
  rcases reached with ⟨s, initial, steps⟩
  have weaken : Step c guard ≤ Step c weaker := by
    intro u v step
    rcases step with ⟨t, met, same⟩
    exact ⟨t, implied u t met, same⟩
  exact ⟨s, initial, Relation.ReflTransGen.mono weaken _ _ steps⟩

theorem Reachable.submit (reached : Reachable c init guard w) {t : τ}
    (met : guard w t) : Reachable c init guard (submit c w t) :=
  reached.steps (.single ⟨t, met, rfl⟩)

theorem Steps.run {ts : List τ} (met : ∀ t ∈ ts, ∀ w, guard w t) (w : Ledger τ σ) : Steps c guard w (run c w ts) := by
  induction ts generalizing w with
  | nil => exact .refl
  | cons t ts ih =>
    have first : Step c guard w (Ledger.submit c w t) := ⟨t, met t (.head _) w, rfl⟩
    exact .head first (ih (fun u later => met u (.tail _ later)) _)

theorem submit_clock (c : Contract τ σ ε) (w : Ledger τ σ) (t : τ) : (submit c w t).clock = c.time t := by
  unfold submit
  split <;> rfl

theorem Steps.run_inOrder {ts : List τ}
    (sorted : (w.clock :: ts.map c.time).IsChain (· ≤ ·)) : Steps c (inOrder c) w (Ledger.run c w ts) := by
  induction ts generalizing w with
  | nil => exact .refl
  | cons t ts ih =>
    rcases isChain_cons_cons.mp sorted with ⟨first, rest⟩
    have step : Step c (inOrder c) w (Ledger.submit c w t) := ⟨t, first, rfl⟩
    refine .head step (ih ?_)
    rwa [submit_clock]

/-- The invariant rule. The two premises are the two outcomes of a transaction, and earlier invariants may be used
    in each. -/
theorem Steps.invariant {I : Ledger τ σ → Prop} (steps : Steps c guard w w')
    (reached : Reachable c init guard w) (holds : I w)
    (reverted : ∀ w t, Reachable c init guard w → guard w t → I w → I { w with clock := c.time t })
    (committed : ∀ w t s, Reachable c init guard w → guard w t → c.exec t w.state = .ok s → I w →
      I ⟨c.time t, s, w.history ++ [⟨t, w.state, s⟩]⟩) : I w' := by
  induction steps with
  | refl => exact holds
  | tail before step ih =>
    rcases step with ⟨t, met, rfl⟩
    have here := reached.steps before
    cases run : c.exec t _ with
    | ok s => rw [submit_ok c run]; exact committed _ _ _ here met run ih
    | error e => rw [submit_error c run]; exact reverted _ _ here met ih

theorem Reachable.invariant {I : Ledger τ σ → Prop}
    (reached : Reachable c init guard w)
    (start : ∀ s, init s → I (genesis s))
    (reverted : ∀ w t, Reachable c init guard w → guard w t → I w → I { w with clock := c.time t })
    (committed : ∀ w t s, Reachable c init guard w → guard w t → c.exec t w.state = .ok s → I w →
      I ⟨c.time t, s, w.history ++ [⟨t, w.state, s⟩]⟩) : I w := by
  rcases reached with ⟨s, initial, steps⟩
  exact steps.invariant ⟨s, initial, .refl⟩ (start s initial) reverted committed

theorem Reachable.state_invariant {I : σ → Prop}
    (reached : Reachable c init guard w) (start : ∀ s, init s → I s)
    (committed : ∀ w t s, Reachable c init guard w → guard w t → c.exec t w.state = .ok s →
      I w.state → I s) : I w.state :=
  reached.invariant (I := fun w => I w.state) start (fun _ _ _ _ holds => holds) committed

section

variable {R : σ → σ → Prop} (refl : ∀ s, R s s) (trans : ∀ s t u, R s t → R t u → R s u) (steps : Steps c guard w w')

include refl trans steps

theorem Steps.kept
    (committed : ∀ w t s, guard w t → c.exec t w.state = .ok s → R w.state s) : R w.state w'.state := by
  induction steps with
  | refl => exact refl _
  | tail _ step ih =>
    rcases step with ⟨t, met, rfl⟩
    cases run : c.exec t _ with
    | ok s => rw [submit_ok c run]; exact trans _ _ _ ih (committed _ _ _ met run)
    | error e => rw [submit_error c run]; exact ih

theorem Steps.relates (reached : Reachable c init guard w)
    (committed : ∀ w t s, Reachable c init guard w → guard w t → c.exec t w.state = .ok s →
      R w.state s) : R w.state w'.state :=
  steps.invariant (I := fun v => R w.state v.state) reached (refl _) (fun _ _ _ _ holds => holds)
    fun v t s here met run related => trans _ _ _ related (committed v t s here met run)

end

theorem getElem?_concat_eq_some {α : Type} {xs : List α} {x y : α} {i : Nat}
    (found : (xs ++ [x])[i]? = some y) : (i < xs.length ∧ xs[i]? = some y) ∨ (i = xs.length ∧ x = y) := by
  rcases Nat.lt_trichotomy i xs.length with before | last | beyond
  · rw [List.getElem?_append_left before] at found
    exact .inl ⟨before, found⟩
  · rw [getElem?_append_right last.ge, last, Nat.sub_self] at found
    exact .inr ⟨last, Option.some.inj found⟩
  · rw [getElem?_eq_none (by simp; omega)] at found
    cases found

/-- The receipt at `i` is of a transaction that met the guard, and went through, on the ledger of the receipts
    before it. -/
theorem Reachable.receiptAt (reached : Reachable c init guard w) :
    ∀ i r, w.history[i]? = some r → ∃ v, Reachable c init guard v ∧ guard v r.tx ∧ v.state = r.before ∧
      v.history = w.history.take i ∧ c.exec r.tx r.before = .ok r.after := by
  refine reached.invariant
    (I := fun w => ∀ i r, w.history[i]? = some r → ∃ v, Reachable c init guard v ∧ guard v r.tx ∧
      v.state = r.before ∧ v.history = w.history.take i ∧ c.exec r.tx r.before = .ok r.after)
    (fun _ _ i r found => nomatch found) (fun _ _ _ _ holds => holds) ?_
  intro w t s here met run holds i r found
  rcases getElem?_concat_eq_some found with ⟨earlier, found⟩ | ⟨last, same⟩
  · rcases holds i r found with ⟨v, reached, met, state, history, ran⟩
    refine ⟨v, reached, met, state, ?_, ran⟩
    rw [history, take_append_of_le_length earlier.le]
  · cases same
    exact ⟨w, here, met, rfl, by rw [last, take_left], run⟩

theorem take_concat {α : Type} {xs : List α} {x : α} {i : Nat} (found : xs[i]? = some x) :
    xs.take (i + 1) = xs.take i ++ [x] := by
  rw [take_add_one, found]
  rfl

variable {r : Receipt τ σ}

theorem Reachable.afterAt (reached : Reachable c init guard w) {i : Nat}
    (found : w.history[i]? = some r) : ∃ v, Reachable c init guard v ∧ v.clock = c.time r.tx ∧ v.state = r.after ∧
      v.history = w.history.take (i + 1) := by
  rcases reached.receiptAt i r found with ⟨v, here, met, state, history, run⟩
  rw [← state] at run
  refine ⟨Ledger.submit c v r.tx, here.submit met, submit_clock c v r.tx, ?_, ?_⟩
  · rw [submit_ok c run]
  · rw [submit_ok c run, take_concat found, state, history]

theorem Reachable.receipt (reached : Reachable c init guard w) :
    ∀ r ∈ w.history, ∃ v, Reachable c init guard v ∧ guard v r.tx ∧ v.state = r.before ∧
      c.exec r.tx r.before = .ok r.after := by
  intro r mem
  rcases mem_iff_getElem?.mp mem with ⟨i, found⟩
  rcases reached.receiptAt i r found with ⟨v, here, met, state, _, run⟩
  exact ⟨v, here, met, state, run⟩

/-- `r`, at `j`, is the last receipt of `history` whose transaction has `P`. -/
structure LastAt (P : τ → Prop) (history : List (Receipt τ σ)) (j : Nat) (r : Receipt τ σ) : Prop where
  found : history[j]? = some r
  holds : P r.tx
  since : ∀ k later, j < k → history[k]? = some later → ¬ P later.tx

theorem LastAt.concat {P : τ → Prop} {history : List (Receipt τ σ)} {j : Nat} {next : Receipt τ σ}
    (last : LastAt P history j r) (other : ¬ P next.tx) : LastAt P (history ++ [next]) j r where
  found := by
    have bound := (List.getElem?_eq_some_iff.mp last.found).1
    rw [List.getElem?_append_left bound]
    exact last.found
  holds := last.holds
  since k later after found := by
    rcases getElem?_concat_eq_some found with ⟨_, earlier⟩ | ⟨_, same⟩
    · exact last.since k later after earlier
    · rw [← same]
      exact other

theorem LastAt.concat_self {P : τ → Prop} (history : List (Receipt τ σ)) (holds : P r.tx) :
    LastAt P (history ++ [r]) history.length r where
  found := List.getElem?_concat_length
  holds := holds
  since k later after found := by
    have bound := (List.getElem?_eq_some_iff.mp found).1
    rw [List.length_append, List.length_singleton] at bound
    omega

theorem LastAt.of_take {P : τ → Prop} {history : List (Receipt τ σ)} {i j : Nat}
    (last : LastAt P (history.take i) j r) : j < i ∧ history[j]? = some r ∧
      ∀ k later, j < k → k < i → history[k]? = some later → ¬ P later.tx := by
  have order : j < i := by
    have bound := (List.getElem?_eq_some_iff.mp last.found).1
    rw [List.length_take] at bound
    omega
  have found := last.found
  rw [List.getElem?_take_of_lt order] at found
  refine ⟨order, found, fun k later after before read => last.since k later after ?_⟩
  rw [List.getElem?_take_of_lt before]
  exact read

section

variable {α : Type} (P : τ → Prop) (view : σ → α) (reached : Reachable c init guard w) (kept : ∀ w t s, Reachable c init guard w → c.exec t w.state = .ok s → ¬ P t → view s = view w.state)

include P view reached kept

theorem Reachable.lastAt :
    (∃ s, init s ∧ view w.state = view s ∧ ∀ r ∈ w.history, ¬ P r.tx) ∨
      ∃ j r, LastAt P w.history j r ∧ view w.state = view r.after := by
  refine reached.invariant
    (I := fun w => (∃ s, init s ∧ view w.state = view s ∧ ∀ r ∈ w.history, ¬ P r.tx) ∨
      ∃ j r, LastAt P w.history j r ∧ view w.state = view r.after)
    (fun s initial => .inl ⟨s, initial, rfl, fun _ mem => absurd mem not_mem_nil⟩)
    (fun _ _ _ _ holds => holds) ?_
  intro w t s here _ run holds
  by_cases changes : P t
  · exact .inr ⟨_, _, .concat_self w.history changes, rfl⟩
  · have same := kept w t s here run changes
    rcases holds with ⟨first, initial, unchanged, none⟩ | ⟨j, r, last, unchanged⟩
    · refine .inl ⟨first, initial, same.trans unchanged, fun r mem => ?_⟩
      rcases mem_append.mp mem with earlier | last
      · exact none r earlier
      · rw [mem_singleton.mp last]
        exact changes
    · exact .inr ⟨j, r, last.concat changes, same.trans unchanged⟩

theorem Reachable.unchanged
    {i : Nat} (found : w.history[i]? = some r) (none : ∀ later ∈ w.history.drop i, ¬ P later.tx) :
    view w.state = view r.before := by
  refine reached.invariant (I := fun w => ∀ i r, w.history[i]? = some r →
    (∀ later ∈ w.history.drop i, ¬ P later.tx) → view w.state = view r.before) ?_ ?_ ?_ i r found none
  · exact fun _ _ _ _ found => nomatch found
  · exact fun _ _ _ _ ih => ih
  · intro w t s here _ run ih i r found none
    have order : i ≤ w.history.length := by
      have bound := (List.getElem?_eq_some_iff.mp found).1
      rw [List.length_append, List.length_singleton] at bound
      omega
    rw [List.drop_append_of_le_length order] at none
    have last := kept w t s here run (none _ (List.mem_append_right _ (.head _)))
    obtain ⟨_, earlier⟩ | ⟨_, same⟩ := getElem?_concat_eq_some found
    · exact last.trans (ih i r earlier fun later mem => none later (mem_append_left _ mem))
    · rw [← same]
      exact last

end

theorem Steps.later (steps : Steps c guard w w')
    (ordered : ∀ w t, guard w t → inOrder c w t) : w.clock ≤ w'.clock ∧
      ∃ later, w'.history = w.history ++ later ∧ ∀ r ∈ later, w.clock ≤ c.time r.tx ∧ c.time r.tx ≤ w'.clock := by
  induction steps with
  | refl => exact ⟨le_rfl, [], (append_nil _).symm, fun _ mem => absurd mem not_mem_nil⟩
  | @tail v v' _ step ih =>
    rcases step with ⟨t, met, rfl⟩
    rcases ih with ⟨moved, later, history, times⟩
    have forward : v.clock ≤ c.time t := ordered v t met
    have earlier : ∀ r ∈ later, w.clock ≤ c.time r.tx ∧ c.time r.tx ≤ c.time t :=
      fun r mem => ⟨(times r mem).1, (times r mem).2.trans forward⟩
    rw [submit_clock]
    refine ⟨moved.trans forward, ?_⟩
    cases run : c.exec t v.state with
    | ok s =>
      refine ⟨later ++ [⟨t, v.state, s⟩], by rw [submit_ok c run, history, append_assoc], ?_⟩
      intro r mem
      rcases mem_append.mp mem with old | last
      · exact earlier r old
      · rw [mem_singleton.mp last]
        exact ⟨moved.trans forward, le_rfl⟩
    | error e => exact ⟨later, by rw [submit_error c run, history], earlier⟩

theorem Reachable.past (reached : Reachable c init guard w)
    (ordered : ∀ w t, guard w t → inOrder c w t) : ∀ r ∈ w.history, c.time r.tx ≤ w.clock := by
  refine reached.invariant (I := fun w => ∀ r ∈ w.history, c.time r.tx ≤ w.clock)
    (fun _ _ _ mem => absurd mem not_mem_nil) ?_ ?_
  · intro w t _ met holds r mem
    exact (holds r mem).trans (ordered w t met)
  · intro w t s _ met _ holds r mem
    rcases mem_append.mp mem with earlier | last
    · exact (holds r earlier).trans (ordered w t met)
    · rw [mem_singleton.mp last]

end Ledger

end Lib

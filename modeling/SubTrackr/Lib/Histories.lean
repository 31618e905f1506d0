import Mathlib.Data.List.Induction
import Mathlib.Data.List.Pairwise
import Mathlib.Data.Option.Basic

namespace Lib

open List

section

section FilterInduction

variable {α : Type*} (loud : α → Bool) {motive : List α → List α → Prop}

theorem filter_induction (nil : motive [] [])
    (left : ∀ xs ys a, loud a = false → motive xs ys → motive (xs ++ [a]) ys)
    (right : ∀ xs ys a, loud a = false → motive xs ys → motive xs (ys ++ [a]))
    (both : ∀ xs ys a, loud a = true → motive xs ys → motive (xs ++ [a]) (ys ++ [a])) {xs ys : List α}
    (same : xs.filter loud = ys.filter loud) : motive xs ys := by
  induction xs using List.reverseRecOn generalizing ys with
  | nil =>
    induction ys using List.reverseRecOn with
    | nil => exact nil
    | append_singleton ys b ih =>
      rw [filter_nil, eq_comm, filter_append, append_eq_nil_iff] at same
      have silent : loud b = false := by simpa using same.2
      exact right [] ys b silent (ih same.1.symm)
  | append_singleton xs a ihx =>
    cases heard : loud a with
    | false =>
      apply left xs ys a heard
      apply ihx
      rw [← same, filter_append, filter_cons_of_neg (by simp [heard]), filter_nil, append_nil]
    | true =>
      induction ys using List.reverseRecOn with
      | nil => simp [filter_append, heard] at same
      | append_singleton ys b ihy =>
        cases heard' : loud b with
        | false =>
          apply right _ ys b heard'
          apply ihy
          rw [same, filter_append, filter_cons_of_neg (by simp [heard']), filter_nil, append_nil]
        | true =>
          rw [filter_append, filter_append, filter_cons_of_pos heard, filter_cons_of_pos heard',
            filter_nil, append_singleton_inj] at same
          obtain ⟨before, rfl⟩ := same
          exact both xs ys a heard (ihx before)

end FilterInduction

variable {σ α : Type*} {step : σ → α → σ} {s : σ} {cond : σ → α → Prop} {actions : List α} {a : α}

def Throughout (step : σ → α → σ) (s : σ) (cond : σ → α → Prop) (actions : List α) : Prop :=
  ∀ earlier a later, actions = earlier ++ a :: later → cond (earlier.foldl step s) a

namespace Throughout

theorem init (met : Throughout step s cond (actions ++ [a])) : Throughout step s cond actions := by
  intro earlier b later split
  apply met earlier b (later ++ [a])
  rw [split, append_assoc, cons_append]

theorem last (met : Throughout step s cond (actions ++ [a])) : cond (actions.foldl step s) a := met actions a [] rfl

theorem nil : Throughout step s cond [] := by
  intro earlier b later split
  cases earlier <;> cases split

theorem cons (first : cond s a) (rest : Throughout step (step s a) cond actions) : Throughout step s cond (a :: actions) := by
  intro earlier b later split
  cases earlier with
  | nil =>
    obtain ⟨rfl, rfl⟩ := List.cons.inj split
    exact first
  | cons c earlier =>
    obtain ⟨rfl, remaining⟩ := List.cons.inj split
    exact rest earlier b later remaining

theorem tail {earlier : List α} (met : Throughout step s cond (earlier ++ actions)) :
    Throughout step (earlier.foldl step s) cond actions := by
  intro middle b later split
  rw [← foldl_append]
  apply met (earlier ++ middle) b later
  rw [split, append_assoc]

theorem before {earlier later : List α} (met : Throughout step s cond actions) (split : actions = earlier ++ later) :
    Throughout step s cond earlier := by
  intro first b rest split'
  apply met first b (rest ++ later)
  rw [split, split', append_assoc, cons_append]

theorem and {cond' : σ → α → Prop} (met : Throughout step s cond actions) (met' : Throughout step s cond' actions) :
    Throughout step s (fun s a => cond s a ∧ cond' s a) actions :=
  fun earlier b later split => ⟨met earlier b later split, met' earlier b later split⟩

theorem keeps (Inv : σ → Prop) (initially : Inv s)
    (kept : ∀ s a, Inv s → cond s a → Inv (step s a)) (met : Throughout step s cond actions) :
    Inv (actions.foldl step s) := by
  induction actions using List.reverseRecOn with
  | nil => exact initially
  | append_singleton actions a ih =>
    rw [foldl_append, foldl_cons, foldl_nil]
    exact kept _ _ (ih met.init) met.last

end Throughout

theorem foldlM_keeps {ε : Type*} {f : σ → α → Except ε σ} {t : σ} (Inv : σ → Prop)
    (kept : ∀ s a t, Inv s → f s a = .ok t → Inv t) (initially : Inv s) (done : actions.foldlM f s = .ok t) : Inv t := by
  induction actions generalizing s with
  | nil =>
    cases done
    exact initially
  | cons a actions ih =>
    rw [foldlM_cons] at done
    cases first : f s a with
    | error e =>
      rw [first] at done
      cases done
    | ok middle =>
      rw [first] at done
      exact ih (kept s a middle initially first) done

end

section Kin

variable {κ : Type*} (parent : κ → Option κ)

def Descends (c k : κ) : Prop := Relation.ReflTransGen (fun a b => parent b = some a) c k

def Kin (a b : κ) : Prop := ∃ c, Descends parent c a ∧ Descends parent c b

def Lone (live : κ → Prop) : Prop := ∀ a b, live a → live b → Kin parent a b → a = b

variable {parent} {live live' : κ → Prop} {a b c k n : κ}

theorem Descends.of_childless (childless : ∀ b, parent b ≠ some n) (descends : Descends parent n b) : b = n := by
  induction descends with
  | refl => rfl
  | tail _ last ih =>
    subst ih
    exact absurd last (childless _)

theorem Descends.of_root (root : parent n = none) (descends : Descends parent c n) : c = n := by
  cases descends with
  | refl => rfl
  | tail _ last => simp [root] at last

theorem Kin.symm (kin : Kin parent a b) : Kin parent b a := by
  obtain ⟨c, left, right⟩ := kin
  exact ⟨c, right, left⟩

theorem Kin.of_lonely (root : parent n = none) (childless : ∀ b, parent b ≠ some n) (kin : Kin parent n b) : b = n := by
  obtain ⟨c, left, right⟩ := kin
  obtain rfl := left.of_root root
  exact right.of_childless childless

theorem Lone.mono (lone : Lone parent live) (fewer : ∀ a, live' a → live a) : Lone parent live' :=
  fun a b alive alive' kin => lone a b (fewer a alive) (fewer b alive') kin

theorem Lone.root (lone : Lone parent live) (root : parent n = none) (childless : ∀ b, parent b ≠ some n)
    (old : ∀ a, live' a → a = n ∨ live a) : Lone parent live' := by
  intro a b alive alive' kin
  rcases old a alive with rfl | before
  · exact (kin.of_lonely root childless).symm
  · rcases old b alive' with rfl | before'
    · exact kin.symm.of_lonely root childless
    · exact lone a b before before' kin

variable [DecidableEq κ]

theorem Descends.of_update (childless : ∀ b, parent b ≠ some n) (other : k ≠ n)
    (descends : Descends (Function.update parent n (some k)) c b) :
    b = n ∧ (c = n ∨ Descends parent c k) ∨ b ≠ n ∧ Descends parent c b := by
  induction descends with
  | refl =>
    by_cases here : c = n
    · exact .inl ⟨here, .inl here⟩
    · exact .inr ⟨here, .refl⟩
  | @tail m b _ last ih =>
    by_cases here : b = n
    · subst here
      rw [Function.update_self, Option.some.injEq] at last
      subst last
      exact .inl ⟨rfl, .inr (ih.resolve_left fun leaf => other leaf.1).2⟩
    · rw [Function.update_of_ne here] at last
      have old : m ≠ n := by
        intro leaf
        exact childless b (leaf ▸ last)
      exact .inr ⟨here, (ih.resolve_left fun leaf => old leaf.1).2.tail last⟩

theorem Kin.of_update (childless : ∀ b, parent b ≠ some n) (other : k ≠ n)
    (kin : Kin (Function.update parent n (some k)) a b) (old : b ≠ n) : Kin parent (if a = n then k else a) b := by
  obtain ⟨c, left, right⟩ := kin
  have right := (right.of_update childless other).resolve_left fun leaf => old leaf.1
  rcases left.of_update childless other with ⟨leaf, top | left⟩ | ⟨old', left⟩
  · rw [top] at right
    exact absurd (right.2.of_childless childless) old
  · rw [if_pos leaf]
    exact ⟨c, left, right.2⟩
  · rw [if_neg old']
    exact ⟨c, left, right.2⟩

/-- A new leaf is alone where none of the nodes that stay live is kin of its parent. -/
theorem Lone.update (lone : Lone parent live) (childless : ∀ b, parent b ≠ some n) (other : k ≠ n)
    (old : ∀ a, live' a → a = n ∨ a ≠ n ∧ live a ∧ ¬ Kin parent k a) :
    Lone (Function.update parent n (some k)) live' := by
  intro a b alive alive' kin
  rcases old a alive with here | ⟨there, before, apart⟩
  · rcases old b alive' with here' | ⟨there', -, apart'⟩
    · rw [here, here']
    · have kin := kin.of_update childless other there'
      rw [if_pos here] at kin
      exact absurd kin apart'
  · rcases old b alive' with here' | ⟨there', before', -⟩
    · have kin := kin.symm.of_update childless other there
      rw [if_pos here'] at kin
      exact absurd kin apart
    · have kin := kin.of_update childless other there'
      rw [if_neg there] at kin
      exact lone a b before before' kin

end Kin

variable {κ ν μ ξ : Type*} {r : ν → μ → Prop} {m : κ → Option ν} {m' : κ → Option μ} {k : κ} {v : ν} {w : μ}

def Related (r : ν → μ → Prop) (m : κ → Option ν) (m' : κ → Option μ) : Prop := ∀ k, Option.Rel r (m k) (m' k)

namespace Related

theorem refl {r : ν → ν → Prop} (reflexive : ∀ v, r v v) (m : κ → Option ν) : Related r m m := by
  intro k
  cases m k with
  | none => exact .none
  | some v => exact .some (reflexive v)

section

variable (related : Related r m m')

include related

theorem of_some (found : m k = some v) : ∃ w, m' k = some w ∧ r v w := by
  have here := related k
  rw [found] at here
  generalize m' k = entry at here
  cases here with
  | @some _ w holds => exact ⟨w, rfl, holds⟩

theorem of_none (absent : m k = none) : m' k = none := by
  have here := related k
  rw [absent] at here
  generalize m' k = entry at here
  cases here
  rfl

theorem isSome_eq (k : κ) : (m k).isSome = (m' k).isSome := by
  have here := related k
  generalize m k = entry, m' k = entry' at here
  cases here <;> rfl

theorem of_some_right (found : m' k = some w) : ∃ v, m k = some v ∧ r v w := by
  have here := related k
  rw [found] at here
  generalize m k = entry at here
  cases here with
  | @some v _ holds => exact ⟨v, rfl, holds⟩

theorem flip {r' : μ → ν → Prop} (turn : ∀ v w, r v w → r' w v) : Related r' m' m := by
  intro k
  have here := related k
  generalize m k = entry, m' k = entry' at here
  cases here with
  | none => exact .none
  | some holds => exact .some (turn _ _ holds)

theorem mono {r' : ν → μ → Prop} (weaken : ∀ v w, r v w → r' v w) : Related r' m m' := by
  intro k
  have here := related k
  generalize m k = entry, m' k = entry' at here
  cases here with
  | none => exact .none
  | some holds => exact .some (weaken _ _ holds)

end

theorem trans {m'' : κ → Option ξ} {r' : μ → ξ → Prop} {r'' : ν → ξ → Prop} (first : Related r m m')
    (second : Related r' m' m'') (comp : ∀ v w x, r v w → r' w x → r'' v x) : Related r'' m m'' := by
  intro k
  cases found : m k with
  | none =>
    rw [second.of_none (first.of_none found)]
    exact .none
  | some v =>
    obtain ⟨w, found', holds⟩ := first.of_some found
    obtain ⟨x, found'', holds'⟩ := second.of_some found'
    rw [found'']
    exact .some (comp v w x holds holds')

theorem map {f : ν → μ} (holds : ∀ v, r v (f v)) (m : κ → Option ν) : Related r m fun k => (m k).map f := by
  intro k
  dsimp only
  cases m k with
  | none => exact .none
  | some v => exact .some (holds v)

variable [DecidableEq κ]

theorem update (related : Related r m m') (k : κ) (holds : r v w) :
    Related r (Function.update m k (some v)) (Function.update m' k (some w)) := by
  intro j
  by_cases here : j = k
  · subst here
    rw [Function.update_self, Function.update_self]
    exact .some holds
  · rw [Function.update_of_ne here, Function.update_of_ne here]
    exact related j

theorem replace {r : ν → ν → Prop} {w : ν} (reflexive : ∀ v, r v v) (found : m k = some v) (holds : r v w) :
    Related r m (Function.update m k (some w)) := by
  have := (refl reflexive m).update k holds
  rwa [Function.update_eq_self_iff.mpr found.symm] at this

end Related

end Lib

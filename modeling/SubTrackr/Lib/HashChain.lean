import Mathlib.Data.List.Basic

namespace Lib

open List

structure HashChain (ε η : Type) where
  (prev hash digest : ε → η)

namespace HashChain

variable {ε η : Type} (c : HashChain ε η)

def Linked : η → List ε → Prop
  | _, [] => True
  | p, e :: rest => c.prev e = p ∧ c.digest e = c.hash e ∧ Linked (c.hash e) rest

def tip (p : η) (log : List ε) : η := (log.getLast?.map c.hash).getD p

variable {c} {p : η} {log : List ε}

theorem tip_cons (p : η) (e : ε) (rest : List ε) : c.tip p (e :: rest) = c.tip (c.hash e) rest := by
  cases rest with
  | nil => rfl
  | cons next rest => rfl

theorem linked_append {suffix : List ε} :
    c.Linked p (log ++ suffix) ↔ c.Linked p log ∧ c.Linked (c.tip p log) suffix := by
  induction log generalizing p with
  | nil => exact (and_iff_right trivial).symm
  | cons e rest ih =>
    rw [cons_append, Linked, Linked, ih, tip_cons]
    tauto

theorem linked_singleton {e : ε} : c.Linked p [e] ↔ c.prev e = p ∧ c.digest e = c.hash e := by
  rw [Linked, Linked, and_true]

theorem linked_map {f : ε → ε} (prev : ∀ e, c.prev (f e) = c.prev e) (hash : ∀ e, c.hash (f e) = c.hash e)
    (digest : ∀ e, c.digest (f e) = c.digest e) : c.Linked p (log.map f) ↔ c.Linked p log := by
  induction log generalizing p with
  | nil => exact Iff.rfl
  | cons e rest ih => rw [map_cons, Linked, Linked, prev, hash, digest, ih]

section

variable (linked : c.Linked p log)

include linked

theorem Linked.take (n : ℕ) : c.Linked p (log.take n) := by
  rw [← take_append_drop n log, linked_append] at linked
  exact linked.1

/-- Where the chain is linked, an entry names the genesis or the digest of the entry before it. -/
theorem Linked.prev_zero {e : ε} (first : log[0]? = some e) : c.prev e = p := by
  cases log with
  | nil => cases first
  | cons d rest =>
    cases first
    exact linked.1

theorem Linked.prev_succ {i : ℕ} {d e : ε} (before : log[i]? = some d)
    (next : log[i + 1]? = some e) : c.prev e = c.digest d := by
  induction log generalizing p i with
  | nil => cases before
  | cons a rest ih =>
    obtain ⟨-, sealed, later⟩ := linked
    cases i with
    | zero =>
      cases before
      rw [sealed]
      exact later.prev_zero next
    | succ i => exact ih later before next

theorem Linked.sealed {e : ε} (mem : e ∈ log) : c.digest e = c.hash e := by
  induction log generalizing p with
  | nil => cases mem
  | cons d rest ih =>
    obtain ⟨-, sealed, later⟩ := linked
    rcases mem_cons.mp mem with rfl | mem
    · exact sealed
    · exact ih later mem

/-- No two entries of a linked chain name the same hash, when a digest commits to the hash before and is never the
    genesis. -/
theorem Linked.prev_injective (fresh : ∀ e, c.digest e ≠ p)
    (commits : ∀ d e, c.digest d = c.digest e → c.prev d = c.prev e) {i j : ℕ} {d e : ε} (first : log[i]? = some d)
    (second : log[j]? = some e) (same : c.prev d = c.prev e) : i = j := by
  have before {k : ℕ} {e : ε} (found : log[k + 1]? = some e) : ∃ d, log[k]? = some d := by
    have bound := (List.getElem?_eq_some_iff.mp found).1
    exact ⟨_, List.getElem?_eq_getElem (by omega)⟩
  induction i generalizing j d e with
  | zero =>
    cases j with
    | zero => rfl
    | succ j =>
      obtain ⟨b, found⟩ := before second
      rw [linked.prev_zero first, linked.prev_succ found second] at same
      exact absurd same.symm (fresh b)
  | succ i ih =>
    obtain ⟨a, found⟩ := before first
    rw [linked.prev_succ found first] at same
    cases j with
    | zero =>
      rw [linked.prev_zero second] at same
      exact absurd same (fresh a)
    | succ j =>
      obtain ⟨b, found'⟩ := before second
      rw [linked.prev_succ found' second] at same
      rw [ih found found' (commits a b same)]

end

section Tampering

def marks (c : HashChain ε η) (e : ε) : η × η × η := (c.prev e, c.hash e, c.digest e)

theorem linked_congr {log' : List ε} (same : log'.map c.marks = log.map c.marks) : c.Linked p log' ↔ c.Linked p log := by
  induction log generalizing p log' with
  | nil => rw [map_eq_nil_iff.mp same]
  | cons e rest ih =>
    obtain ⟨e', rest', rfl, head, tail⟩ := map_eq_cons_iff.mp same
    obtain ⟨prev, hash, digest⟩ : c.prev e' = c.prev e ∧ c.hash e' = c.hash e ∧ c.digest e' = c.digest e := by
      simpa only [marks, Prod.mk.injEq] using head
    rw [Linked, Linked, prev, hash, digest, ih tail]

theorem Linked.of_marks {log' : List ε} {k : ℕ} (linked : c.Linked p log) (length : log'.length = log.length)
    (same : ∀ j ≤ k, ∀ d e, log[j]? = some d → log'[j]? = some e → c.marks e = c.marks d) :
    c.Linked p (log'.take (k + 1)) := by
  refine (linked_congr ?_).mpr (linked.take (k + 1))
  apply ext_getElem
  · rw [length_map, length_map, length_take, length_take, length]
  · intro j inside' inside
    rw [length_map, length_take] at inside inside'
    rw [getElem_map, getElem_map, getElem_take, getElem_take]
    exact same j (by omega) _ _ (List.getElem?_eq_getElem (by omega)) (List.getElem?_eq_getElem (by omega))

/-- A log that stays linked up to an entry, where the entries before it have their content and the hashes are known
    ones, agrees with the original up to there. -/
theorem Linked.marks_eq {log' : List ε} {k : ℕ} (linked : c.Linked p log) (linked' : c.Linked p (log'.take (k + 1)))
    (fresh : ∀ e, c.digest e ≠ p) (commits : ∀ d e, c.digest d = c.digest e → c.prev d = c.prev e)
    (kept : ∀ j < k, ∀ d e, log[j]? = some d → log'[j]? = some e → c.prev e = c.prev d → c.digest e = c.digest d)
    (known : ∀ e ∈ log', ∃ d ∈ log, c.hash e = c.hash d) {j : ℕ} (upTo : j ≤ k) {d e : ε} (first : log[j]? = some d)
    (second : log'[j]? = some e) : c.marks e = c.marks d := by
  have taken {i : ℕ} {e : ε} (inside : i ≤ k) (found : log'[i]? = some e) : (log'.take (k + 1))[i]? = some e := by
    rw [getElem?_take_of_lt (by omega)]
    exact found
  have before {l : List ε} {i : ℕ} {e : ε} (found : l[i + 1]? = some e) : ∃ d, l[i]? = some d := by
    have bound := (List.getElem?_eq_some_iff.mp found).1
    exact ⟨_, List.getElem?_eq_getElem (by omega)⟩
  -- an entry that names the right hash before it has the right hash itself
  have follows {j : ℕ} (upTo : j ≤ k) {d e : ε} (first : log[j]? = some d) (second : log'[j]? = some e)
      (prev : c.prev e = c.prev d) : c.marks e = c.marks d := by
    have hashed := linked.sealed (mem_of_getElem? first)
    have hashed' := linked'.sealed (mem_of_getElem? (taken upTo second))
    have digest : c.digest e = c.digest d := by
      rcases Nat.lt_or_eq_of_le upTo with earlier | rfl
      · exact kept j earlier d e first second prev
      · obtain ⟨o, mem, same⟩ := known e (mem_of_getElem? second)
        have other : c.digest e = c.digest o := by rw [hashed', same, linked.sealed mem]
        obtain ⟨m, found⟩ := getElem?_of_mem mem
        obtain rfl := linked.prev_injective fresh commits first found (prev.symm.trans (commits e o other))
        rw [first] at found
        cases found
        exact other
    unfold marks
    rw [prev, digest, ← hashed, ← hashed', digest]
  induction j generalizing d e with
  | zero => exact follows upTo first second ((linked'.prev_zero (taken upTo second)).trans (linked.prev_zero first).symm)
  | succ j ih =>
    obtain ⟨d', found⟩ := before first
    obtain ⟨e', found'⟩ := before second
    have same := ih (by omega) found found'
    apply follows upTo first second
    rw [linked'.prev_succ (taken (by omega) found') (taken upTo second), linked.prev_succ found first]
    exact congrArg (·.2.2) same

end Tampering

end HashChain

end Lib

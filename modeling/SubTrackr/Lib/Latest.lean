import Mathlib.Order.Lattice

namespace Lib

section Latest

variable {ρ κ : Type} [LinearOrder κ] (key : ρ → κ)

def latest (current write : ρ) : ρ := if key current < key write then write else current

def overwrite (current : Option ρ) (write : ρ) : Option ρ :=
  match current with
  | none => some write
  | some current => some (latest key current write)

variable {key} {current : Option ρ} {write result : ρ}

theorem latest_of_le {current : ρ} (older : key write ≤ key current) : latest key current write = current :=
  if_neg (not_lt.mpr older)

theorem key_le_latest (current write : ρ) : key current ≤ key (latest key current write) := by
  unfold latest
  split
  · rename_i later
    exact later.le
  · exact le_rfl

theorem write_le_latest (current write : ρ) : key write ≤ key (latest key current write) := by
  unfold latest
  split
  · exact le_rfl
  · rename_i older
    exact not_lt.mp older

variable (key) in
def Covers (current : Option ρ) (write : ρ) : Prop := ∃ result, current = some result ∧ key write ≤ key result

theorem covers_overwrite (current : Option ρ) (write : ρ) : Covers key (overwrite key current write) write := by
  cases current with
  | none => exact ⟨write, rfl, le_rfl⟩
  | some current => exact ⟨_, rfl, write_le_latest current write⟩

theorem Covers.kept {other : ρ} (covered : Covers key current write) :
    Covers key (overwrite key current other) write := by
  obtain ⟨result, rfl, older⟩ := covered
  exact ⟨_, rfl, older.trans (key_le_latest result other)⟩

theorem Covers.settled (covered : Covers key current write) : overwrite key current write = current := by
  obtain ⟨result, rfl, older⟩ := covered
  exact congrArg some (latest_of_le older)

theorem mem_overwrite (found : overwrite key current write = some result) : current = some result ∨ write = result := by
  cases current with
  | none => exact .inr (Option.some.inj found)
  | some current =>
    have found := Option.some.inj found
    unfold latest at found
    split at found
    · exact .inr found
    · exact .inl (congrArg some found)

variable (key) in
def IsLatest (result : Option ρ) (candidates : ρ → Prop) : Prop :=
  (∀ w, result = some w → candidates w) ∧ ∀ w, candidates w → Covers key result w

theorem IsLatest.next {candidates : ρ → Prop} (latest : IsLatest key current candidates) :
    IsLatest key (overwrite key current write) fun w => candidates w ∨ w = write := by
  constructor
  · intro w found
    rcases mem_overwrite found with kept | rfl
    · exact .inl (latest.1 w kept)
    · exact .inr rfl
  · intro w candidate
    rcases candidate with old | rfl
    · exact (latest.2 w old).kept
    · exact covers_overwrite current w

theorem IsLatest.unique {candidates : ρ → Prop} {r s : Option ρ} (first : IsLatest key r candidates)
    (second : IsLatest key s candidates)
    (identified : ∀ v w, candidates v → candidates w → key v = key w → v = w) : r = s := by
  cases r with
  | none =>
    cases s with
    | none => rfl
    | some w =>
      obtain ⟨_, missing, -⟩ := first.2 w (second.1 w rfl)
      cases missing
  | some v =>
    have known := first.1 v rfl
    obtain ⟨w, rfl, above⟩ := second.2 v known
    obtain ⟨_, same, below⟩ := first.2 w (second.1 w rfl)
    cases same
    rw [identified v w known (second.1 w rfl) (le_antisymm above below)]

variable (key) in
theorem isLatest_self (current : Option ρ) : IsLatest key current fun w => current = some w := by
  constructor
  · intro w found
    exact found
  · intro w found
    exact ⟨w, found, le_rfl⟩

theorem IsLatest.run {candidates : ρ → Prop} (latest : IsLatest key current candidates) (writes : List ρ) :
    IsLatest key (writes.foldl (overwrite key) current) fun w => candidates w ∨ w ∈ writes := by
  induction writes generalizing current candidates with
  | nil => simpa using latest
  | cons write writes ih =>
    have rest := ih (@IsLatest.next _ _ _ key current write candidates latest)
    simpa only [List.mem_cons, or_assoc, List.foldl_cons] using rest

theorem Covers.run (covered : Covers key current write) (writes : List ρ) :
    Covers key (writes.foldl (overwrite key) current) write := by
  induction writes generalizing current with
  | nil => exact covered
  | cons other writes ih => exact ih covered.kept

theorem covers_of_mem {writes : List ρ} (mem : write ∈ writes) :
    Covers key (writes.foldl (overwrite key) current) write :=
  ((isLatest_self key current).run writes).2 write (.inr mem)

theorem foldl_overwrite_settled {writes : List ρ} (covered : ∀ w ∈ writes, Covers key current w) :
    writes.foldl (overwrite key) current = current := by
  induction writes with
  | nil => rfl
  | cons write writes ih =>
    rw [List.forall_mem_cons] at covered
    rw [List.foldl_cons, covered.1.settled, ih covered.2]

theorem foldl_overwrite_perm {writes order : List ρ} (permuted : order.Perm writes)
    (identified : ∀ v w, (current = some v ∨ v ∈ writes) → (current = some w ∨ w ∈ writes) → key v = key w → v = w) :
    order.foldl (overwrite key) current = writes.foldl (overwrite key) current := by
  have ordered := (isLatest_self key current).run order
  simp only [permuted.mem_iff] at ordered
  exact ordered.unique ((isLatest_self key current).run writes) identified

end Latest

end Lib

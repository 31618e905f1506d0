import SubTrackr.Lib.Store

namespace Lib

open List

variable {κ ν ι : Type} [DecidableEq κ]

def assign (m : Store κ ν) (k : κ) (o : Option ν) : Store κ ν := Function.update m k o

def restore (log : List (κ × Option ν)) (m : Store κ ν) : Store κ ν := log.foldl (fun m e => assign m e.1 e.2) m

def perform (f : ι → Option ν → Option ν) (ops : List (κ × ι)) (m : Store κ ν) : Store κ ν :=
  ops.foldl (fun m op => assign m op.1 (f op.2 (m op.1))) m

def snapshots (f : ι → Option ν → Option ν) : List (κ × ι) → Store κ ν → List (κ × Option ν)
  | [], _ => []
  | (k, i) :: ops, m => (k, m k) :: snapshots f ops (assign m k (f i (m k)))

variable {f : ι → Option ν → Option ν} {m : Store κ ν} {k : κ}

theorem assign_self (m : Store κ ν) (k : κ) (o : Option ν) : assign m k o k = o := Function.update_self ..

theorem assign_of_ne (m : Store κ ν) {k j : κ} (o : Option ν) (other : j ≠ k) : assign m k o j = m j :=
  Function.update_of_ne other ..

theorem assign_same (m : Store κ ν) (k : κ) : assign m k (m k) = m := Function.update_eq_self ..

theorem restore_absent {log : List (κ × Option ν)} (absent : k ∉ log.map (·.1)) (m : Store κ ν) :
    restore log m k = m k := by
  induction log generalizing m with
  | nil => rfl
  | cons e log ih =>
    rw [map_cons, mem_cons, not_or] at absent
    show restore log (assign m e.1 e.2) k = m k
    rw [ih absent.2, assign_of_ne _ _ absent.1]

theorem restore_last (before : List (κ × Option ν)) {after : List (κ × Option ν)} (o : Option ν)
    (last : k ∉ after.map (·.1)) (m : Store κ ν) : restore (before ++ (k, o) :: after) m k = o := by
  unfold restore
  rw [foldl_append, foldl_cons]
  show restore after (assign _ k o) k = o
  rw [restore_absent last, assign_self]

theorem perform_cons (f : ι → Option ν → Option ν) (op : κ × ι) (ops : List (κ × ι)) (m : Store κ ν) :
    perform f (op :: ops) m = perform f ops (assign m op.1 (f op.2 (m op.1))) := rfl

theorem perform_apply (f : ι → Option ν → Option ν) (ops : List (κ × ι)) (m : Store κ ν) (k : κ) :
    perform f ops m k = ((ops.filter (·.1 = k)).map (·.2)).foldl (fun o i => f i o) (m k) := by
  induction ops generalizing m with
  | nil => rfl
  | cons op ops ih =>
    rw [perform_cons, ih]
    by_cases here : op.1 = k
    · subst here
      simp [assign_self]
    · rw [assign_of_ne _ _ (Ne.symm here)]
      simp [here]

theorem perform_absent {ops : List (κ × ι)} (absent : k ∉ ops.map (·.1)) : perform f ops m k = m k := by
  have none : ops.filter (·.1 = k) = [] := by
    rw [filter_eq_nil_iff]
    intro op mem here
    exact absent (mem_map.mpr ⟨op, mem, of_decide_eq_true here⟩)
  rw [perform_apply, none]
  rfl

theorem snapshots_keys (f : ι → Option ν → Option ν) (ops : List (κ × ι)) (m : Store κ ν) :
    (snapshots f ops m).map (·.1) = ops.map (·.1) := by
  induction ops generalizing m with
  | nil => rfl
  | cons op ops ih =>
    rw [snapshots, map_cons, map_cons, ih]

theorem snapshots_append (f : ι → Option ν → Option ν) (a b : List (κ × ι)) (m : Store κ ν) :
    snapshots f (a ++ b) m = snapshots f a m ++ snapshots f b (perform f a m) := by
  induction a generalizing m with
  | nil => rfl
  | cons op a ih =>
    rw [cons_append, snapshots, snapshots, ih]
    rfl

/-- Operations are undone by their snapshots, in the order of the operations, if each record is unchanged before the last
    operation on it, and only then. -/
theorem restore_snapshots (ops : List (κ × ι)) {m' : Store κ ν} (outside : ∀ k, k ∉ ops.map (·.1) → m' k = m k) :
    restore (snapshots f ops m) m' = m ↔
      ∀ a op b, ops = a ++ op :: b → op.1 ∉ b.map (·.1) → perform f a m op.1 = m op.1 := by
  have split (a : List (κ × ι)) (op : κ × ι) (b : List (κ × ι)) (same : ops = a ++ op :: b)
      (last : op.1 ∉ b.map (·.1)) : restore (snapshots f ops m) m' op.1 = perform f a m op.1 := by
    rw [same, snapshots_append]
    exact restore_last _ _ (by rwa [snapshots_keys]) m'
  constructor
  · intro undone a op b same last
    rw [← split a op b same last, undone]
  · intro unchanged
    funext k
    by_cases touched : k ∈ ops.map (·.1)
    · obtain ⟨a, op, b, same, here, last⟩ : ∃ a op b, ops = a ++ op :: b ∧ op.1 = k ∧ k ∉ b.map (·.1) := by
        clear split unchanged outside
        induction ops with
        | nil => cases touched
        | cons op ops ih =>
          by_cases later : k ∈ ops.map (·.1)
          · obtain ⟨a, x, b, same, here, last⟩ := ih later
            exact ⟨op :: a, x, b, by rw [same, cons_append], here, last⟩
          · rw [map_cons, mem_cons] at touched
            exact ⟨[], op, ops, rfl, (touched.resolve_right later).symm, later⟩
      subst here
      rw [split a op b same last, unchanged a op b same last]
    · rw [restore_absent (by rwa [snapshots_keys]), outside k touched]

end Lib

import SubTrackr.Idempotency.Service

namespace SubTrackr.Idempotency

open List Lib

variable {ρ : Type}

inductive Event (ρ : Type)
  | execute (key requestHash : String)
  | succeed (operation : ℕ) (response : ρ)
  | fail (operation : ℕ)
  | cleanup

namespace IdempotencyService

def InFlight (s : IdempotencyService ρ) (operation : ℕ) : Prop :=
  ∃ r, s.records[operation]? = some r ∧ r.status = .pending

def step (s : IdempotencyService ρ) (now : ℤ) : Event ρ → IdempotencyService ρ
  | .execute key requestHash => (s.execute key requestHash now).2
  | .succeed operation response => s.succeed now operation response
  | .fail operation => s.fail operation
  | .cleanup => (s.cleanup now).2

def Possible (s : IdempotencyService ρ) : Event ρ → Prop
  | .succeed operation _ => s.InFlight operation
  | .fail operation => s.InFlight operation
  | _ => True

def discarded (s : IdempotencyService ρ) (now : ℤ) : Event ρ → List (Sigma fun _ : String => ℕ)
  | .execute _ _ => if MAX_KEYS ≤ s.store.size then s.store.oldest evictCount else []
  | .cleanup => s.store.entries.filter fun e => s.expired now e.2
  | _ => []

/-- Every record that the event discards is settled and older than the window. -/
def Harmless (s : IdempotencyService ρ) (now : ℤ) (event : Event ρ) : Prop :=
  ∀ e ∈ s.discarded now event, ∀ r, s.records[e.2]? = some r →
    r.status ≠ .pending ∧ r.createdAt + s.windowMs < now

instance (s : IdempotencyService ρ) (now : ℤ) (event : Event ρ) : Decidable (s.Harmless now event) :=
  inferInstanceAs (Decidable (∀ e ∈ s.discarded now event, ∀ r ∈ s.records[e.2]?, _ ∧ _))

def Repeated (s : IdempotencyService ρ) (a b : IdempotencyRecord ρ) : Prop :=
  ∃ i j : ℕ, i < j ∧ s.records[i]? = some a ∧ s.records[j]? = some b ∧ a.key = b.key

/-- No two operations of one key are in flight together, and no two that start within the window both succeed. -/
structure AtMostOnce (s : IdempotencyService ρ) : Prop where
  apart (a b : IdempotencyRecord ρ) : s.Repeated a b → ¬(a.status = .pending ∧ b.status = .pending)
  once (a b : IdempotencyRecord ρ) : s.Repeated a b → b.createdAt ≤ a.createdAt + s.windowMs →
    ¬(a.status = .completed ∧ b.status = .completed)

end IdempotencyService

structure Served (ρ : Type) where
  clock : ℤ
  service : IdempotencyService ρ

def Serves (allowed : IdempotencyService ρ → ℤ → Event ρ → Prop) : Served ρ → Served ρ → Prop :=
  Relation.ReflTransGen fun w w' => ∃ now event, w.clock ≤ now ∧ w.service.Possible event ∧
    allowed w.service now event ∧ w' = ⟨now, w.service.step now event⟩

namespace IdempotencyService

variable {s : IdempotencyService ρ} {key requestHash : String} {now : ℤ}

def Free (s : IdempotencyService ρ) (key : String) (now : ℤ) : Prop :=
  ∀ i : ℕ, ∀ r : IdempotencyRecord ρ, s.records[i]? = some r → r.key = key →
    r.status = .failed ∨ r.status = .completed ∧ r.createdAt + s.windowMs < now

/-- The map holds what is in flight and what succeeded within its window, and an operation starts only when the ones
    of its key before it were over. -/
structure Guarded (s : IdempotencyService ρ) (now : ℤ) : Prop where
  flying (i : ℕ) (r : IdempotencyRecord ρ) : s.records[i]? = some r → r.status = .pending →
    s.store.lookup r.key = some i
  remembered (i : ℕ) (r : IdempotencyRecord ρ) : s.records[i]? = some r → r.status = .completed →
    now ≤ r.createdAt + s.windowMs → s.store.lookup r.key = some i
  ended (a b : IdempotencyRecord ρ) : s.Repeated a b →
    a.status = .failed ∨ a.status = .completed ∧ a.createdAt + s.windowMs < b.createdAt

section

variable (guarded : s.Guarded now)

include guarded

theorem Guarded.atMostOnce : s.AtMostOnce := by
  constructor
  · rintro a b repeated ⟨pending, -⟩
    rcases guarded.ended a b repeated with failed | ⟨completed, -⟩
    · exact absurd (pending.symm.trans failed) (by decide)
    · exact absurd (pending.symm.trans completed) (by decide)
  · rintro a b repeated within ⟨completed, -⟩
    rcases guarded.ended a b repeated with failed | ⟨-, later⟩
    · exact absurd (completed.symm.trans failed) (by decide)
    · exact absurd within (not_le.mpr later)

theorem Guarded.later {now' : ℤ} (after : now ≤ now') : s.Guarded now' :=
  { guarded with
    remembered := fun i r known completed within => guarded.remembered i r known completed (after.trans within) }

theorem Guarded.shrink {s' : IdempotencyService ρ} (window : s'.windowMs = s.windowMs)
    (records : s'.records = s.records)
    (kept : ∀ k i, ∀ r : IdempotencyRecord ρ, s.store.lookup k = some i → s.records[i]? = some r →
      r.status = .pending ∨ r.status = .completed ∧ now ≤ r.createdAt + s.windowMs → s'.store.lookup k = some i) :
    s'.Guarded now := by
  constructor
  · intro i r known pending
    rw [records] at known
    exact kept _ i r (guarded.flying i r known pending) known (.inl pending)
  · intro i r known completed within
    rw [records] at known
    rw [window] at within
    exact kept _ i r (guarded.remembered i r known completed within) known (.inr ⟨completed, within⟩)
  · unfold Repeated
    rw [records, window]
    exact guarded.ended

theorem enforceStorageLimit_guarded
    (harmless : s.Harmless now (.execute key requestHash)) : s.enforceStorageLimit.Guarded now := by
  refine guarded.shrink rfl rfl fun k i r held known needed => ?_
  change (if MAX_KEYS ≤ s.store.size then _ else _ : OrderedMap String ℕ).lookup k = some i
  split
  · rename_i full
    refine OrderedMap.lookup_dropOldest held fun old => ?_
    have discarded : ⟨k, i⟩ ∈ s.discarded now (.execute key requestHash) := by
      unfold discarded
      rw [if_pos full]
      exact old
    have spared := harmless _ discarded r known
    rcases needed with pending | ⟨-, within⟩
    · exact spared.1 pending
    · exact absurd spared.2 (not_lt.mpr within)
  · exact held

theorem cleanup_guarded (harmless : s.Harmless now .cleanup) : (s.cleanup now).2.Guarded now := by
  refine guarded.shrink rfl rfl fun k i r held known needed => ?_
  refine OrderedMap.lookup_keep_eq_some.mpr ⟨held, ?_⟩
  by_contra dropped
  rw [Bool.not_eq_true, Bool.not_eq_false'] at dropped
  have discarded : ⟨k, i⟩ ∈ s.discarded now .cleanup :=
    mem_filter.mpr ⟨OrderedMap.lookup_eq_some.mp held, dropped⟩
  have spared := harmless _ discarded r known
  rcases needed with pending | ⟨-, within⟩
  · exact spared.1 pending
  · exact absurd spared.2 (not_lt.mpr within)

theorem delete_guarded (free : s.Free key now) : (s.delete key).Guarded now := by
  refine guarded.shrink rfl rfl fun k i r held known needed => ?_
  refine OrderedMap.lookup_erase_eq_some.mpr ⟨?_, held⟩
  rintro rfl
  obtain ⟨r', same, named⟩ := s.held k i held
  rw [known] at same
  cases same
  rcases free i r known named with failed | ⟨completed, old⟩
  · rcases needed with pending | ⟨completed, -⟩
    · exact absurd (pending.symm.trans failed) (by decide)
    · exact absurd (completed.symm.trans failed) (by decide)
  · rcases needed with pending | ⟨-, within⟩
    · exact absurd (pending.symm.trans completed) (by decide)
    · exact absurd within (not_le.mpr old)

end

theorem getElem?_started {r : IdempotencyRecord ρ} {i : ℕ}
    (known : (s.markInFlight key requestHash now).records[i]? = some r) :
    s.records[i]? = some r ∨ i = s.records.length ∧ r.key = key ∧ r.status = .pending ∧ r.createdAt = now := by
  change (s.records ++ [_])[i]? = some r at known
  rw [getElem?_append] at known
  split at known
  · exact .inl known
  · right
    obtain ⟨last, same⟩ := List.getElem?_eq_some_iff.mp known
    have index : i - s.records.length = 0 := by simpa using last
    simp only [index, List.getElem_cons_zero] at same
    subst same
    exact ⟨by omega, rfl, rfl, rfl⟩

theorem markInFlight_guarded (guarded : s.Guarded now) (free : s.Free key now) :
    (s.markInFlight key requestHash now).Guarded now := by
  have other {k : String} {i : ℕ} (held : s.store.lookup k = some i) (different : k ≠ key) :
      (s.markInFlight key requestHash now).store.lookup k = some i :=
    OrderedMap.lookup_insert_eq_some.mpr (.inr ⟨different, held⟩)
  constructor
  · intro i r known pending
    rcases getElem?_started known with old | ⟨rfl, rfl, -⟩
    · refine other (guarded.flying i r old pending) fun same => ?_
      rcases free i r old same with failed | ⟨completed, -⟩
      · exact absurd (pending.symm.trans failed) (by decide)
      · exact absurd (pending.symm.trans completed) (by decide)
    · exact AList.lookup_insert _
  · intro i r known completed within
    rcases getElem?_started known with old | ⟨-, -, pending, -⟩
    · refine other (guarded.remembered i r old completed within) fun same => ?_
      rcases free i r old same with failed | ⟨-, out⟩
      · exact absurd (completed.symm.trans failed) (by decide)
      · exact absurd within (not_le.mpr out)
    · exact absurd (pending.symm.trans completed) (by decide)
  · rintro a b ⟨i, j, before, first, second, same⟩
    rcases getElem?_started second with old | ⟨rfl, rfl, -, created⟩
    · have bound := (List.getElem?_eq_some_iff.mp old).1
      rcases getElem?_started first with old' | ⟨rfl, -⟩
      · exact guarded.ended a b ⟨i, j, before, old', old, same⟩
      · omega
    · rcases getElem?_started first with old | ⟨rfl, -⟩
      · rw [created]
        exact free i a old same
      · omega

/-- What a call does: it throws, it answers from the map, or it starts an operation under a key that has no record or
    that of a failure. -/
theorem execute_cases (s : IdempotencyService ρ) (key requestHash : String) (now : ℤ) :
    (∃ error, (error = .keyCollision key ∨ error = .requestInFlight key) ∧
      s.execute key requestHash now = (.thrown error, s.enforceStorageLimit)) ∨
    (∃ existing, s.enforceStorageLimit.get key = some existing ∧ existing.requestHash = requestHash ∧
      existing.status = .completed ∧
      s.execute key requestHash now = (.cached existing.response, s.enforceStorageLimit)) ∨
    (∃ existing, s.enforceStorageLimit.get key = some existing ∧ existing.status = .failed ∧
      s.execute key requestHash now =
        (.started s.records.length, (s.enforceStorageLimit.delete key).markInFlight key requestHash now)) ∨
    s.enforceStorageLimit.get key = none ∧
      s.execute key requestHash now =
        (.started s.records.length, s.enforceStorageLimit.markInFlight key requestHash now) := by
  unfold execute
  cases found : s.enforceStorageLimit.get key with
  | none =>
    simp only [found]
    exact .inr (.inr (.inr ⟨trivial, rfl⟩))
  | some existing =>
    simp only [found]
    split
    · exact .inl ⟨_, .inl rfl, rfl⟩
    · rename_i same
      cases status : existing.status with
      | pending => exact .inl ⟨_, .inr rfl, rfl⟩
      | completed => exact .inr (.inl ⟨existing, rfl, not_not.mp same, status, rfl⟩)
      | failed => exact .inr (.inr (.inl ⟨existing, rfl, status, rfl⟩))

theorem Guarded.free (guarded : s.Guarded now)
    (absent : ∀ existing, s.get key = some existing → existing.status = .failed) : s.Free key now := by
  rintro i r known rfl
  have seen (held : s.store.lookup r.key = some i) : r.status = .failed :=
    absent r (Option.bind_eq_some_iff.mpr ⟨i, held, known⟩)
  cases status : r.status with
  | pending => exact .inl (status.symm.trans (seen (guarded.flying i r known status)))
  | completed =>
    by_cases within : now ≤ r.createdAt + s.windowMs
    · exact .inl (status.symm.trans (seen (guarded.remembered i r known status within)))
    · exact .inr ⟨rfl, not_le.mp within⟩
  | failed => exact .inl rfl

theorem execute_guarded (guarded : s.Guarded now) (harmless : s.Harmless now (.execute key requestHash)) :
    (s.execute key requestHash now).2.Guarded now := by
  have evicted := enforceStorageLimit_guarded guarded harmless
  rcases s.execute_cases key requestHash now with
    ⟨_, -, run⟩ | ⟨_, -, -, -, run⟩ | ⟨existing, found, failed, run⟩ | ⟨absent, run⟩
  · rw [run]
    exact evicted
  · rw [run]
    exact evicted
  · have free : s.enforceStorageLimit.Free key now := by
      refine evicted.free fun other same => ?_
      rw [found] at same
      cases same
      exact failed
    rw [run]
    exact markInFlight_guarded (delete_guarded evicted free) free
  · have free : s.enforceStorageLimit.Free key now := by
      refine evicted.free fun other same => ?_
      rw [absent] at same
      cases same
    rw [run]
    exact markInFlight_guarded evicted free

theorem getElem?_settled {records : List (IdempotencyRecord ρ)} {operation i : ℕ}
    {f : IdempotencyRecord ρ → IdempotencyRecord ρ} {r : IdempotencyRecord ρ}
    (known : (records.modify operation f)[i]? = some r) :
    (i ≠ operation ∧ records[i]? = some r) ∨
      i = operation ∧ ∃ before, records[operation]? = some before ∧ r = f before := by
  by_cases same : i = operation
  · subst same
    rw [getElem?_modify_eq] at known
    obtain ⟨before, found, rfl⟩ := Option.map_eq_some_iff.mp known
    exact .inr ⟨rfl, before, found, rfl⟩
  · rw [getElem?_modify_ne _ _ (Ne.symm same)] at known
    exact .inl ⟨same, known⟩

theorem repeated_delete {a b : IdempotencyRecord ρ} : (s.delete key).Repeated a b ↔ s.Repeated a b := Iff.rfl

theorem Guarded.over_settled (guarded : s.Guarded now) {operation : ℕ} {f : IdempotencyRecord ρ → IdempotencyRecord ρ}
    {named : ∀ r, (f r).key = r.key} (flying : s.InFlight operation) {a b : IdempotencyRecord ρ}
    (repeated : (s.settle operation f named).Repeated a b) (created : ∀ r, (f r).createdAt = r.createdAt) :
    a.status = .failed ∨ a.status = .completed ∧ a.createdAt + s.windowMs < b.createdAt := by
  obtain ⟨i, j, before, first, second, same⟩ := repeated
  have second_old : ∃ b₀, s.records[j]? = some b₀ ∧ b₀.key = b.key ∧ b₀.createdAt = b.createdAt := by
    rcases getElem?_settled second with ⟨-, old⟩ | ⟨rfl, b₀, old, rfl⟩
    · exact ⟨b, old, rfl, rfl⟩
    · exact ⟨b₀, old, (named b₀).symm, (created b₀).symm⟩
  obtain ⟨b₀, old, key, start⟩ := second_old
  rcases getElem?_settled first with ⟨-, old'⟩ | ⟨rfl, a₀, old', rfl⟩
  · rw [← start]
    exact guarded.ended a b₀ ⟨i, j, before, old', old, same.trans key.symm⟩
  · obtain ⟨r, found, pending⟩ := flying
    rw [old'] at found
    cases found
    have ended := guarded.ended a₀ b₀ ⟨i, j, before, old', old, by rw [key, ← same, named]⟩
    rw [pending] at ended
    rcases ended with failed | ⟨completed, -⟩
    · cases failed
    · cases completed

theorem succeed_guarded (guarded : s.Guarded now) {operation : ℕ} (flying : s.InFlight operation) (response : ρ) :
    (s.succeed now operation response).Guarded now := by
  constructor
  · intro i r known pending
    rcases getElem?_settled known with ⟨-, old⟩ | ⟨rfl, _, -, rfl⟩
    · exact guarded.flying i r old pending
    · cases pending
  · intro i r known completed within
    rcases getElem?_settled known with ⟨-, old⟩ | ⟨rfl, before, old, rfl⟩
    · exact guarded.remembered i r old completed within
    · obtain ⟨r, found, pending⟩ := flying
      rw [old] at found
      cases found
      exact guarded.flying i before old pending
  · intro a b repeated
    exact guarded.over_settled flying repeated fun _ => rfl

theorem fail_guarded (guarded : s.Guarded now) {operation : ℕ} (flying : s.InFlight operation) :
    (s.fail operation).Guarded now := by
  obtain ⟨record, found, pending⟩ := flying
  have own := guarded.flying operation record found pending
  unfold fail
  simp only [found]
  have other {i : ℕ} {r : IdempotencyRecord ρ} (held : s.store.lookup r.key = some i) (different : i ≠ operation) :
      (s.store.erase record.key).lookup r.key = some i := by
    refine OrderedMap.lookup_erase_eq_some.mpr ⟨fun same => different ?_, held⟩
    rw [same, own] at held
    exact (Option.some.inj held).symm
  constructor
  · intro i r known flying
    rcases getElem?_settled known with ⟨different, old⟩ | ⟨rfl, _, -, rfl⟩
    · exact other (guarded.flying i r old flying) different
    · cases flying
  · intro i r known completed within
    rcases getElem?_settled known with ⟨different, old⟩ | ⟨rfl, _, -, rfl⟩
    · exact other (guarded.remembered i r old completed within) different
    · cases completed
  · intro a b repeated
    exact guarded.over_settled ⟨record, found, pending⟩ (repeated_delete.mp repeated) fun _ => rfl

theorem step_guarded (guarded : s.Guarded now) {event : Event ρ} (possible : s.Possible event)
    (harmless : s.Harmless now event) : (s.step now event).Guarded now := by
  cases event with
  | execute key requestHash => exact execute_guarded guarded harmless
  | succeed operation response => exact succeed_guarded guarded possible response
  | fail operation => exact fail_guarded guarded possible
  | cleanup => exact cleanup_guarded guarded harmless

theorem new_guarded (windowMs now : ℤ) : (new windowMs : IdempotencyService ρ).Guarded now := by
  constructor
  · intro i r known
    cases known
  · intro i r known
    cases known
  · rintro a b ⟨i, j, -, known, -⟩
    cases known

end IdempotencyService

open IdempotencyService

/-- In a run that discards only records that are settled and older than the window, no two operations of one key are in
    flight together, and no two that start within the window both succeed. -/
theorem serves_at_most_once {windowMs start : ℤ} {w : Served ρ}
    (run : Serves Harmless ⟨start, new windowMs⟩ w) : w.service.AtMostOnce := by
  suffices guarded : w.service.Guarded w.clock from guarded.atMostOnce
  induction run with
  | refl => exact new_guarded windowMs start
  | tail _ step ih =>
    obtain ⟨now, event, later, possible, harmless, rfl⟩ := step
    exact step_guarded (ih.later later) possible harmless

section Sample

def charge : Event ℕ := .execute "order-1" "c0ffee"

def failedOnce : IdempotencyService ℕ := ((new 10).step 0 charge).step 1 (.fail 0)

def retried : IdempotencyService ℕ := (failedOnce.step 2 charge).step 3 (.succeed 1 7)

theorem serves_at_most_once_retried : (retried.step 20 .cleanup).AtMostOnce := by
  have failing : Serves Harmless ⟨0, (new 10 : IdempotencyService ℕ)⟩ ⟨1, failedOnce⟩ :=
    .tail (.tail .refl ⟨0, charge, by decide, trivial, by decide +kernel, rfl⟩)
      ⟨1, .fail 0, by decide, ⟨_, rfl, rfl⟩, nofun, rfl⟩
  have retrying : Serves Harmless ⟨1, failedOnce⟩ ⟨3, retried⟩ :=
    .tail (.tail .refl ⟨2, charge, by decide, trivial, by decide +kernel, rfl⟩)
      ⟨3, .succeed 1 7, by decide, ⟨_, rfl, rfl⟩, nofun, rfl⟩
  exact serves_at_most_once (.tail (failing.trans retrying) ⟨20, .cleanup, by decide, trivial, by decide +kernel, rfl⟩)

def anyEvent : IdempotencyService ℕ → ℤ → Event ℕ → Prop := fun _ _ _ => True

theorem Serves.next {w w' : Served ℕ} (before : Serves anyEvent w w') (now : ℤ) (event : Event ℕ) (later : w'.clock ≤ now)
    (possible : w'.service.Possible event) : Serves anyEvent w ⟨now, w'.service.step now event⟩ :=
  .tail before ⟨now, event, later, possible, trivial, rfl⟩

def forgotten : IdempotencyService ℕ := (((new 10).step 0 charge).step 11 .cleanup).step 12 charge

def chargedTwice : IdempotencyService ℕ :=
  (((forgotten.step 13 (.fail 0)).step 14 charge).step 15 (.succeed 1 7)).step 16 (.succeed 2 7)

theorem not_at_most_once : Serves anyEvent ⟨0, new 10⟩ ⟨12, forgotten⟩ ∧ ¬forgotten.AtMostOnce ∧
      Serves anyEvent ⟨12, forgotten⟩ ⟨16, chargedTwice⟩ ∧ ¬chargedTwice.AtMostOnce := by
  refine ⟨?_, ?_, ?_, ?_⟩
  · have called : Serves anyEvent ⟨0, new 10⟩ ⟨0, _⟩ := .next .refl 0 charge (by decide) trivial
    have cleaned := called.next 11 .cleanup (by decide) trivial
    exact cleaned.next 12 charge (by decide) trivial
  · intro both
    exact both.apart _ _ ⟨0, 1, by decide, rfl, rfl, rfl⟩ ⟨rfl, rfl⟩
  · have failed : Serves anyEvent ⟨12, forgotten⟩ ⟨13, _⟩ := .next .refl 13 (.fail 0) (by decide) ⟨_, rfl, rfl⟩
    have called := failed.next 14 charge (by decide) trivial
    have second := called.next 15 (.succeed 1 7) (by decide) ⟨_, rfl, rfl⟩
    exact second.next 16 (.succeed 2 7) (by decide) ⟨_, rfl, rfl⟩
  · intro both
    exact both.once _ _ ⟨1, 2, by decide, rfl, rfl, rfl⟩ (by decide) ⟨rfl, rfl⟩

end Sample

end SubTrackr.Idempotency

import Mathlib.Data.Rat.Floor
import SubTrackr.Lib.Runs
import SubTrackr.Lib.Store

namespace SubTrackr.Lockout

open List Lib

structure LockoutTier where
  (threshold lockoutMinutes : ℚ)

structure LockoutStatus where
  locked : Bool
  remainingMs : ℚ
  failedAttempts : ℕ
deriving DecidableEq

structure LockoutConfig where
  tiers : List LockoutTier
  retentionMs : ℚ

def DEFAULT_CONFIG : LockoutConfig := ⟨[⟨3, 5⟩, ⟨6, 15⟩, ⟨9, 60⟩], 24 * 60 * 60 * 1000⟩

structure AccountLockoutData where
  failedAttempts : ℕ
  lockoutUntil : ℚ
  lastUpdated : ℕ

def LockoutConfig.new (tiers : Option (List LockoutTier)) (retentionMs : Option ℚ) : LockoutConfig :=
  ⟨(tiers.getD DEFAULT_CONFIG.tiers).insertionSort fun a b => b.threshold ≤ a.threshold,
    retentionMs.getD DEFAULT_CONFIG.retentionMs⟩

namespace LockoutConfig

variable (config : LockoutConfig) (store : Store String AccountLockoutData) (identifier : String) (now : ℕ)

def outlived (data : AccountLockoutData) : Bool := config.retentionMs < now - data.lastUpdated

def cleanup : Store String AccountLockoutData := fun key => (store key).filter fun data => !config.outlived now data

def getValidData : AccountLockoutData × Store String AccountLockoutData :=
  match store identifier with
  | none => (⟨0, 0, now⟩, store)
  | some data => if config.outlived now data then (⟨0, 0, now⟩, remove store identifier) else (data, store)

def checkLockout : LockoutStatus × Store String AccountLockoutData :=
  let (data, store) := config.getValidData store identifier now
  if now < data.lockoutUntil then (⟨true, data.lockoutUntil - now, data.failedAttempts⟩, store)
  else (⟨false, 0, data.failedAttempts⟩, store)

def applyLockoutMinutes (failedAttempts : ℕ) : ℚ :=
  ((config.tiers.find? fun tier => tier.threshold ≤ (failedAttempts : ℚ)).map (·.lockoutMinutes)).getD 0

def addFailure (data : AccountLockoutData) : LockoutStatus × AccountLockoutData :=
  let failedAttempts := data.failedAttempts + 1
  let minutes := config.applyLockoutMinutes failedAttempts
  (⟨0 < minutes, if 0 < minutes then minutes * 60 * 1000 else 0, failedAttempts⟩,
    ⟨failedAttempts, if 0 < minutes then now + minutes * 60 * 1000 else data.lockoutUntil, now⟩)

/-- `cleans` says whether `Math.random()` is below 0.01. -/
def recordFailure (cleans : Bool) : LockoutStatus × Store String AccountLockoutData :=
  let store := if cleans then config.cleanup store now else store
  let (data, store) := config.getValidData store identifier now
  if now < data.lockoutUntil then (⟨true, data.lockoutUntil - now, data.failedAttempts⟩, store)
  else
    let (status, data) := config.addFailure now data
    (status, put store identifier data)

end LockoutConfig

inductive Call
  | recordFailure (cleans : Bool)
  | checkLockout

structure World where
  store : Store String AccountLockoutData
  clock : ℕ

def World.step (config : LockoutConfig) (w : World) : ℕ × String × Call → Option World
  | (now, identifier, call) =>
    if w.clock ≤ now then
      some ⟨match call with
        | .recordFailure cleans => (config.recordFailure w.store identifier now cleans).2
        | .checkLockout => (config.checkLockout w.store identifier now).2, now⟩
    else none

/-- A failure that locks an identifier does so for no longer than its record is retained. -/
def Careful (config : LockoutConfig) (w : World) : ℕ × String × Call → Prop
  | (now, identifier, .recordFailure _) =>
    let data := (config.getValidData w.store identifier now).1
    let minutes := config.applyLockoutMinutes (data.failedAttempts + 1)
    data.lockoutUntil ≤ now → 0 < minutes → ⌈minutes * 60 * 1000⌉ ≤ config.retentionMs + 1
  | _ => True

variable {config : LockoutConfig} {store store' : Store String AccountLockoutData} {now : ℕ} {id : String}
  {data : AccountLockoutData} {w w' : World}

/-- Only records that have outlived their retention may be gone. -/
def Forgets (config : LockoutConfig) (now : ℕ) (store store' : Store String AccountLockoutData) : Prop :=
  ∀ id, store' id = store id ∨ store' id = (store id).filter fun data => !config.outlived now data

theorem Forgets.mem (forgets : Forgets config now store store') (held : store' id = some data) : store id = some data := by
  rcases forgets id with same | young
  · exact same.symm.trans held
  · exact (Option.filter_eq_some_iff.mp (young.symm.trans held)).1

theorem Forgets.kept (forgets : Forgets config now store store') (held : store id = some data)
    (young : config.outlived now data = false) : store' id = some data := by
  rcases forgets id with same | filtered
  · exact same.trans held
  · simp [filtered, held, young, Option.filter_some]

theorem getValidData_eq : config.getValidData store id now = (((store id).filter fun data => !config.outlived now data).getD
    ⟨0, 0, now⟩, if (store id).any (config.outlived now) then remove store id else store) := by
  unfold LockoutConfig.getValidData
  cases store id with
  | none => rfl
  | some data => cases old : config.outlived now data <;> simp [old, Option.filter_some]

theorem forgets_getValidData : Forgets config now store (config.getValidData store id now).2 := by
  intro other
  rw [getValidData_eq]
  split
  · rename_i old
    by_cases here : other = id
    · subst here
      obtain ⟨data, held, old⟩ := (Option.any_eq_true ..).mp old
      exact .inr (by simp [held, old, Option.filter_some])
    · exact .inl (remove_of_ne _ here)
  · exact .inl rfl

theorem getValidData_held (held : store id = some data) (young : config.outlived now data = false) :
    (config.getValidData store id now).1 = data := by
  simp [getValidData_eq, held, young, Option.filter_some]

theorem held_of_locked (locked : now < (config.getValidData store id now).1.lockoutUntil) :
    store id = some (config.getValidData store id now).1 ∧ config.outlived now (config.getValidData store id now).1 = false := by
  rw [getValidData_eq] at locked ⊢
  cases kept : (store id).filter fun data => !config.outlived now data with
  | none =>
    rw [kept] at locked
    exact absurd locked (not_lt.mpr now.cast_nonneg)
  | some data =>
    obtain ⟨held, young⟩ := Option.filter_eq_some_iff.mp kept
    exact ⟨held, by simpa using young⟩

theorem checkLockout_snd : (config.checkLockout store id now).2 = (config.getValidData store id now).2 := by
  simp only [LockoutConfig.checkLockout]
  split <;> rfl

theorem recordFailure_cases (config : LockoutConfig) (store : Store String AccountLockoutData) (id : String) (now : ℕ)
    (cleans : Bool) : ∃ store' data, Forgets config now store store' ∧ data = (config.getValidData store id now).1 ∧
      (now < data.lockoutUntil ∧
        config.recordFailure store id now cleans = (⟨true, data.lockoutUntil - now, data.failedAttempts⟩, store') ∨
      data.lockoutUntil ≤ now ∧ config.recordFailure store id now cleans =
        ((config.addFailure now data).1, put store' id (config.addFailure now data).2)) := by
  obtain ⟨cleaned, same, known⟩ : ∃ cleaned, (if cleans then config.cleanup store now else store) = cleaned ∧
      (cleaned = store ∨ cleaned = config.cleanup store now) := by
    cases cleans with
    | true => exact ⟨_, rfl, .inr rfl⟩
    | false => exact ⟨_, rfl, .inl rfl⟩
  refine ⟨(config.getValidData cleaned id now).2, _, fun other => ?_, rfl, ?_⟩
  · have cleaned := @forgets_getValidData config cleaned now id other
    rcases known with rfl | rfl
    · exact cleaned
    · refine .inr (cleaned.elim (fun same => same) fun same => same.trans ?_)
      simp [LockoutConfig.cleanup, Option.filter_filter]
  · have data : (config.getValidData cleaned id now).1 = (config.getValidData store id now).1 := by
      rcases known with rfl | rfl
      · rfl
      · simp [getValidData_eq, LockoutConfig.cleanup, Option.filter_filter]
    simp only [LockoutConfig.recordFailure, same, data]
    by_cases locked : now < (config.getValidData store id now).1.lockoutUntil
    · exact .inl ⟨locked, if_pos locked⟩
    · exact .inr ⟨not_lt.mp locked, if_neg locked⟩

def Retained (config : LockoutConfig) (data : AccountLockoutData) : Prop :=
  ∀ now : ℕ, data.lastUpdated ≤ now → now < data.lockoutUntil → config.outlived now data = false

def Sound (config : LockoutConfig) (w : World) : Prop :=
  ∀ id data, w.store id = some data → data.lastUpdated ≤ w.clock ∧ Retained config data

theorem Sound.forgets (sound : Sound config w) (forgets : Forgets config now w.store store') (later : w.clock ≤ now) :
    Sound config ⟨store', now⟩ := by
  intro id data held
  obtain ⟨past, retained⟩ := sound id data (forgets.mem held)
  exact ⟨past.trans later, retained⟩

theorem Sound.recordFailure (sound : Sound config w) {cleans : Bool} (later : w.clock ≤ now)
    (careful : Careful config w (now, id, .recordFailure cleans)) :
    Sound config ⟨(config.recordFailure w.store id now cleans).2, now⟩ := by
  obtain ⟨store', data, forgets, rfl, ⟨_, same⟩ | ⟨ended, same⟩⟩ := recordFailure_cases config w.store id now cleans
  all_goals rw [same]
  · exact sound.forgets forgets later
  · refine forall_put ⟨le_refl now, fun t begun locked => decide_eq_false (not_lt.mpr ?_)⟩ (sound.forgets forgets later)
    simp only [LockoutConfig.addFailure] at locked
    split at locked
    · rename_i pos
      have fits := careful ended pos
      generalize config.applyLockoutMinutes _ = minutes at locked fits
      -- `t` is in the last whole millisecond of the lock at most
      have last : (t : ℤ) - now ≤ ⌈minutes * 60 * 1000⌉ - 1 :=
        Int.le_sub_one_of_lt (Int.lt_ceil.mpr (by push_cast; exact sub_lt_iff_lt_add'.mpr locked))
      have last : (t : ℚ) - now ≤ ⌈minutes * 60 * 1000⌉ - 1 := by exact_mod_cast last
      show (t : ℚ) - now ≤ _
      linarith
    · exact absurd (locked.trans_le ended) (not_lt.mpr (Nat.cast_le.mpr begun))

theorem Sound.step {timed : ℕ × String × Call} (sound : Sound config w) (careful : Careful config w timed)
    (stepped : w.step config timed = some w') : Sound config w' := by
  obtain ⟨now, id, call⟩ := timed
  obtain ⟨later, same⟩ := Option.ite_none_right_eq_some.mp stepped
  cases same
  cases call with
  | recordFailure cleans => exact sound.recordFailure later careful
  | checkLockout =>
    simp only [checkLockout_snd]
    exact sound.forgets forgets_getValidData later

def Held (id : String) (data : AccountLockoutData) (w : World) : Prop :=
  data.lastUpdated ≤ w.clock ∧ (w.clock < data.lockoutUntil → w.store id = some data)

theorem Held.young (held : Held id data w) (retained : Retained config data) (later : w.clock ≤ now)
    (locked : now < data.lockoutUntil) : w.store id = some data ∧ config.outlived now data = false :=
  ⟨held.2 (lt_of_le_of_lt (Nat.cast_le.mpr later) locked), retained now (held.1.trans later) locked⟩

theorem Held.step {timed : ℕ × String × Call} (held : Held id data w) (retained : Retained config data)
    (stepped : w.step config timed = some w') : Held id data w' := by
  obtain ⟨now, other, call⟩ := timed
  obtain ⟨later, same⟩ := Option.ite_none_right_eq_some.mp stepped
  cases same
  refine ⟨held.1.trans later, fun locked => ?_⟩
  obtain ⟨stored, young⟩ := held.young retained later locked
  cases call with
  | recordFailure cleans =>
    obtain ⟨store', _, forgets, rfl, ⟨_, same⟩ | ⟨ended, same⟩⟩ := recordFailure_cases config w.store other now cleans
    all_goals simp only [same]
    · exact forgets.kept stored young
    · by_cases here : id = other
      · subst here
        rw [getValidData_held stored young] at ended
        exact absurd locked (not_lt.mpr ended)
      · exact (put_of_ne _ _ here).trans (forgets.kept stored young)
  | checkLockout =>
    simp only [checkLockout_snd]
    exact forgets_getValidData.kept stored young

/-- A reported lock is in force until the time that was reported, whatever is called meanwhile, and failures that are
    recorded under it change nothing. -/
theorem lockouts_honoured (run : Runs (World.step config) (Careful config) ⟨fun _ => none, 0⟩ w)
    {t t' n : ℕ} {cleans : Bool} {r : ℚ} (later : w.clock ≤ t) (careful : Careful config w (t, id, .recordFailure cleans))
    (locks : (config.recordFailure w.store id t cleans).1 = ⟨true, r, n⟩)
    (onward : Runs (World.step config) anyAction ⟨(config.recordFailure w.store id t cleans).2, t⟩ w')
    (later' : w'.clock ≤ t') (within : t' < t + r) : (config.checkLockout w'.store id t').1 = ⟨true, t + r - t', n⟩ ∧
      ∀ cleans, (config.recordFailure w'.store id t' cleans).1 = ⟨true, t + r - t', n⟩ ∧
        (config.recordFailure w'.store id t' cleans).2 id = w'.store id := by
  have sound := (run.keeps (Sound config) nofun fun _ _ _ sound careful stepped => sound.step careful stepped).recordFailure
    later careful
  obtain ⟨data, stored, rfl, ends⟩ : ∃ data, (config.recordFailure w.store id t cleans).2 id = some data ∧
      data.failedAttempts = n ∧ data.lockoutUntil = t + r := by
    obtain ⟨store', data, forgets, rfl, ⟨locked, same⟩ | ⟨_, same⟩⟩ := recordFailure_cases config w.store id t cleans
    all_goals rw [same] at locks ⊢
    · cases locks
      obtain ⟨stored, young⟩ := held_of_locked locked
      exact ⟨_, forgets.kept stored young, rfl, (add_sub_cancel _ _).symm⟩
    · obtain ⟨locked, rfl, rfl⟩ := LockoutStatus.mk.inj locks
      have pos := of_decide_eq_true locked
      exact ⟨_, put_self .., rfl, (if_pos pos).trans (congrArg _ (if_pos pos).symm)⟩
  obtain ⟨begun, retained⟩ := sound id data stored
  have held := onward.keeps (Held id data) ⟨begun, fun _ => stored⟩ fun _ _ _ held _ stepped => held.step retained stepped
  rw [← ends] at within ⊢
  obtain ⟨stored, young⟩ := held.young retained later' within
  have found := getValidData_held stored young
  refine ⟨?_, fun cleans => ?_⟩
  · simp only [LockoutConfig.checkLockout, found, if_pos within]
  · obtain ⟨store', _, forgets, rfl, ⟨_, same⟩ | ⟨ended, _⟩⟩ := recordFailure_cases config w'.store id t' cleans
    · rw [same, found]
      exact ⟨rfl, (forgets.kept stored young).trans stored.symm⟩
    · rw [found] at ended
      exact absurd within (not_lt.mpr ended)

def strict (retentionMs : ℚ) : LockoutConfig := .new (some [⟨1, 1⟩]) (some retentionMs)

theorem lockouts_honoured_strict :
    ((strict 60000).checkLockout ((strict 60000).recordFailure (fun _ => none) "user" 5 false).2 "user" 30).1 =
      ⟨true, (5 : ℕ) + 60000 - (30 : ℕ), 1⟩ := by
  have locks : ((strict 60000).recordFailure (fun _ => none) "user" 5 false).1 = ⟨true, 60000, 1⟩ := by decide +kernel
  exact (lockouts_honoured (w := ⟨fun _ => none, 0⟩) (.refl _) (Nat.zero_le 5) (fun _ _ => by decide +kernel) locks
    (.refl _) (by decide) (by decide +kernel)).1

/-- The lock lasts for a minute, and the record for a second. -/
theorem not_lockouts_honoured : ¬∀ (config : LockoutConfig) (w w' : World) (id : String) (t t' n : ℕ) (cleans : Bool)
    (r : ℚ),
    Runs (World.step config) anyAction ⟨fun _ => none, 0⟩ w → w.clock ≤ t →
    (config.recordFailure w.store id t cleans).1 = ⟨true, r, n⟩ →
    Runs (World.step config) anyAction ⟨(config.recordFailure w.store id t cleans).2, t⟩ w' → w'.clock ≤ t' →
    t' < t + r → (config.checkLockout w'.store id t').1 = ⟨true, t + r - t', n⟩ := by
  intro claimed
  have still := claimed (strict 1000) _ _ "user" 0 2000 1 false 60000 (.refl _) le_rfl
    (by decide +kernel) (.refl _) (by decide) (by decide +kernel)
  exact absurd (congrArg LockoutStatus.locked still) (by decide +kernel)

end SubTrackr.Lockout

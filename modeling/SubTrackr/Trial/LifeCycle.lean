import SubTrackr.Lib.Histories
import SubTrackr.Lib.Text
import SubTrackr.Trial.TrialManagementService

namespace SubTrackr.Trial

open List Lib

namespace Date

def UpTo (a b : Date) : Prop := ∀ y ∈ b, ∃ x ∈ a, x ≤ y

variable {a b c : Date} {days : ℚ}

theorem UpTo.refl (a : Date) : a.UpTo a := fun y found => ⟨y, found, le_rfl⟩

theorem UpTo.trans (first : a.UpTo b) (second : b.UpTo c) : a.UpTo c := by
  intro z found
  obtain ⟨y, middle, later⟩ := second z found
  obtain ⟨x, start, earlier⟩ := first y middle
  exact ⟨x, start, earlier.trans later⟩

theorem UpTo.not_before (upTo : a.UpTo b) : ¬ b.Before a := by
  rintro ⟨y, found, x, start, less⟩
  obtain ⟨x', start', le⟩ := upTo y found
  obtain rfl := Option.mem_unique start start'
  omega

theorem upTo_addDays (nonneg : 0 ≤ days) : a.UpTo (a.addDays days) := by
  intro y found
  obtain ⟨x, start, added⟩ := Option.bind_eq_some_iff.mp found
  refine ⟨x, start, ?_⟩
  have more : (x : ℚ) ≤ x + days * 86400000 := by linarith
  unfold newDate at added
  split at added
  · cases added
    split
    · exact Int.le_floor.mpr more
    · exact Int.cast_le.mp (more.trans (Int.le_ceil _))
  · cases added

end Date

namespace TrialSubscriptionRecord

def IsOpen (r : TrialSubscriptionRecord) : Prop := r.status = .active ∨ r.status = .extended

instance (r : TrialSubscriptionRecord) : Decidable r.IsOpen := inferInstanceAs (Decidable (_ ∨ _))

structure Lasts (r r' : TrialSubscriptionRecord) : Prop where
  ended : ¬ r.IsOpen → ¬ r'.IsOpen ∧ r'.extensionCount = r.extensionCount ∧ r'.endDate = r.endDate ∧
    r'.gracePeriodEndDate = r.gracePeriodEndDate
  converted : r.status = .converted → r'.status = .converted ∧ r'.convertedAt = r.convertedAt ∧
    r'.conversionTrigger = r.conversionTrigger ∧ r'.conversionDiscountBps = r.conversionDiscountBps
  cancelled : r.status = .cancelled → r'.status = .cancelled
  forward : r.endDate.UpTo r'.endDate

def Within (r : TrialSubscriptionRecord) : Prop :=
  ∃ allowed, r.metadata.bind (·.maxExtensionsAllowed) = some allowed ∧ r.extensionCount ≤ allowed

variable {r r' r'' : TrialSubscriptionRecord}

theorem Lasts.refl (r : TrialSubscriptionRecord) : r.Lasts r :=
  ⟨fun ended => ⟨ended, rfl, rfl, rfl⟩, fun converted => ⟨converted, rfl, rfl, rfl⟩, fun cancelled => cancelled, .refl _⟩

theorem Lasts.trans (first : r.Lasts r') (second : r'.Lasts r'') : r.Lasts r'' where
  ended before := by
    obtain ⟨closed, count, ends, grace⟩ := first.ended before
    obtain ⟨closed', count', ends', grace'⟩ := second.ended closed
    exact ⟨closed', count'.trans count, ends'.trans ends, grace'.trans grace⟩
  converted before := by
    obtain ⟨status, time, trigger, discount⟩ := first.converted before
    obtain ⟨status', time', trigger', discount'⟩ := second.converted status
    exact ⟨status', time'.trans time, trigger'.trans trigger, discount'.trans discount⟩
  cancelled before := second.cancelled (first.cancelled before)
  forward := first.forward.trans second.forward

end TrialSubscriptionRecord

open TrialSubscriptionRecord

def TrialPolicy.Nonneg (policy : TrialPolicy) : Prop :=
  0 ≤ policy.durationDays ∧ 0 ≤ policy.gracePeriodDays ∧ 0 ≤ policy.earlyConversionDiscountBps ∧
    0 ≤ policy.maxExtensionsAllowed ∧ 0 ≤ policy.extensionBonusDays ∧ 0 ≤ policy.incentiveThresholdScore

instance (policy : TrialPolicy) : Decidable policy.Nonneg := inferInstanceAs (Decidable (_ ∧ _))

namespace World

/-- Policies are not negative, a user starts one trial at a time, and a trial is extended by positive numbers of days. -/
def Given (w : World) : ℤ × Call → Prop
  | (_, .registerPolicy policy) => policy.Nonneg
  | (now, .startTrial userId ..) => ∀ id r, w.service.trials.get id = some r → r.userId = userId → r.startDate ≠ some now
  | (_, .extendTrial _ additionalDays _) => ∀ days ∈ additionalDays, 0 < days
  | _ => True

/-- Nothing that was converted is cancelled, no trial starts with a negative grace period or maximum of extensions, and none is
    extended that has less than a whole extension left. -/
def Careful (w : World) : ℤ × Call → Prop
  | (_, .startTrial _ planId _ overrides _) =>
    0 ≤ ((w.service.getPolicy planId).override overrides).gracePeriodDays ∧
      0 ≤ ((w.service.getPolicy planId).override overrides).maxExtensionsAllowed
  | (_, .extendTrial trialId _ _) => ∀ r, w.service.trials.get trialId = some r → r.IsOpen →
      (r.extensionCount : ℚ) < w.service.maxExt r → (r.extensionCount : ℚ) + 1 ≤ w.service.maxExt r
  | (_, .cancelTrial trialId _) => ∀ r, w.service.trials.get trialId = some r → r.status ≠ .converted
  | _ => True

structure LifeCycle (w w' : World) : Prop where
  lasts : ∀ id r, w.service.trials.get id = some r → ∃ r', w'.service.trials.get id = some r' ∧ r.Lasts r'
  within : ∀ id r, w'.service.trials.get id = some r → r.Within
  grace : ∀ id r, w'.service.trials.get id = some r → ¬ r.gracePeriodEndDate.Before r.endDate
  once : w'.reported.Nodup

structure Sound (w : World) : Prop where
  named : ∀ id r, w.service.trials.get id = some r → r.id = id ∧ ∃ now, r.startDate = some now ∧ id = trialIdOf r.userId now
  policies : ∀ planId policy, w.service.policies.get planId = some policy → policy.Nonneg
  within : ∀ id r, w.service.trials.get id = some r → r.Within
  grace : ∀ id r, w.service.trials.get id = some r → r.endDate.UpTo r.gracePeriodEndDate
  once : w.reported.Nodup
  reported : ∀ id ∈ w.reported, ∃ r, w.service.trials.get id = some r ∧ ¬ r.IsOpen

variable {w w' : World} {call : ℤ × Call} {id : String} {r r' : TrialSubscriptionRecord}

theorem trialIdOf_inj {userId userId' : String} {now now' : ℤ} (same : trialIdOf userId now = trialIdOf userId' now') :
    userId = userId' ∧ now = now' := by
  have plain (t : ℤ) : '_' ∉ Numeral.signedDigits t := by
    have digits (n : ℕ) : '_' ∉ Numeral.digits n := fun mark => absurd (Numeral.digits_numeric mark) (by decide)
    cases t with
    | ofNat n => exact digits n
    | negSucc n =>
      rw [Numeral.signedDigits, mem_cons]
      rintro (minus | mark)
      · cases minus
      · exact digits _ mark
  obtain ⟨user, time⟩ := Text.append_mark_inj (plain now) (plain now') (String.ofList_injective same)
  exact ⟨String.toList_injective (append_cancel_left user), Numeral.ofInt_injective (by simpa [Numeral.ofInt] using time)⟩

def Kept (w w' : World) : Prop :=
  Sound w' ∧ ∀ id r, w.service.trials.get id = some r → ∃ r', w'.service.trials.get id = some r' ∧ r.Lasts r'

section

variable (sound : Sound w)

include sound

theorem Sound.kept : Kept w w := ⟨sound, fun _ r found => ⟨r, found, .refl r⟩⟩

theorem Sound.change (found : w.service.trials.get id = some r)
    (own : r'.id = r.id ∧ r'.userId = r.userId ∧ r'.startDate = r.startDate) (lasts : r.Lasts r') (within : r'.Within)
    (grace : r'.endDate.UpTo r'.gracePeriodEndDate) : Kept w { w with service := w.service.save r' } := by
  obtain ⟨named, start⟩ := sound.named id r found
  have here : r'.id = id := own.1.trans named
  have known {j : String} {x : TrialSubscriptionRecord} (saved : (w.service.save r').trials.get j = some x) :
      j = id ∧ r' = x ∨ j ≠ id ∧ w.service.trials.get j = some x := by
    rw [TrialManagementService.save, InsertionMap.get_set_eq_some, here] at saved
    exact saved
  have stays {j : String} {x : TrialSubscriptionRecord} (held : w.service.trials.get j = some x) :
      ∃ x', (w.service.save r').trials.get j = some x' ∧ x.Lasts x' := by
    by_cases same : j = id
    · subst same
      rw [found] at held
      cases held
      exact ⟨r', InsertionMap.get_set_eq_some.mpr (.inl ⟨here.symm, rfl⟩), lasts⟩
    · exact ⟨x, InsertionMap.get_set_eq_some.mpr (.inr ⟨here ▸ same, held⟩), .refl x⟩
  refine ⟨⟨fun j x saved => ?_, sound.policies, fun j x saved => ?_, fun j x saved => ?_, sound.once, fun j mem => ?_⟩,
    fun _ _ => stays⟩
  · obtain ⟨rfl, rfl⟩ | ⟨-, held⟩ := known saved
    · rw [own.2.1, own.2.2]
      exact ⟨here, start⟩
    · exact sound.named j x held
  · obtain ⟨rfl, rfl⟩ | ⟨-, held⟩ := known saved
    · exact within
    · exact sound.within j x held
  · obtain ⟨rfl, rfl⟩ | ⟨-, held⟩ := known saved
    · exact grace
    · exact sound.grace j x held
  · obtain ⟨x, held, closed⟩ := sound.reported j mem
    obtain ⟨x', saved, kept⟩ := stays held
    exact ⟨x', saved, (kept.ended closed).1⟩

theorem Sound.getPolicy (planId : String) : (w.service.getPolicy planId).Nonneg := by
  unfold TrialManagementService.getPolicy
  cases found : w.service.policies.get planId with
  | none => exact (by decide : DEFAULT_TRIAL_POLICY.Nonneg)
  | some policy => exact sound.policies planId policy found

theorem kept_registerPolicy {policy : TrialPolicy} (nonneg : policy.Nonneg) :
    Kept w { w with service := w.service.registerPolicy policy } := by
  refine ⟨⟨sound.named, fun planId other found => ?_, sound.within, sound.grace, sound.once, sound.reported⟩,
    sound.kept.2⟩
  obtain ⟨-, rfl⟩ | ⟨-, held⟩ := InsertionMap.get_set_eq_some.mp found
  · exact nonneg
  · exact sound.policies planId other held

theorem kept_startTrial {now : ℤ} {userId planId : String} {planPriceUsd : ℚ}
    {overrides : PartialTrialPolicy} {metadata : Option TrialMetadata}
    (given : w.Given (now, .startTrial userId planId planPriceUsd overrides metadata))
    (careful : w.Careful (now, .startTrial userId planId planPriceUsd overrides metadata)) :
    Kept w { w with service := w.service.startTrial now userId planId planPriceUsd overrides metadata } := by
  have fresh {j : String} {x : TrialSubscriptionRecord} (held : w.service.trials.get j = some x) : j ≠ trialIdOf userId now := by
    rintro rfl
    obtain ⟨-, start, date, text⟩ := sound.named _ x held
    obtain ⟨user, time⟩ := trialIdOf_inj text
    exact given _ x held user.symm (time ▸ date)
  have known {j : String} {x : TrialSubscriptionRecord}
      (saved : (w.service.startTrial now userId planId planPriceUsd overrides metadata).trials.get j = some x) :=
    InsertionMap.get_set_eq_some.mp saved
  have stays {j : String} {x : TrialSubscriptionRecord} (held : w.service.trials.get j = some x) :
      (w.service.startTrial now userId planId planPriceUsd overrides metadata).trials.get j = some x :=
    InsertionMap.get_set_eq_some.mpr (.inr ⟨fresh held, held⟩)
  refine ⟨⟨fun j x saved => ?_, sound.policies, fun j x saved => ?_, fun j x saved => ?_, sound.once, fun j mem => ?_⟩,
    fun j x held => ⟨x, stays held, .refl x⟩⟩
  · obtain ⟨rfl, rfl⟩ | ⟨-, held⟩ := known saved
    · exact ⟨rfl, now, rfl, rfl⟩
    · exact sound.named j x held
  · obtain ⟨rfl, rfl⟩ | ⟨-, held⟩ := known saved
    · exact ⟨_, rfl, by exact_mod_cast careful.2⟩
    · exact sound.within j x held
  · obtain ⟨rfl, rfl⟩ | ⟨-, held⟩ := known saved
    · exact Date.upTo_addDays careful.1
    · exact sound.grace j x held
  · obtain ⟨x, held, closed⟩ := sound.reported j mem
    exact ⟨x, stays held, closed⟩

theorem kept_extendTrial {now : ℤ} {trialId : String} {additionalDays : Option ℚ} {reason : Option String}
    (given : w.Given (now, .extendTrial trialId additionalDays reason))
    (careful : w.Careful (now, .extendTrial trialId additionalDays reason)) :
    Kept w { w with service := (w.service.extendTrial trialId additionalDays reason).2 } := by
  unfold TrialManagementService.extendTrial
  split
  · exact sound.kept
  · rename_i trial found
    split
    · exact sound.kept
    · rename_i ready
      have started : trial.IsOpen := by
        by_contra ended
        exact ready (not_or.mp ended)
      split
      · exact sound.kept
      · rename_i room
        obtain ⟨-, grace, -, -, bonus, -⟩ := sound.getPolicy trial.planId
        obtain ⟨allowed, own, -⟩ := sound.within trialId trial found
        have more := careful trial found started (not_le.mp room)
        rw [TrialManagementService.maxExt, own, Option.getD_some] at more
        have days : 0 ≤ TrialManagementService.daysToAdd additionalDays (w.service.getPolicy trial.planId) := by
          unfold TrialManagementService.daysToAdd
          split
          · rename_i days
            split
            · exact bonus
            · exact (given days rfl).le
          · exact bonus
        refine sound.change found ⟨rfl, rfl, rfl⟩ ⟨fun ended => absurd started ended, fun converted => ?_, fun cancelled => ?_,
          Date.upTo_addDays days⟩ ⟨allowed, ?_, ?_⟩ (Date.upTo_addDays grace)
        · rcases started with open_ | open_ <;> simp [open_] at converted
        · rcases started with open_ | open_ <;> simp [open_] at cancelled
        · obtain ⟨m, held, max⟩ := Option.bind_eq_some_iff.mp own
          simp only [TrialManagementService.extended, held]
          split
          · split <;> simpa using max
          · simpa using max
        · simpa [TrialManagementService.extended] using more

theorem kept_convertTrial (now : ℤ) (trialId : String) (conversionTrigger : Option String)
    (appliedDiscountBps : Option ℚ) :
    Kept w { w with service := (w.service.convertTrial now trialId conversionTrigger appliedDiscountBps).2 } := by
  unfold TrialManagementService.convertTrial
  split
  · exact sound.kept
  · rename_i trial found
    split
    · exact sound.kept
    · rename_i pending
      obtain ⟨unconverted, uncancelled⟩ := not_or.mp pending
      refine sound.change found ⟨rfl, rfl, rfl⟩ ⟨fun ended => ⟨by simp [TrialSubscriptionRecord.IsOpen], rfl, rfl, rfl⟩,
        fun converted => absurd converted unconverted, fun cancelled => absurd cancelled uncancelled, .refl _⟩
        (sound.within trialId trial found) (sound.grace trialId trial found)

theorem kept_cancelTrial {now : ℤ} {trialId : String} {reason : Option String}
    (careful : w.Careful (now, .cancelTrial trialId reason)) :
    Kept w { w with service := (w.service.cancelTrial trialId reason).2 } := by
  unfold TrialManagementService.cancelTrial
  split
  · exact sound.kept
  · rename_i trial found
    obtain ⟨allowed, own, room⟩ := sound.within trialId trial found
    refine sound.change found ⟨rfl, rfl, rfl⟩ ⟨fun ended => ⟨by simp [TrialSubscriptionRecord.IsOpen], rfl, rfl, rfl⟩,
      fun converted => absurd converted (careful trial found), fun _ => rfl, .refl _⟩ ⟨allowed, ?_, room⟩
      (sound.grace trialId trial found)
    obtain ⟨m, held, max⟩ := Option.bind_eq_some_iff.mp own
    simpa [held] using max

end

theorem isOpen_of_due {referenceDate : Date} (due : TrialManagementService.due referenceDate r = true) : r.IsOpen := by
  simp only [TrialManagementService.due, Bool.and_eq_true, Bool.or_eq_true, decide_eq_true_eq] at due
  exact due.1

theorem process_lasts (referenceDate : Date) (r : TrialSubscriptionRecord) :
    r.Lasts (TrialManagementService.process referenceDate r) := by
  unfold TrialManagementService.process
  split
  · rename_i due
    have started := isOpen_of_due due
    have unconverted : r.status ≠ .converted := by rcases started with here | here <;> simp [here]
    have uncancelled : r.status ≠ .cancelled := by rcases started with here | here <;> simp [here]
    split
    · exact ⟨fun ended => absurd started ended, fun converted => absurd converted unconverted,
        fun cancelled => absurd cancelled uncancelled, .refl _⟩
    · exact ⟨fun ended => absurd started ended, fun converted => absurd converted unconverted,
        fun cancelled => absurd cancelled uncancelled, .refl _⟩
  · exact .refl r

theorem process_same (referenceDate : Date) (r : TrialSubscriptionRecord) :
    (TrialManagementService.process referenceDate r).id = r.id ∧ (TrialManagementService.process referenceDate r).userId = r.userId ∧
      (TrialManagementService.process referenceDate r).startDate = r.startDate ∧
      (TrialManagementService.process referenceDate r).extensionCount = r.extensionCount ∧
      (TrialManagementService.process referenceDate r).metadata = r.metadata ∧
      (TrialManagementService.process referenceDate r).endDate = r.endDate ∧
      (TrialManagementService.process referenceDate r).gracePeriodEndDate = r.gracePeriodEndDate := by
  unfold TrialManagementService.process
  split
  · split <;> exact ⟨rfl, rfl, rfl, rfl, rfl, rfl, rfl⟩
  · exact ⟨rfl, rfl, rfl, rfl, rfl, rfl, rfl⟩

theorem process_closes {referenceDate : Date} (due : TrialManagementService.due referenceDate r = true) :
    ¬ (TrialManagementService.process referenceDate r).IsOpen := by
  rw [TrialManagementService.process, if_pos due]
  split <;> simp [TrialSubscriptionRecord.IsOpen]

theorem reported_perm (s : TrialManagementService) (referenceDate : Date) :
    (((s.processTrialExpirations referenceDate).1.1 ++ (s.processTrialExpirations referenceDate).1.2).map (·.id)).Perm
      ((s.trials.values.filter (TrialManagementService.due referenceDate)).map (·.id)) := by
  have ids (rs : List TrialSubscriptionRecord) :
      (rs.map (TrialManagementService.process referenceDate)).map (·.id) = rs.map (·.id) := by
    rw [map_map]
    exact map_congr_left fun r _ => (process_same referenceDate r).1
  simp only [TrialManagementService.processTrialExpirations, map_append, ids]
  rw [← map_append]
  exact (filter_append_perm _ _).map _

theorem kept_processTrialExpirations (sound : Sound w) (now : ℤ) (referenceDate : Option Date) :
    Kept w (w.step (now, .processTrialExpirations referenceDate)) := by
  obtain ⟨date, given⟩ : ∃ date, referenceDate.getD (some now) = date := ⟨_, rfl⟩
  have stays {j : String} {x : TrialSubscriptionRecord} (held : w.service.trials.get j = some x) :
      (w.step (now, .processTrialExpirations referenceDate)).service.trials.get j =
        some (TrialManagementService.process date x) := by
    rw [← given]
    exact InsertionMap.get_mapValues_eq_some.mpr ⟨x, held, rfl⟩
  have known {j : String} {x : TrialSubscriptionRecord}
      (saved : (w.step (now, .processTrialExpirations referenceDate)).service.trials.get j = some x) :
      ∃ y, w.service.trials.get j = some y ∧ TrialManagementService.process date y = x := by
    rw [← given]
    exact InsertionMap.get_mapValues_eq_some.mp saved
  have held {x : TrialSubscriptionRecord} (mem : x ∈ w.service.trials.values) : w.service.trials.get x.id = some x := by
    obtain ⟨j, found⟩ := InsertionMap.mem_values.mp mem
    rw [(sound.named j x found).1]
    exact found
  have perm := reported_perm w.service date
  have reports : (w.step (now, .processTrialExpirations referenceDate)).reported = w.reported ++
      ((w.service.processTrialExpirations date).1.1 ++ (w.service.processTrialExpirations date).1.2).map (·.id) := by
    rw [← given]
    rfl
  have due {j : String} (mem : j ∈ (w.service.trials.values.filter (TrialManagementService.due date)).map (·.id)) :
      ∃ x, w.service.trials.get j = some x ∧ TrialManagementService.due date x = true := by
    obtain ⟨x, inside, rfl⟩ := mem_map.mp mem
    obtain ⟨inside, due⟩ := mem_filter.mp inside
    exact ⟨x, held inside, due⟩
  refine ⟨⟨fun j x saved => ?_, sound.policies, fun j x saved => ?_, fun j x saved => ?_, ?_, fun j mem => ?_⟩,
    fun j x found => ⟨_, stays found, process_lasts date x⟩⟩
  · obtain ⟨y, found, rfl⟩ := known saved
    obtain ⟨id, user, start, -⟩ := process_same date y
    rw [id, user, start]
    exact sound.named j y found
  · obtain ⟨y, found, rfl⟩ := known saved
    obtain ⟨-, -, -, count, metadata, -⟩ := process_same date y
    rw [Within, count, metadata]
    exact sound.within j y found
  · obtain ⟨y, found, rfl⟩ := known saved
    obtain ⟨-, -, -, -, -, ends, grace⟩ := process_same date y
    rw [ends, grace]
    exact sound.grace j y found
  · have ids : w.service.trials.values.map (·.id) = w.service.trials.keys := by
      rw [InsertionMap.values, InsertionMap.keys, map_map]
      exact map_congr_left fun e member => (sound.named e.1 e.2 (InsertionMap.get_eq_some.mpr member)).1
    have apart : ((w.service.trials.values.filter (TrialManagementService.due date)).map (·.id)).Nodup := by
      have all : (w.service.trials.values.map (·.id)).Nodup := ids ▸ w.service.trials.distinct
      exact all.sublist (filter_sublist.map _)
    rw [reports, nodup_append]
    refine ⟨sound.once, perm.nodup_iff.mpr apart, fun j before k new same => ?_⟩
    subst same
    obtain ⟨x, found, closed⟩ := sound.reported j before
    obtain ⟨y, found', late⟩ := due (perm.mem_iff.mp new)
    rw [found] at found'
    cases found'
    exact closed (isOpen_of_due late)
  · rw [reports] at mem
    obtain before | new := mem_append.mp mem
    · obtain ⟨x, found, closed⟩ := sound.reported j before
      exact ⟨_, stays found, ((process_lasts date x).ended closed).1⟩
    · obtain ⟨x, found, late⟩ := due (perm.mem_iff.mp new)
      exact ⟨_, stays found, process_closes late⟩

theorem Sound.step (sound : Sound w) (given : w.Given call) (careful : w.Careful call) : Kept w (w.step call) := by
  obtain ⟨now, call⟩ := call
  cases call with
  | registerPolicy policy => exact kept_registerPolicy sound given
  | startTrial userId planId planPriceUsd overrides metadata => exact kept_startTrial sound given careful
  | extendTrial trialId additionalDays reason => exact kept_extendTrial sound given careful
  | convertTrial trialId conversionTrigger appliedDiscountBps => exact kept_convertTrial sound now trialId _ _
  | cancelTrial trialId reason => exact kept_cancelTrial sound careful
  | processTrialExpirations referenceDate => exact kept_processTrialExpirations sound now referenceDate

theorem sound_new : Sound new where
  named _ _ found := by cases found
  policies planId policy found := by
    obtain ⟨-, rfl⟩ | ⟨-, stored⟩ := InsertionMap.get_set_eq_some.mp found
    · decide
    · cases stored
  within _ _ found := by cases found
  grace _ _ found := by cases found
  once := nodup_nil
  reported _ listed := by cases listed

variable {calls : List (ℤ × Call)}

theorem Sound.run (sound : Sound w) (met : Throughout World.step w (fun w call => w.Given call ∧ w.Careful call) calls) :
    Kept w (calls.foldl World.step w) := by
  refine met.keeps (Kept w) sound.kept fun middle call kept fine => ?_
  obtain ⟨sound', lasts⟩ := kept
  obtain ⟨sound'', lasts'⟩ := sound'.step fine.1 fine.2
  refine ⟨sound'', fun id r found => ?_⟩
  obtain ⟨r', found', first⟩ := lasts id r found
  obtain ⟨r'', found'', second⟩ := lasts' id r' found'
  exact ⟨r'', found'', first.trans second⟩

/-- Between any two states of a run whose calls are careful. -/
theorem lifeCycle_of_careful (earlier later : List (ℤ × Call))
    (given : Throughout step new Given (earlier ++ later)) (careful : Throughout step new Careful (earlier ++ later)) :
    LifeCycle (earlier.foldl step new) ((earlier ++ later).foldl step new) := by
  have met := given.and careful
  have first := (sound_new.run (met.before rfl)).1
  obtain ⟨sound, lasts⟩ := first.run met.tail
  rw [foldl_append]
  exact ⟨lasts, sound.within, fun id r found => (sound.grace id r found).not_before, sound.once⟩

def start : ℤ × Call := (0, .startTrial "u" "plan" 10 {} none)

def exampleCalls : List (ℤ × Call) :=
  [start, (1, .extendTrial "trial_u_0" none none), (2, .convertTrial "trial_u_0" none (some 1000)),
    (3, .processTrialExpirations (some (some 5000000000)))]

theorem lifeCycle_exampleCalls : LifeCycle ([start].foldl step new) (exampleCalls.foldl step new) := by
  have given : Throughout step new Given exampleCalls :=
    .cons (fun _ _ found => by cases found) (.cons (fun _ none => by cases none) (.cons trivial (.cons trivial .nil)))
  have careful : Throughout step new Careful exampleCalls := by
    refine .cons ⟨by decide +kernel, by decide +kernel⟩ (.cons (fun r found _ _ => ?_) (.cons trivial (.cons trivial .nil)))
    cases found
    decide +kernel
  exact lifeCycle_of_careful [start] exampleCalls.tail given careful

theorem not_lifeCycle : ¬ ∀ earlier later : List (ℤ × Call), Throughout step new Given (earlier ++ later) →
    LifeCycle (earlier.foldl step new) ((earlier ++ later).foldl step new) := by
  intro all
  have given : Throughout step new Given
      ([start, (1, .convertTrial "trial_u_0" none none)] ++ [(2, .cancelTrial "trial_u_0" none)]) :=
    .cons (fun _ _ found => by cases found) (.cons trivial (.cons trivial .nil))
  obtain ⟨r', found, lasts⟩ := (all _ _ given).lasts "trial_u_0" _ rfl
  have status := (lasts.converted rfl).1
  cases found
  cases status

end World

end SubTrackr.Trial

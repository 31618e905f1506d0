import SubTrackr.Lib.Histories
import SubTrackr.PaymentTimeout.PaymentTimeoutService

namespace SubTrackr.PaymentTimeout

open List Lib

variable {configs : Store ℕ ChainTimeoutConfig} {chainProvider : Bool} {b b' b'' : Books}

def Books.issuedFor (b : Books) (o : ℕ) : ℕ := b.issued.countP (·.record = o)

def Books.returnedFor (b : Books) (o : ℕ) : ℕ := b.returned.countP (·.record = o)

section Moves

variable (configs)

def maxAttempts (r : PaymentTimeoutRecord) : ℕ := (getChainConfig configs r.chainId).maxRecoveryAttempts

/-- The bump of a positive price by positive basis points is not lost in the division. -/
def Bumps (r : PaymentTimeoutRecord) : Prop :=
  0 < r.lastGasPrice → 0 < (getChainConfig configs r.chainId).gasBumpBps →
    10000 ≤ r.lastGasPrice * (getChainConfig configs r.chainId).gasBumpBps

instance (r : PaymentTimeoutRecord) : Decidable (Bumps configs r) := inferInstanceAs (Decidable (_ → _))

structure Recoverable (r : PaymentTimeoutRecord) : Prop where
  unsettled : r.status ≠ .resolved
  below : r.recoveryAttempts < maxAttempts configs r
  bumps : Bumps configs r

structure Quiet (f : PaymentTimeoutRecord → PaymentTimeoutRecord) (r : PaymentTimeoutRecord) : Prop where
  chain : (f r).chainId = r.chainId
  attempts : (f r).recoveryAttempts = r.recoveryAttempts
  settled : r.status = .resolved → (f r).status = .resolved
  abandoned : (f r).status = .abandoned → r.status = .abandoned ∨ maxAttempts configs r ≤ r.recoveryAttempts

inductive Move (b : Books) : Books → Prop
  | register (now : ℤ) (id chargeId subscriptionId : String) (chainId : ℕ) (price : ℤ) (txHash : Option String) :
    Move b (b.registerPending now id chargeId subscriptionId chainId price txHash)
  | change (o : ℕ) (f : PaymentTimeoutRecord → PaymentTimeoutRecord) (quiet : ∀ r, b.objects[o]? = some r → Quiet configs f r) :
    Move b (b.update o f)
  | recover (o : ℕ) (r : PaymentTimeoutRecord) (now : ℤ) (found : b.objects[o]? = some r) (recoverable : Recoverable configs r) :
    Move b (b.recover configs o r now)
  | give (result : RecoveryResult) (unsettled : ∀ r, b.objects[result.record]? = some r → r.status ≠ .resolved) :
    Move b { b with returned := result :: b.returned }

def Moves : Books → Books → Prop := Relation.ReflTransGen (Move configs)

def Lasts (b b' : Books) : Prop :=
  ∀ (o : ℕ) (r : PaymentTimeoutRecord), b.objects[o]? = some r → ∃ r', b'.objects[o]? = some r' ∧ r'.chainId = r.chainId ∧
    (r.status = .resolved → r'.status = .resolved ∧ b'.issuedFor o = b.issuedFor o ∧ b'.returnedFor o = b.returnedFor o) ∧
    (maxAttempts configs r ≤ r.recoveryAttempts → r.recoveryAttempts ≤ r'.recoveryAttempts ∧ b'.issuedFor o = b.issuedFor o)

structure Sound (b : Books) : Prop where
  counted : ∀ (o : ℕ) (r : PaymentTimeoutRecord), b.objects[o]? = some r → r.recoveryAttempts = b.issuedFor o
  bounded : ∀ (o : ℕ) (r : PaymentTimeoutRecord), b.objects[o]? = some r → r.recoveryAttempts ≤ maxAttempts configs r
  abandoned : ∀ (o : ℕ) (r : PaymentTimeoutRecord), b.objects[o]? = some r → r.status = .abandoned → maxAttempts configs r ≤ r.recoveryAttempts
  known : ∀ e ∈ b.issued, e.record < b.objects.length
  raised : ∀ e ∈ b.issued, 0 < e.previous → 0 < e.bumpBps → e.previous < e.newGasPrice

end Moves

section Kept

variable {o : ℕ} {f : PaymentTimeoutRecord → PaymentTimeoutRecord}

theorem Lasts.refl (b : Books) : Lasts configs b b :=
  fun _ r found => ⟨r, found, rfl, fun settled => ⟨settled, rfl, rfl⟩, fun _ => ⟨le_rfl, rfl⟩⟩

theorem Lasts.trans (first : Lasts configs b b') (second : Lasts configs b' b'') : Lasts configs b b'' := by
  intro o r found
  obtain ⟨r', found', chain, settled, exhausted⟩ := first o r found
  obtain ⟨r'', found'', chain', settled', exhausted'⟩ := second o r' found'
  have same : maxAttempts configs r' = maxAttempts configs r := by rw [maxAttempts, chain, maxAttempts]
  refine ⟨r'', found'', chain'.trans chain, ?_, ?_⟩
  · intro resolved
    obtain ⟨resolved', issued, returned⟩ := settled resolved
    obtain ⟨resolved'', issued', returned'⟩ := settled' resolved'
    exact ⟨resolved'', issued'.trans issued, returned'.trans returned⟩
  · intro spent
    obtain ⟨more, issued⟩ := exhausted spent
    obtain ⟨more', issued'⟩ := exhausted' (same ▸ spent.trans more)
    exact ⟨more.trans more', issued'.trans issued⟩

theorem getElem?_update {i : ℕ} {r : PaymentTimeoutRecord} (found : b.objects[i]? = some r) :
    (b.update o f).objects[i]? = some (if o = i then f r else r) := by
  simp only [Books.update, getElem?_modify, found]
  rfl

theorem of_getElem?_update {i : ℕ} {r : PaymentTimeoutRecord} (found : (b.update o f).objects[i]? = some r) :
    ∃ old, b.objects[i]? = some old ∧ r = if o = i then f old else old := by
  cases before : b.objects[i]? with
  | none => simp [Books.update, getElem?_modify, before] at found
  | some old =>
    rw [getElem?_update before] at found
    exact ⟨old, rfl, (Option.some.inj found).symm⟩

theorem Lasts.update (quiet : ∀ r, b.objects[o]? = some r → Quiet configs f r) : Lasts configs b (b.update o f) := by
  intro i r found
  refine ⟨_, getElem?_update found, ?_⟩
  by_cases here : o = i
  · subst here
    have quiet := quiet r found
    rw [if_pos rfl]
    exact ⟨quiet.chain, fun resolved => ⟨quiet.settled resolved, rfl, rfl⟩, fun _ => ⟨quiet.attempts.ge, rfl⟩⟩
  · rw [if_neg here]
    exact ⟨rfl, fun resolved => ⟨resolved, rfl, rfl⟩, fun _ => ⟨le_rfl, rfl⟩⟩

theorem Sound.update (sound : Sound configs b) (quiet : ∀ r, b.objects[o]? = some r → Quiet configs f r) :
    Sound configs (b.update o f) := by
  have each : ∀ (i : ℕ) (r : PaymentTimeoutRecord), (b.update o f).objects[i]? = some r → ∃ old, b.objects[i]? = some old ∧ r.chainId = old.chainId ∧
      r.recoveryAttempts = old.recoveryAttempts ∧
      (r.status = .abandoned → old.status = .abandoned ∨ maxAttempts configs old ≤ old.recoveryAttempts) := by
    intro i r found
    obtain ⟨old, before, rfl⟩ := of_getElem?_update found
    by_cases here : o = i
    · subst here
      have quiet := quiet old before
      rw [if_pos rfl]
      exact ⟨old, before, quiet.chain, quiet.attempts, quiet.abandoned⟩
    · rw [if_neg here]
      exact ⟨old, before, rfl, rfl, .inl⟩
  refine ⟨?_, ?_, ?_, ?_, sound.raised⟩
  · intro i r found
    obtain ⟨old, before, -, attempts, -⟩ := each i r found
    rw [attempts]
    exact sound.counted i old before
  · intro i r found
    obtain ⟨old, before, chain, attempts, -⟩ := each i r found
    rw [attempts, maxAttempts, chain]
    exact sound.bounded i old before
  · intro i r found abandoned
    obtain ⟨old, before, chain, attempts, origin⟩ := each i r found
    rw [attempts, maxAttempts, chain]
    exact (origin abandoned).elim (sound.abandoned i old before) id
  · intro e mem
    have inside := sound.known e mem
    simpa [Books.update] using inside

theorem lt_bumped {price bump : ℤ} (pos : 0 < price) (raises : 10000 ≤ price * bump) : price < Books.bumped bump price := by
  have nonneg : 0 ≤ price * (10000 + bump) := by
    rw [mul_add]
    omega
  rw [Books.bumped, Int.tdiv_eq_ediv_of_nonneg nonneg, mul_add]
  omega

theorem Lasts.recover {r : PaymentTimeoutRecord} {now : ℤ} (found : b.objects[o]? = some r) (recoverable : Recoverable configs r) :
    Lasts configs b (b.recover configs o r now) := by
  intro i old before
  refine ⟨_, getElem?_update before, ?_⟩
  by_cases here : o = i
  · subst here
    obtain rfl := Option.some.inj (found.symm.trans before)
    rw [if_pos rfl]
    exact ⟨rfl, fun resolved => absurd resolved recoverable.unsettled, fun spent => absurd recoverable.below spent.not_gt⟩
  · have apart : (b.recover configs o r now).issuedFor i = b.issuedFor i := countP_cons_of_neg (by simpa using here)
    rw [if_neg here]
    exact ⟨rfl, fun resolved => ⟨resolved, apart, rfl⟩, fun _ => ⟨le_rfl, apart⟩⟩

theorem Sound.recover {r : PaymentTimeoutRecord} {now : ℤ} (sound : Sound configs b) (found : b.objects[o]? = some r)
    (recoverable : Recoverable configs r) : Sound configs (b.recover configs o r now) := by
  have mine : (b.recover configs o r now).issuedFor o = b.issuedFor o + 1 := countP_cons_of_pos (by simp)
  have theirs : ∀ i, o ≠ i → (b.recover configs o r now).issuedFor i = b.issuedFor i :=
    fun i other => countP_cons_of_neg (by simpa using other)
  refine ⟨?_, ?_, ?_, ?_, ?_⟩
  · intro i r' found'
    obtain ⟨old, before, rfl⟩ := of_getElem?_update found'
    by_cases here : o = i
    · subst here
      rw [if_pos rfl, mine, ← sound.counted o old before]
    · rw [if_neg here, theirs i here, sound.counted i old before]
  · intro i r' found'
    obtain ⟨old, before, rfl⟩ := of_getElem?_update found'
    by_cases here : o = i
    · subst here
      obtain rfl := Option.some.inj (found.symm.trans before)
      rw [if_pos rfl]
      exact recoverable.below
    · rw [if_neg here]
      exact sound.bounded i old before
  · intro i r' found' abandoned
    obtain ⟨old, before, rfl⟩ := of_getElem?_update found'
    by_cases here : o = i
    · rw [if_pos here] at abandoned
      cases abandoned
    · rw [if_neg here] at abandoned ⊢
      exact sound.abandoned i old before abandoned
  · intro e mem
    have length : (b.recover configs o r now).objects.length = b.objects.length := length_modify ..
    rw [length]
    rcases List.mem_cons.mp mem with rfl | old
    · exact (List.getElem?_eq_some_iff.mp found).1
    · exact sound.known e old
  · intro e mem
    rcases List.mem_cons.mp mem with rfl | old
    · intro pos raises
      exact lt_bumped pos (recoverable.bumps pos raises)
    · exact sound.raised e old

theorem Move.lasts (move : Move configs b b') : Lasts configs b b' := by
  cases move with
  | register now id chargeId subId chainId price txHash =>
    intro o r found
    have inside := (List.getElem?_eq_some_iff.mp found).1
    exact ⟨r, (List.getElem?_append_left inside).trans found, rfl, fun resolved => ⟨resolved, rfl, rfl⟩, fun _ => ⟨le_rfl, rfl⟩⟩
  | change o f quiet => exact .update quiet
  | recover o r now found recoverable => exact .recover found recoverable
  | give result unsettled =>
    intro o r found
    refine ⟨r, found, rfl, fun resolved => ⟨resolved, rfl, ?_⟩, fun _ => ⟨le_rfl, rfl⟩⟩
    apply countP_cons_of_neg
    simp only [decide_eq_true_eq]
    rintro rfl
    exact unsettled r found resolved

theorem Move.sound (move : Move configs b b') (sound : Sound configs b) : Sound configs b' := by
  cases move with
  | register now id chargeId subId chainId price txHash =>
    have none_yet : b.issuedFor b.objects.length = 0 :=
      countP_eq_zero.mpr fun e mem => by simpa using (sound.known e mem).ne
    have each : ∀ (o : ℕ) (r : PaymentTimeoutRecord),
        (b.registerPending now id chargeId subId chainId price txHash).objects[o]? = some r →
        b.objects[o]? = some r ∨ o = b.objects.length ∧ r.recoveryAttempts = 0 ∧ r.status = .pending := by
      intro o r found
      rcases lt_trichotomy o b.objects.length with inside | rfl | beyond
      · exact .inl ((List.getElem?_append_left inside).symm.trans found)
      · obtain rfl : _ = r := by simpa [Books.registerPending] using found
        exact .inr ⟨rfl, rfl, rfl⟩
      · have outside := (List.getElem?_eq_some_iff.mp found).1
        simp only [Books.registerPending, List.length_append, List.length_singleton] at outside
        omega
    refine ⟨?_, ?_, ?_, ?_, sound.raised⟩
    · intro o r found
      rcases each o r found with old | ⟨rfl, attempts, -⟩
      · exact sound.counted o r old
      · exact attempts.trans none_yet.symm
    · intro o r found
      rcases each o r found with old | ⟨rfl, attempts, -⟩
      · exact sound.bounded o r old
      · omega
    · intro o r found abandoned
      rcases each o r found with old | ⟨rfl, -, pending⟩
      · exact sound.abandoned o r old abandoned
      · rw [pending] at abandoned
        cases abandoned
    · intro e mem
      have inside := sound.known e mem
      simp only [Books.registerPending, List.length_append, List.length_singleton]
      omega
  | change o f quiet => exact sound.update quiet
  | recover o r now found recoverable => exact sound.recover found recoverable
  | give result unsettled => exact ⟨sound.counted, sound.bounded, sound.abandoned, sound.known, sound.raised⟩

theorem Moves.lasts (moves : Moves configs b b') : Lasts configs b b' := by
  induction moves with
  | refl => exact .refl b
  | tail _ last ih => exact ih.trans last.lasts

theorem Moves.sound (moves : Moves configs b b') (sound : Sound configs b) : Sound configs b' := by
  induction moves with
  | refl => exact sound
  | tail _ last ih => exact last.sound ih

end Kept

section Steps

variable {o : ℕ} {now : ℤ}

theorem Moves.one (move : Move configs b b') : Moves configs b b' := .single move

section

variable (unsettled : ∀ r, b.objects[o]? = some r → r.status ≠ .resolved)

include unsettled

theorem move_timeOut : Move configs b (b.timeOut o now) :=
  .change o _ fun r found => ⟨rfl, rfl, fun resolved => absurd resolved (unsettled r found), by simp⟩

theorem move_reprice {price : ℤ} :
    Move configs b (b.reprice o price) :=
  .change o _ fun r found => ⟨rfl, rfl, fun resolved => absurd resolved (unsettled r found), by simp⟩

end

theorem move_resolveRecord {note : String} : Move configs b (b.resolveRecord o note now) :=
  .change o _ fun _ _ => ⟨rfl, rfl, fun _ => rfl, by simp⟩

theorem move_abandon {r : PaymentTimeoutRecord} (found : b.objects[o]? = some r) (unsettled : r.status ≠ .resolved)
    (exhausted : maxAttempts configs r ≤ r.recoveryAttempts) : Move configs b (b.abandon o now) := by
  refine .change o _ fun r' found' => ?_
  obtain rfl := Option.some.inj (found.symm.trans found')
  exact ⟨rfl, rfl, fun resolved => absurd resolved unsettled, fun _ => .inr exhausted⟩

theorem move_defer : Move configs b (b.defer o now) := .change o _ fun _ _ => ⟨rfl, rfl, id, .inl⟩

theorem ofCharge_eq_some {chargeId : String} {r : PaymentTimeoutRecord} (found : b.ofCharge chargeId = some (o, r)) :
    b.objects[o]? = some r := by
  simp only [Books.ofCharge, Option.bind_eq_bind, Option.bind_eq_some_iff, Option.some.injEq, Prod.mk.injEq] at found
  obtain ⟨id, -, o', -, r', here, rfl, rfl⟩ := found
  exact here

theorem nextFrom_eq_some {k k' : ℕ} {p : PaymentTimeoutRecord → Bool} (found : b.nextFrom k p = some (k', o)) :
    ∃ r, b.objects[o]? = some r ∧ p r = true := by
  simp only [Books.nextFrom, Option.map_eq_some_iff, Prod.mk.injEq] at found
  obtain ⟨e, first, -, rfl⟩ := found
  simpa [Option.any_eq_true] using find?_some first

theorem PaymentTimeoutRecord.unsettled_of_isStuck {r : PaymentTimeoutRecord} (stuck : r.isStuck = true) :
    r.status ≠ .resolved := by
  intro resolved
  simp [isStuck, resolved] at stuck

def AttemptFine (configs : Store ℕ ChainTimeoutConfig) (chainProvider : Bool) (b : Books) (chargeId : String) : Prop :=
  ∀ o r, b.ofCharge chargeId = some (o, r) → r.isStuck = true → r.recoveryAttempts < maxAttempts configs r →
    (chainProvider && r.hasTxHash) = false → Bumps configs r

theorem moves_attemptRecovery {caller : Caller} {chargeId : String} (fine : AttemptFine configs chainProvider b chargeId) :
    Moves configs b (attemptRecovery configs chainProvider b now caller chargeId).1 := by
  unfold attemptRecovery
  cases found : b.ofCharge chargeId with
  | none => exact .refl
  | some pair =>
    obtain ⟨o, r⟩ := pair
    dsimp only
    split
    · exact .refl
    · rename_i stuck
      have stuck : r.isStuck = true := by simpa using stuck
      have unsettled := PaymentTimeoutRecord.unsettled_of_isStuck stuck
      split
      · rename_i exhausted
        exact .one (move_abandon (ofCharge_eq_some found) unsettled exhausted)
      · rename_i below
        have below := not_le.mp below
        split
        · exact .refl
        · rename_i unchecked
          rw [Bool.not_eq_true] at unchecked
          exact .one (.recover o r now (ofCharge_eq_some found) ⟨unsettled, below, fine o r found stuck below unchecked⟩)

theorem moves_scan {started : ℤ} {k : ℕ} {seen : List ℕ} : Moves configs b (scan configs chainProvider b started k seen).1 := by
  unfold scan
  cases found : b.nextFrom k (isDue configs started) with
  | none => exact .refl
  | some pair =>
    obtain ⟨k', o⟩ := pair
    obtain ⟨r, here, due⟩ := nextFrom_eq_some found
    dsimp only
    split
    · exact .refl
    · apply Moves.one
      apply move_timeOut
      intro r' found'
      obtain rfl := Option.some.inj (here.symm.trans found')
      intro resolved
      simp [isDue, resolved] at due

theorem moves_autoRecover {k : ℕ} {results : List RecoveryResult}
    (fine : ∀ caller chargeId, nextStuck b k results = some (caller, chargeId) → AttemptFine configs chainProvider b chargeId) :
    Moves configs b (autoRecover configs chainProvider b now k results).1 := by
  unfold autoRecover
  cases next : nextStuck b k results with
  | none => exact .refl
  | some pair => exact moves_attemptRecovery (fine pair.1 pair.2 next)

/-- A step that goes on after a wait finds the record as it was checked, and raises the price where it writes a recovery. -/
def Careful (configs : Store ℕ ChainTimeoutConfig) (chainProvider : Bool) (w : World) : Action → Prop
  | .attemptRecovery chargeId => AttemptFine configs chainProvider w.books chargeId
  | .manualRetry chargeId price => ∀ o r, w.books.ofCharge chargeId = some (o, r) → r.status ≠ .resolved → r.status ≠ .abandoned →
      AttemptFine configs chainProvider (w.books.reprice o (effectiveGasPrice configs r price)) chargeId
  | .autoRecoverAll => ∀ caller chargeId, nextStuck w.books 0 [] = some (caller, chargeId) →
      AttemptFine configs chainProvider w.books chargeId
  | .resume i => ∀ k results, w.calls[i]? = some (.auto k results) → ∀ caller chargeId,
      nextStuck w.books k results = some (caller, chargeId) → AttemptFine configs chainProvider w.books chargeId
  | .txStatus i chainStatus => chainStatus ≠ some .confirmed → ∀ started k o found,
      w.calls[i]? = some (.scanStatus started k o found) → ∀ r, w.books.objects[o]? = some r → r.status ≠ .resolved
  | .detectReorg i hasReorg => hasReorg = false → ∀ caller o, w.calls[i]? = some (.reorg caller o) →
      ∀ r, w.books.objects[o]? = some r → Recoverable configs r
  | .alerted i delivered => delivered = true → ∀ caller o price, w.calls[i]? = some (.alert caller (some (o, price))) →
      ∀ r, w.books.objects[o]? = some r → r.status ≠ .resolved
  | _ => True

theorem moves_step {w : World} {action : Action} (careful : Careful configs chainProvider w action) :
    Moves configs w.books (w.step configs chainProvider action).books := by
  cases action with
  | tick ms => exact .refl
  | registerPending id chargeId subId chainId initialGasPrice txHash => exact .one (.register ..)
  | detectTimeouts => exact moves_scan
  | autoRecoverAll => exact moves_autoRecover careful
  | attemptRecovery chargeId => exact moves_attemptRecovery careful
  | manualRetry chargeId price =>
    simp only [World.step, World.begin]
    unfold manualRetry
    split
    · exact .refl
    · cases found : w.books.ofCharge chargeId with
      | none => exact .refl
      | some pair =>
        obtain ⟨o, r⟩ := pair
        dsimp only
        split
        · exact .refl
        · rename_i unsettled
          obtain ⟨unresolved, unabandoned⟩ := not_or.mp unsettled
          have repriced : Move configs w.books (w.books.reprice o (effectiveGasPrice configs r price)) := by
            apply move_reprice
            intro r' found'
            obtain rfl := Option.some.inj ((ofCharge_eq_some found).symm.trans found')
            exact unresolved
          exact (Moves.one repriced).trans (moves_attemptRecovery (careful o r found unresolved unabandoned))
  | markResolved chargeId note =>
    simp only [World.step, markResolved]
    split
    · exact .refl
    · exact .one move_resolveRecord
  | txStatus i chainStatus =>
    simp only [World.step]
    split
    · rename_i started k o found here
      simp only [World.goOn, statusChecked]
      split
      · exact (Moves.one move_resolveRecord).trans moves_scan
      · rename_i unconfirmed
        exact .one (move_timeOut (careful unconfirmed started k o found here))
    · exact .refl
  | detectReorg i hasReorg =>
    simp only [World.step]
    split
    · rename_i caller o here
      simp only [World.goOn, reorgChecked]
      cases found : w.books.objects[o]? with
      | none => exact .refl
      | some r =>
        cases hasReorg with
        | true => exact .one move_defer
        | false => exact .one (.recover o r w.now found (careful rfl caller o here r found))
    · exact .refl
  | alerted i delivered =>
    simp only [World.step]
    split
    · cases delivered with
      | true => exact moves_scan
      | false => exact .refl
    · rename_i caller recovery here
      cases delivered with
      | false => exact .refl
      | true =>
        cases recovery with
        | none => exact .refl
        | some pair => exact .one (.give _ (careful rfl caller pair.1 pair.2 here))
    · exact .refl
  | resume i =>
    simp only [World.step]
    split
    · rename_i k results here
      exact moves_autoRecover (careful k results here)
    · exact .refl

end Steps

structure Settled (configs : Store ℕ ChainTimeoutConfig) (b b' : Books) : Prop where
  resolved : ∀ (o : ℕ) (r : PaymentTimeoutRecord), b.objects[o]? = some r → r.status = .resolved →
    (∃ r', b'.objects[o]? = some r' ∧ r'.status = .resolved) ∧ b'.issuedFor o = b.issuedFor o ∧ b'.returnedFor o = b.returnedFor o
  abandoned : ∀ (o : ℕ) (r : PaymentTimeoutRecord), b.objects[o]? = some r → r.status = .abandoned → b'.issuedFor o = b.issuedFor o
  bounded : ∀ (o : ℕ) (r : PaymentTimeoutRecord), b.objects[o]? = some r → b.issuedFor o ≤ maxAttempts configs r
  raised : ∀ e ∈ b.issued, 0 < e.previous → 0 < e.bumpBps → e.previous < e.newGasPrice

section Runs

variable {now : ℤ} {actions earlier later : List Action}

def exampleActions : List Action :=
  [.registerPending "pto" "charge" "sub" 1 100 (some "0x1"), .manualRetry "charge" 120, .detectReorg 0 false, .alerted 0 true]

theorem moves_foldl {w : World} (careful : Throughout (World.step configs chainProvider) w (Careful configs chainProvider) actions) :
    Moves configs w.books (actions.foldl (World.step configs chainProvider) w).books :=
  careful.keeps (fun w' : World => Moves configs w.books w'.books) .refl fun _ _ moves fine => moves.trans (moves_step fine)

theorem settled_of_careful (careful : Throughout (World.step configs chainProvider) { now := now }
    (Careful configs chainProvider) actions) (split : actions = earlier ++ later) :
    Settled configs (earlier.foldl (World.step configs chainProvider) { now := now }).books
      (actions.foldl (World.step configs chainProvider) { now := now }).books := by
  have initial : Sound configs {} := ⟨by simp, by simp, by simp, by simp, by simp⟩
  have sound := (moves_foldl (careful.before split)).sound initial
  subst split
  have lasts := (moves_foldl careful.tail).lasts
  rw [← foldl_append] at lasts
  refine ⟨?_, ?_, ?_, sound.raised⟩
  · intro o r found resolved
    obtain ⟨r', found', -, settled, -⟩ := lasts o r found
    exact ⟨⟨r', found', (settled resolved).1⟩, (settled resolved).2⟩
  · intro o r found abandoned
    obtain ⟨r', -, -, -, exhausted⟩ := lasts o r found
    exact (exhausted (sound.abandoned o r found abandoned)).2
  · intro o r found
    rw [← sound.counted o r found]
    exact sound.bounded o r found

theorem settled_exampleActions :
    Settled defaultChainConfigs (exampleActions.foldl (World.step defaultChainConfigs true) { now := 0 }).books
      (exampleActions.foldl (World.step defaultChainConfigs true) { now := 0 }).books := by
  refine settled_of_careful ?_ (append_nil exampleActions).symm
  refine .cons trivial (.cons ?_ (.cons ?_ (.cons ?_ .nil)))
  · intro o r found _ _ o' r' found' _ _ unchecked
    cases found
    cases found'
    exact absurd unchecked (by decide)
  · intro _ caller o here r stored
    cases here
    cases stored
    exact ⟨by decide, by decide, by decide⟩
  · intro _ caller o price here r stored
    cases here
    cases stored
    decide

theorem not_always_settled : ¬ ∀ (configs : Store ℕ ChainTimeoutConfig) (chainProvider : Bool) (now : ℤ) (earlier later : List Action),
    Settled configs (earlier.foldl (World.step configs chainProvider) { now := now }).books
      ((earlier ++ later).foldl (World.step configs chainProvider) { now := now }).books := by
  intro settled
  have kept := settled defaultChainConfigs true 0
    [.registerPending "pto" "charge" "sub" 1 100 (some "0x1"), .manualRetry "charge" 120, .markResolved "charge" "paid"]
    [.detectReorg 0 false]
  obtain ⟨⟨r, found, resolved⟩, -⟩ := kept.resolved 0 _ rfl rfl
  cases found
  cases resolved

end Runs

end SubTrackr.PaymentTimeout

import Mathlib.Data.Finset.Card
import SubTrackr.AdminMultisig.Contract

namespace SubTrackr.AdminMultisig

open Option List Lib Soroban

def owners (s : State) : List Address := s.adminOwners.getD []

def threshold (s : State) : Nat := s.adminThreshold.getD 0

def timelock (s : State) : Nat := s.adminTimelockDelaySeconds.getD 0

def proposalSeq (s : State) : Nat := s.adminProposalSeq.getD 0

/-- The contract, the time, and what its calls have done to proposals: who signed for which, when each was created under
    which timelock, and which were executed. -/
structure World where
  state : State
  now : Nat
  approved : List (Nat × Address)
  created : List (Nat × Nat × Nat)
  executed : List Nat

def World.deployed : World := ⟨.empty, 0, [], [], []⟩

structure Tx where
  host : Host
  call : Call

def World.record (w : World) (tx : Tx) (s : State) : World :=
  match tx.call with
  | .proposeAdminAction proposer _ =>
    { state := s
      now := tx.host.timestamp
      approved := w.approved ++ [(proposalSeq s, proposer)]
      created := w.created ++ [(proposalSeq s, tx.host.timestamp, timelock w.state)]
      executed := w.executed }
  | .approveAdminProposal approver id =>
    { w with state := s, now := tx.host.timestamp, approved := w.approved ++ [(id, approver)] }
  | .executeAdminProposal id => { w with state := s, now := tx.host.timestamp, executed := w.executed ++ [id] }
  | _ => { w with state := s, now := tx.host.timestamp }

def perform (w : World) (tx : Tx) : World :=
  match exec tx.host w.state tx.call with
  | .ok s => w.record tx s
  | .error _ => { w with now := tx.host.timestamp }

def InOrder (w : World) (tx : Tx) : Prop := w.now ≤ tx.host.timestamp ∧ tx.host.timestamp ≤ u64Max

instance (w : World) (tx : Tx) : Decidable (InOrder w tx) := inferInstanceAs (Decidable (_ ∧ _))

def Quorum (s : State) (stands : Address → Prop) : Prop :=
  ∃ approvers : List Address, approvers.Nodup ∧ threshold s ≤ approvers.length ∧
    ∀ a ∈ approvers, a ∈ owners s ∧ stands a

def Proper (s : State) : Prop :=
  s.adminOwners.isSome = true → 1 ≤ threshold s ∧ threshold s ≤ (owners s).toFinset.card

structure Authorized (w : World) (tx : Tx) : Prop where
  executed (id : Nat) (s : State) : tx.call = .executeAdminProposal id → exec tx.host w.state tx.call = .ok s →
    Quorum w.state (fun a => (id, a) ∈ w.approved) ∧ id ∉ w.executed
  upgraded (signers : List Address) (newWasmHash : BytesN 32) (s : State) : tx.call = .upgrade signers newWasmHash →
    exec tx.host w.state tx.call = .ok s → Quorum w.state fun a => tx.host.authorized a = true
  migrated (signers : List Address) (newVersion : Nat) (s : State) : tx.call = .migrate signers newVersion →
    exec tx.host w.state tx.call = .ok s → Quorum w.state fun a => tx.host.authorized a = true

def Timely (w : World) (tx : Tx) : Prop :=
  ∀ id s, tx.call = .executeAdminProposal id → exec tx.host w.state tx.call = .ok s →
    ∃ createdAt delay, (id, createdAt, delay) ∈ w.created ∧ createdAt + delay ≤ tx.host.timestamp

def OwnerCall (w : World) (tx : Tx) : Prop :=
  InOrder w tx ∧ ∃ a ∈ owners w.state, (∃ action, tx.call = .proposeAdminAction a action) ∨
    (∃ id, tx.call = .approveAdminProposal a id) ∨ ∃ id, tx.call = .executeAdminProposal id

def CanPropose (w : World) : Prop :=
  ∃ a ∈ owners w.state, ∀ host action, host.authorized a = true →
    ∃ s, exec host w.state (.proposeAdminAction a action) = .ok s

def Leads (w w' : World) : Prop := ∃ txs, Throughout perform w OwnerCall txs ∧ txs.foldl perform w = w'

def Unblocked (w : World) : Prop := w.state.adminProposal.isSome = true → ∃ w', Leads w w' ∧ CanPropose w'

def Executable (s : State) : AdminAction → Prop
  | .removeOwner owner => ∃ a ∈ owners s, a ≠ owner
  | .setThreshold newThreshold => 1 ≤ newThreshold ∧ newThreshold ≤ (owners s).length
  | _ => True

def Reachable (s : State) : AdminAction → Prop
  | .removeOwner owner => min (threshold s) ((owners s).filter (· ≠ owner)).length ≤
      ((owners s).filter (· ≠ owner)).toFinset.card
  | .setThreshold newThreshold => newThreshold ≤ (owners s).toFinset.card
  | _ => True

def Careful (w : World) (tx : Tx) : Prop :=
  match tx.call with
  | .initMultisig _ owners threshold _ => w.state.adminOwners = none → threshold ≤ owners.toFinset.card
  | .proposeAdminAction proposer action => proposer ∈ owners w.state → w.state.adminProposal = none →
      Executable w.state action ∧ tx.host.timestamp + timelock w.state ≤ u64Max ∧ proposalSeq w.state + 1 < u64Max
  | .executeAdminProposal _ => ∀ proposal, w.state.adminProposal = some proposal → Reachable w.state proposal.action
  | _ => True

section Entries

variable {host : Host} {s s' : State}

theorem mem_owners_of_assert {address : Address} {u : Unit} (asserted : assertIsOwner s address = .ok u) :
    address ∈ owners s := by
  unfold assertIsOwner loadOwners at asserted
  simp only [bind_eq_ok, expect_eq_ok, ensure_eq_ok] at asserted
  obtain ⟨list, held, mem⟩ := asserted
  rw [owners, held]
  exact mem

theorem assertIsOwner_of_mem {address : Address} (mem : address ∈ owners s) : assertIsOwner s address = .ok () := by
  unfold assertIsOwner loadOwners
  cases held : s.adminOwners with
  | none => simp [owners, held] at mem
  | some list =>
    rw [owners, held] at mem
    simp only [bind_eq_ok, expect_eq_ok, ensure_eq_ok]
    exact ⟨list, rfl, mem⟩

theorem uniqueSigners_ok {list signers before unique : List Address}
    (counted : signers.foldlM (fun unique signer => do
      ensure (signer ∈ list) "signer not owner"
      let unique := if signer ∈ unique then unique else unique ++ [signer]
      host.requireAuth signer
      return unique) before = .ok unique)
    (nodup : before.Nodup) (stand : ∀ a ∈ before, a ∈ list ∧ host.authorized a = true) :
    unique.Nodup ∧ ∀ a ∈ unique, a ∈ list ∧ host.authorized a = true := by
  induction signers generalizing before with
  | nil =>
    cases counted
    exact ⟨nodup, stand⟩
  | cons signer signers ih =>
    rw [foldlM_cons] at counted
    simp only [bind_eq_ok, ensure_eq_ok, Host.requireAuth_eq_ok] at counted
    obtain ⟨middle, ⟨_, mem, _, signed, same⟩, rest⟩ := counted
    cases same
    refine ih rest ?_ ?_
    · split
      · exact nodup
      · rename_i new
        exact nodup_append.mpr ⟨nodup, nodup_singleton _, fun a old b here same =>
          new (mem_singleton.mp here ▸ same ▸ old)⟩
    · intro a member
      split at member
      · exact stand a member
      · obtain old | here := mem_append.mp member
        · exact stand a old
        · rw [mem_singleton.mp here]
          exact ⟨mem, signed⟩

theorem quorum_of_signers {signers : List Address} {u : Unit}
    (required : requireThresholdSigners host signers s = .ok u) : Quorum s fun a => host.authorized a = true := by
  unfold requireThresholdSigners loadOwners loadThreshold at required
  simp only [bind_eq_ok, expect_eq_ok, ensure_eq_ok] at required
  obtain ⟨list, held, least, held', _, _, unique, counted, enough⟩ := required
  obtain ⟨nodup, stand⟩ := uniqueSigners_ok counted nodup_nil (fun _ mem => absurd mem not_mem_nil)
  refine ⟨unique, nodup, ?_, ?_⟩
  · rw [threshold, held']
    exact Nat.le_of_not_lt enough
  · rw [owners, held]
    exact stand

theorem init_ok {admin : Address} (run : init host admin s = .ok s') : s.adminOwners = none ∧
    s' = publish { s with
      adminOwners := some [admin], adminThreshold := some 1, adminTimelockDelaySeconds := some 0
      adminProposalSeq := some 0, contractVersion := some 1 } (.adminInitialized admin) := by
  unfold init at run
  simp only [bind_eq_ok, ensure_eq_ok, Host.requireAuth_eq_ok] at run
  obtain ⟨_, fresh, _, _, run⟩ := run
  cases run
  exact ⟨fresh, rfl⟩

theorem initMultisig_ok {initializer : Address} {list : List Address} {threshold' delay : Nat}
    (run : initMultisig host initializer list threshold' delay s = .ok s') :
    s.adminOwners = none ∧ (1 ≤ threshold' ∧ threshold' ≤ list.length) ∧
      s' = publish { s with
        adminOwners := some list, adminThreshold := some threshold', adminTimelockDelaySeconds := some delay
        adminProposalSeq := some 0, contractVersion := some 1 } (.multisigInitialized threshold' delay) := by
  unfold initMultisig at run
  simp only [bind_eq_ok, ensure_eq_ok, Host.requireAuth_eq_ok] at run
  obtain ⟨_, fresh, _, _, _, _, _, valid, run⟩ := run
  cases run
  exact ⟨fresh, by omega, rfl⟩

def proposed (host : Host) (proposer : Address) (action : AdminAction) (s : State) : AdminProposal where
  id := proposalSeq s + 1
  action := action
  createdAt := host.timestamp
  executeAfter := min (host.timestamp + timelock s) u64Max
  approvals := [proposer]

theorem proposeAdminAction_ok {proposer : Address} {action : AdminAction} {id : Nat}
    (run : proposeAdminAction host proposer action s = .ok (s', id)) :
    proposer ∈ owners s ∧ s.adminProposal = none ∧
      s' = publish { s with
        adminProposalSeq := some (proposalSeq s + 1), adminProposal := some (proposed host proposer action s) }
        (.adminProposalCreated (proposalSeq s + 1)) := by
  unfold proposeAdminAction at run
  simp only [bind_eq_ok, ensure_eq_ok, Host.requireAuth_eq_ok, u64_eq_ok] at run
  obtain ⟨_, _, _, asserted, _, free, seq, ⟨_, rfl⟩, run⟩ := run
  cases run
  exact ⟨mem_owners_of_assert asserted, free, rfl⟩

theorem proposeAdminAction_of {proposer : Address} (action : AdminAction) (signed : host.authorized proposer = true)
    (owner : proposer ∈ owners s) (free : s.adminProposal = none) (fits : proposalSeq s < u64Max) :
    ∃ s', exec host s (.proposeAdminAction proposer action) = .ok s' := by
  have counted : u64 (s.adminProposalSeq.getD 0 + 1) = .ok (s.adminProposalSeq.getD 0 + 1) :=
    (u64_eq_ok _ _).mpr ⟨by unfold proposalSeq u64Max at fits; omega, rfl⟩
  have signs : host.requireAuth proposer = .ok () := (host.requireAuth_eq_ok _ _).mpr signed
  have fresh : ensure (s.adminProposal = none) "proposal already active" = .ok () := (ensure_eq_ok ..).mpr free
  simp only [exec, proposeAdminAction, signs, assertIsOwner_of_mem owner, fresh, counted, ok_bind]
  exact ⟨_, rfl⟩

theorem approveAdminProposal_ok {approver : Address} {id : Nat} (run : approveAdminProposal host approver id s = .ok s') :
    approver ∈ owners s ∧ ∃ proposal, s.adminProposal = some proposal ∧ proposal.id = id ∧
      (approver ∈ proposal.approvals ∧ s' = s ∨ approver ∉ proposal.approvals ∧
        s' = publish { s with adminProposal := some { proposal with approvals := proposal.approvals ++ [approver] } }
          (.adminProposalApproved id (proposal.approvals ++ [approver]).length)) := by
  unfold approveAdminProposal at run
  simp only [bind_eq_ok, ensure_eq_ok, expect_eq_ok, Host.requireAuth_eq_ok] at run
  obtain ⟨_, _, _, asserted, proposal, held, _, named, run⟩ := run
  refine ⟨mem_owners_of_assert asserted, proposal, held, named, ?_⟩
  split at run
  · rename_i old
    cases run
    exact .inl ⟨old, rfl⟩
  · rename_i new
    cases run
    exact .inr ⟨new, rfl⟩

theorem executeAdminProposal_ok {id : Nat} (run : executeAdminProposal host id s = .ok s') :
    ∃ proposal middle, s.adminProposal = some proposal ∧ proposal.id = id ∧
      threshold s ≤ proposal.approvals.length ∧ proposal.executeAfter ≤ host.timestamp ∧
        performAction proposal.action s = .ok middle ∧
          s' = publish { middle with adminProposal := none } (.adminProposalExecuted id) := by
  unfold executeAdminProposal loadThreshold at run
  simp only [bind_eq_ok, ensure_eq_ok, expect_eq_ok] at run
  obtain ⟨proposal, held, _, named, least, set, _, enough, _, elapsed, middle, performs, run⟩ := run
  cases run
  refine ⟨proposal, middle, held, named, ?_, Nat.le_of_not_lt elapsed, performs, rfl⟩
  rw [threshold, set]
  exact Nat.le_of_not_lt enough

section Actions

variable {action : AdminAction} {middle : State}

structure Performed (s middle : State) : Prop where
  adminProposal : middle.adminProposal = s.adminProposal
  adminProposalSeq : middle.adminProposalSeq = s.adminProposalSeq
  ownersSet : s.adminOwners.isSome = true → middle.adminOwners.isSome = true
  thresholdSet : s.adminThreshold.isSome = true → middle.adminThreshold.isSome = true
  occupied : owners s ≠ [] → owners middle ≠ []

theorem performAction_performed (run : performAction action s = .ok middle) : Performed s middle := by
  cases action with
  | addOwner newOwner =>
    simp only [performAction, loadOwners, bind_eq_ok, expect_eq_ok] at run
    obtain ⟨list, held, run⟩ := run
    cases run
    split
    · exact ⟨rfl, rfl, fun set => set, fun set => set, fun occupied => occupied⟩
    · exact ⟨rfl, rfl, fun _ => rfl, fun set => set, fun _ => by simp [owners]⟩
  | removeOwner owner =>
    simp only [performAction, loadOwners, loadThreshold, bind_eq_ok, expect_eq_ok, ensure_eq_ok] at run
    obtain ⟨list, held, _, remaining, current, set, run⟩ := run
    cases run
    have occupied : list.filter (· ≠ owner) ≠ [] := fun none => remaining (by rw [none]; rfl)
    split
    · exact ⟨rfl, rfl, fun _ => rfl, fun _ => rfl, fun _ => occupied⟩
    · exact ⟨rfl, rfl, fun _ => rfl, fun set => set, fun _ => occupied⟩
  | setThreshold newThreshold =>
    simp only [performAction, loadOwners, bind_eq_ok, expect_eq_ok, ensure_eq_ok] at run
    obtain ⟨list, held, _, _, run⟩ := run
    cases run
    exact ⟨rfl, rfl, fun set => set, fun _ => rfl, fun occupied => occupied⟩
  | setTimelockDelaySeconds delay =>
    cases run
    exact ⟨rfl, rfl, fun set => set, fun set => set, fun occupied => occupied⟩

theorem performAction_proper (proper : 1 ≤ threshold s ∧ threshold s ≤ (owners s).toFinset.card)
    (reachable : Reachable s action) (run : performAction action s = .ok middle) :
    1 ≤ threshold middle ∧ threshold middle ≤ (owners middle).toFinset.card := by
  cases action with
  | addOwner newOwner =>
    simp only [performAction, loadOwners, bind_eq_ok, expect_eq_ok] at run
    obtain ⟨list, held, run⟩ := run
    cases run
    split
    · exact proper
    · refine ⟨proper.1, proper.2.trans (Finset.card_le_card ?_)⟩
      rw [owners, held]
      simp [owners]
  | removeOwner owner =>
    simp only [performAction, loadOwners, loadThreshold, bind_eq_ok, expect_eq_ok, ensure_eq_ok] at run
    obtain ⟨list, held, _, remaining, current, set, run⟩ := run
    cases run
    simp only [Reachable, owners, threshold, held, set, getD_some] at reachable proper
    split
    · simp only [threshold, owners, getD_some]
      omega
    · simp only [threshold, owners, set, getD_some]
      omega
  | setThreshold newThreshold =>
    simp only [performAction, loadOwners, bind_eq_ok, expect_eq_ok, ensure_eq_ok] at run
    obtain ⟨list, held, _, valid, run⟩ := run
    cases run
    refine ⟨?_, reachable⟩
    simp only [threshold, getD_some]
    omega
  | setTimelockDelaySeconds delay =>
    cases run
    exact proper

theorem performAction_of (ownersSet : s.adminOwners.isSome = true) (thresholdSet : s.adminThreshold.isSome = true)
    (executable : Executable s action) : ∃ middle, performAction action s = .ok middle := by
  obtain ⟨list, held⟩ := isSome_iff_exists.mp ownersSet
  obtain ⟨least, set⟩ := isSome_iff_exists.mp thresholdSet
  have loads : loadOwners s = .ok list := (expect_eq_ok ..).mpr held
  cases action with
  | addOwner newOwner =>
    simp only [performAction, loads, ok_bind]
    exact ⟨_, rfl⟩
  | removeOwner owner =>
    obtain ⟨a, mem, other⟩ := executable
    have remains : (list.filter (· ≠ owner)).length ≠ 0 := by
      rw [owners, held] at mem
      exact length_pos_iff_exists_mem.mpr ⟨a, mem_filter.mpr ⟨mem, by simpa using other⟩⟩ |>.ne'
    have loads' : loadThreshold s = .ok least := (expect_eq_ok ..).mpr set
    have passes : ensure ((list.filter (· ≠ owner)).length ≠ 0) "cannot remove last owner" = .ok () :=
      (ensure_eq_ok ..).mpr remains
    simp only [performAction, loads, loads', passes, ok_bind]
    exact ⟨_, rfl⟩
  | setThreshold newThreshold =>
    have valid : ¬ (newThreshold = 0 ∨ list.length < newThreshold) := by
      simp only [Executable, owners, held, getD_some] at executable
      omega
    have passes : ensure (¬ (newThreshold = 0 ∨ list.length < newThreshold)) "invalid threshold" = .ok () :=
      (ensure_eq_ok ..).mpr valid
    simp only [performAction, loads, passes, ok_bind]
    exact ⟨_, rfl⟩
  | setTimelockDelaySeconds delay => exact ⟨_, rfl⟩

end Actions

end Entries

section Histories

structure Active (w : World) (proposal : AdminProposal) : Prop where
  latest : proposal.id = proposalSeq w.state
  nodup : proposal.approvals.Nodup
  endorsed (a : Address) : a ∈ proposal.approvals → a ∈ owners w.state ∧ (proposal.id, a) ∈ w.approved
  unexecuted : proposal.id ∉ w.executed
  created : ∃ createdAt delay, (proposal.id, createdAt, delay) ∈ w.created ∧
    proposal.executeAfter = min (createdAt + delay) u64Max

structure Recorded (w : World) : Prop where
  clock : w.now ≤ u64Max
  blank : w.state.adminOwners = none → w.state.adminProposal = none ∧ w.executed = []
  thresholdSet : w.state.adminOwners.isSome = true → w.state.adminThreshold.isSome = true ∧ owners w.state ≠ []
  active (proposal : AdminProposal) : w.state.adminProposal = some proposal → Active w proposal
  past (id : Nat) : id ∈ w.executed → id ≤ proposalSeq w.state

theorem recorded_deployed : Recorded .deployed where
  clock := Nat.zero_le _
  blank _ := ⟨rfl, rfl⟩
  thresholdSet set := nomatch set
  active _ stored := nomatch stored
  past _ listed := absurd listed not_mem_nil

variable {w : World} {tx : Tx} {s : State}

theorem perform_ok (run : exec tx.host w.state tx.call = .ok s) : perform w tx = w.record tx s := by
  rw [perform, run]

theorem perform_error {panic : Panic} (run : exec tx.host w.state tx.call = .error panic) :
    perform w tx = { w with now := tx.host.timestamp } := by
  rw [perform, run]

section

variable (recorded : Recorded w)

include recorded

theorem Recorded.ticked {now : Nat} (clock : now ≤ u64Max) : Recorded { w with now } where
  clock := clock
  blank := recorded.blank
  thresholdSet := recorded.thresholdSet
  active proposal stored := by
    have active := recorded.active proposal stored
    exact ⟨active.latest, active.nodup, active.endorsed, active.unexecuted, active.created⟩
  past := recorded.past

theorem Recorded.setUp {now threshold' delay : Nat} {list : List Address} {event : Event}
    (clock : now ≤ u64Max) (fresh : w.state.adminOwners = none) (occupied : list ≠ []) :
    Recorded { w with
      now, state := publish { w.state with
        adminOwners := some list, adminThreshold := some threshold', adminTimelockDelaySeconds := some delay
        adminProposalSeq := some 0, contractVersion := some 1 } event } where
  clock := clock
  blank unset := nomatch unset
  thresholdSet _ := ⟨rfl, occupied⟩
  active proposal stored := by
    simp only [publish, (recorded.blank fresh).1] at stored
    cases stored
  past id listed := by
    simp only [(recorded.blank fresh).2] at listed
    cases listed

theorem Recorded.frame {now : Nat} (clock : now ≤ u64Max)
    (owners_same : s.adminOwners = w.state.adminOwners) (threshold_same : s.adminThreshold = w.state.adminThreshold)
    (seq_same : s.adminProposalSeq = w.state.adminProposalSeq) (proposal_same : s.adminProposal = w.state.adminProposal) :
    Recorded { w with now, state := s } where
  clock := clock
  blank unset := by
    simp only [proposal_same]
    exact recorded.blank (owners_same ▸ unset)
  thresholdSet set := by
    simp only [threshold_same, owners, owners_same]
    exact recorded.thresholdSet (owners_same ▸ set)
  active proposal stored := by
    have active := recorded.active proposal (proposal_same ▸ stored)
    refine ⟨?_, active.nodup, ?_, active.unexecuted, active.created⟩
    · simp only [proposalSeq, seq_same]
      exact active.latest
    · simp only [owners, owners_same]
      exact active.endorsed
  past := by
    simp only [proposalSeq, seq_same]
    exact recorded.past

theorem Recorded.perform (ordered : InOrder w tx) : Recorded (perform w tx) := by
  obtain ⟨host, call⟩ := tx
  have clock : host.timestamp ≤ u64Max := ordered.2
  cases run : exec host w.state call with
  | error panic =>
    rw [perform_error run]
    exact recorded.ticked clock
  | ok s =>
    rw [perform_ok run]
    cases call with
    | init admin =>
      obtain ⟨fresh, rfl⟩ := init_ok run
      exact recorded.setUp clock fresh (cons_ne_nil _ _)
    | initMultisig initializer list threshold' delay =>
      obtain ⟨fresh, valid, rfl⟩ := initMultisig_ok run
      exact recorded.setUp clock fresh (length_pos_iff.mp (by omega))
    | upgrade | migrate =>
      obtain ⟨_, _, run⟩ := (bind_eq_ok ..).mp run
      cases run
      exact recorded.frame clock rfl rfl rfl rfl
    | proposeAdminAction proposer action =>
      obtain ⟨⟨s', id⟩, proposes, run⟩ := (bind_eq_ok ..).mp run
      cases run
      obtain ⟨owner, free, rfl⟩ := proposeAdminAction_ok proposes
      refine ⟨clock, fun unset => ?_, recorded.thresholdSet, fun proposal held => ?_, fun id mem => ?_⟩
      · have : owners w.state = [] := by rw [owners, show w.state.adminOwners = none from unset]; rfl
        simp [this] at owner
      · cases held
        refine ⟨rfl, nodup_singleton _, fun a mem => ?_, fun mem => ?_, host.timestamp, timelock w.state, ?_, rfl⟩
        · rw [mem_singleton.mp mem]
          exact ⟨owner, mem_append_right _ mem_cons_self⟩
        · have := recorded.past _ mem
          simp only [proposed] at this
          omega
        · exact mem_append_right _ mem_cons_self
      · exact (recorded.past id mem).trans (Nat.le_succ _)
    | approveAdminProposal approver id =>
      obtain ⟨owner, proposal, held, named, ⟨_, rfl⟩ | ⟨new, rfl⟩⟩ := approveAdminProposal_ok run
      · have active := recorded.active proposal held
        refine ⟨clock, recorded.blank, recorded.thresholdSet, fun found held' => ?_, recorded.past⟩
        obtain rfl := Option.some.inj (held.symm.trans held')
        exact ⟨active.latest, active.nodup, fun a mem =>
          ⟨(active.endorsed a mem).1, mem_append_left _ (active.endorsed a mem).2⟩, active.unexecuted, active.created⟩
      · have active := recorded.active proposal held
        refine ⟨clock, fun unset => ?_, recorded.thresholdSet, fun found held' => ?_, recorded.past⟩
        · have := (recorded.blank unset).1
          simp [held] at this
        · cases held'
          refine ⟨active.latest, ?_, fun a mem => ?_, active.unexecuted, active.created⟩
          · exact nodup_append.mpr ⟨active.nodup, nodup_singleton _, fun a old b here same =>
              new (mem_singleton.mp here ▸ same ▸ old)⟩
          · obtain old | here := mem_append.mp mem
            · exact ⟨(active.endorsed a old).1, mem_append_left _ (active.endorsed a old).2⟩
            · rw [mem_singleton.mp here]
              exact ⟨owner, mem_append_right _ (mem_singleton.mpr (congrArg (·, approver) named))⟩
    | executeAdminProposal id =>
      obtain ⟨proposal, middle, held, named, _, _, performs, rfl⟩ := executeAdminProposal_ok run
      have active := recorded.active proposal held
      have performed := performAction_performed performs
      have set : w.state.adminOwners.isSome = true := by
        cases unset : w.state.adminOwners with
        | some => rfl
        | none => simp [(recorded.blank unset).1] at held
      obtain ⟨thresholdSet, occupied⟩ := recorded.thresholdSet set
      refine ⟨clock, fun unset => ?_, fun _ => ⟨performed.thresholdSet thresholdSet, performed.occupied occupied⟩, nofun, ?_⟩
      · have still := performed.ownersSet set
        rw [show middle.adminOwners = none from unset] at still
        cases still
      · intro other mem
        simp only [proposalSeq, publish, World.record, performed.adminProposalSeq]
        obtain old | here := mem_append.mp mem
        · exact recorded.past other old
        · rw [mem_singleton.mp here, ← named]
          exact active.latest.le

theorem Recorded.authorized : Authorized w tx where
  executed id s made run := by
    rw [made] at run
    obtain ⟨proposal, middle, held, rfl, enough, _⟩ := executeAdminProposal_ok run
    have active := recorded.active proposal held
    exact ⟨⟨proposal.approvals, active.nodup, enough, active.endorsed⟩, active.unexecuted⟩
  upgraded signers newWasmHash s made run := by
    rw [made] at run
    obtain ⟨_, required, _⟩ := (bind_eq_ok ..).mp run
    exact quorum_of_signers required
  migrated signers newVersion s made run := by
    rw [made] at run
    obtain ⟨_, required, _⟩ := (bind_eq_ok ..).mp run
    exact quorum_of_signers required

end

structure Live (w : World) : Prop where
  proper : Proper w.state
  executable (proposal : AdminProposal) : w.state.adminProposal = some proposal →
    Executable w.state proposal.action ∧ proposal.id < u64Max
  fits (id createdAt delay : Nat) : (id, createdAt, delay) ∈ w.created → createdAt + delay ≤ u64Max

theorem live_deployed : Live .deployed where
  proper set := nomatch set
  executable _ stored := nomatch stored
  fits _ _ _ listed := absurd listed not_mem_nil

theorem executable_congr {t : State} {action : AdminAction} (same : t.adminOwners = s.adminOwners) :
    Executable t action ↔ Executable s action := by
  cases action <;> simp only [Executable, owners, same]

theorem Live.frame (live : Live w) {now : Nat} {approved : List (Nat × Address)}
    (owners_same : s.adminOwners = w.state.adminOwners) (threshold_same : s.adminThreshold = w.state.adminThreshold)
    (proposal_same : s.adminProposal = w.state.adminProposal) : Live { w with now, state := s, approved } where
  proper := by
    simp only [Proper, owners, threshold, owners_same, threshold_same]
    exact live.proper
  executable proposal stored := by
    obtain ⟨executable, small⟩ := live.executable proposal (proposal_same ▸ stored)
    exact ⟨(executable_congr owners_same).mpr executable, small⟩
  fits := live.fits

theorem Live.perform (live : Live w) (recorded : Recorded w) (careful : Careful w tx) : Live (perform w tx) := by
  obtain ⟨host, call⟩ := tx
  cases run : exec host w.state call with
  | error panic =>
    rw [perform_error run]
    exact ⟨live.proper, live.executable, live.fits⟩
  | ok s =>
    rw [perform_ok run]
    cases call with
    | init admin =>
      obtain ⟨fresh, rfl⟩ := init_ok run
      refine ⟨fun _ => ⟨le_rfl, by simp [owners, threshold, publish, World.record]⟩, fun proposal held => ?_, live.fits⟩
      simp [(recorded.blank fresh).1, publish, World.record] at held
    | initMultisig initializer list threshold' delay =>
      obtain ⟨fresh, valid, rfl⟩ := initMultisig_ok run
      refine ⟨fun _ => ⟨valid.1, careful fresh⟩, fun proposal held => ?_, live.fits⟩
      simp [(recorded.blank fresh).1, publish, World.record] at held
    | upgrade | migrate =>
      obtain ⟨_, _, run⟩ := (bind_eq_ok ..).mp run
      cases run
      exact live.frame rfl rfl rfl
    | proposeAdminAction proposer action =>
      obtain ⟨⟨s', id⟩, proposes, run⟩ := (bind_eq_ok ..).mp run
      cases run
      obtain ⟨owner, free, rfl⟩ := proposeAdminAction_ok proposes
      obtain ⟨executable, fits, small⟩ := careful owner free
      refine ⟨live.proper, fun proposal held => ?_, fun id createdAt delay mem => ?_⟩
      · cases held
        exact ⟨(executable_congr rfl).mpr executable, small⟩
      · obtain old | here := mem_append.mp mem
        · exact live.fits id createdAt delay old
        · cases mem_singleton.mp here
          exact fits
    | approveAdminProposal approver id =>
      obtain ⟨owner, proposal, held, named, ⟨_, rfl⟩ | ⟨new, rfl⟩⟩ := approveAdminProposal_ok run
      · exact live.frame rfl rfl rfl
      · refine ⟨live.proper, fun found held' => ?_, live.fits⟩
        cases held'
        exact live.executable proposal held
    | executeAdminProposal id =>
      obtain ⟨proposal, middle, held, named, _, _, performs, rfl⟩ := executeAdminProposal_ok run
      refine ⟨fun _ => ?_, nofun, live.fits⟩
      have set : w.state.adminOwners.isSome = true := by
        cases unset : w.state.adminOwners with
        | some => rfl
        | none => simp [(recorded.blank unset).1] at held
      have proper := performAction_proper (live.proper set) (careful proposal held) performs
      exact proper

theorem Live.timely (live : Live w) (recorded : Recorded w) : Timely w tx := by
  intro id s made run
  rw [made] at run
  obtain ⟨proposal, middle, held, rfl, _, elapsed, _⟩ := executeAdminProposal_ok run
  obtain ⟨createdAt, delay, mem, due⟩ := (recorded.active proposal held).created
  have := live.fits _ _ _ mem
  exact ⟨createdAt, delay, mem, by omega⟩

section Slot

theorem Leads.refl (w : World) : Leads w w := ⟨[], .nil, rfl⟩

theorem Leads.next {w' : World} (call : OwnerCall w tx) (rest : Leads (AdminMultisig.perform w tx) w') : Leads w w' := by
  obtain ⟨txs, calls, reaches⟩ := rest
  exact ⟨tx :: txs, .cons call calls, reaches⟩

structure Approving (w w' : World) (proposal : AdminProposal) (approvals : List Address) : Prop where
  now : w'.now = w.now
  owners : w'.state.adminOwners = w.state.adminOwners
  threshold : w'.state.adminThreshold = w.state.adminThreshold
  seq : w'.state.adminProposalSeq = w.state.adminProposalSeq
  active : w'.state.adminProposal = some { proposal with approvals }

def approval (now id : Nat) (a : Address) : Tx := ⟨⟨now, fun _ => true⟩, .approveAdminProposal a id⟩

theorem approveAdminProposal_of (host : Host) {approver : Address} {proposal : AdminProposal}
    (signed : host.authorized approver = true) (owner : approver ∈ owners s) (held : s.adminProposal = some proposal) :
    ∃ events, exec host s (.approveAdminProposal approver proposal.id) = .ok { s with
      adminProposal := some { proposal with approvals :=
        if approver ∈ proposal.approvals then proposal.approvals else proposal.approvals ++ [approver] }
      events } := by
  have signs : host.requireAuth approver = .ok () := (host.requireAuth_eq_ok _ _).mpr signed
  have loads : expect s.adminProposal "no active proposal" = .ok proposal := (expect_eq_ok ..).mpr held
  simp only [exec, approveAdminProposal, signs, assertIsOwner_of_mem owner, loads, ok_bind]
  split
  · refine ⟨s.events, congrArg Except.ok ?_⟩
    rw [← held]
  · exact ⟨_, rfl⟩

theorem all_approve {w w' : World} {proposal : AdminProposal} (signers : List Address) {approvals : List Address}
    (approving : Approving w w' proposal approvals) (are_owners : ∀ a ∈ signers, a ∈ owners w.state)
    (clock : w.now ≤ u64Max) :
    ∃ w'' approvals', Leads w' w'' ∧ Approving w w'' proposal approvals' ∧ approvals ⊆ approvals' ∧ signers ⊆ approvals' := by
  induction signers generalizing w' approvals with
  | nil => exact ⟨w', approvals, .refl w', approving, List.Subset.refl _, nil_subset _⟩
  | cons a signers ih =>
    have owner : a ∈ owners w'.state := by
      rw [owners, approving.owners]
      exact are_owners a mem_cons_self
    obtain ⟨events, run⟩ := approveAdminProposal_of ⟨w.now, fun _ => true⟩ rfl owner approving.active
    have performs : AdminMultisig.perform w' (approval w.now proposal.id a) = w'.record (approval w.now proposal.id a) _ :=
      perform_ok run
    have call : OwnerCall w' (approval w.now proposal.id a) :=
      ⟨⟨approving.now.le, clock⟩, a, owner, .inr (.inl ⟨proposal.id, rfl⟩)⟩
    have approved : Approving w (AdminMultisig.perform w' (approval w.now proposal.id a)) proposal
        (if a ∈ approvals then approvals else approvals ++ [a]) := by
      rw [performs]
      exact ⟨rfl, approving.owners, approving.threshold, approving.seq, rfl⟩
    obtain ⟨w'', approvals', leads, final, more, rest⟩ :=
      ih approved fun b mem => are_owners b (mem_cons_of_mem _ mem)
    have grown : approvals ⊆ approvals' ∧ a ∈ approvals' := by
      split at more
      · rename_i old
        exact ⟨more, more old⟩
      · exact ⟨fun b mem => more (mem_append_left _ mem), more (mem_append_right _ mem_cons_self)⟩
    exact ⟨w'', approvals', leads.next call, final, grown.1, cons_subset.mpr ⟨grown.2, rest⟩⟩

theorem Leads.trans {w' w'' : World} (first : Leads w w') (second : Leads w' w'') : Leads w w'' := by
  obtain ⟨txs, calls, rfl⟩ := first
  induction txs generalizing w with
  | nil => exact second
  | cons tx txs ih =>
    have head : OwnerCall w tx := calls [] tx txs rfl
    have tail : Throughout AdminMultisig.perform (AdminMultisig.perform w tx) OwnerCall txs := by
      rw [← singleton_append] at calls
      exact calls.tail
    exact .next head (ih tail second)

theorem executeAdminProposal_of {proposal : AdminProposal} (now : Nat) (held : s.adminProposal = some proposal)
    (ownersSet : s.adminOwners.isSome = true) (thresholdSet : s.adminThreshold.isSome = true)
    (enough : threshold s ≤ proposal.approvals.length) (due : proposal.executeAfter ≤ now)
    (executable : Executable s proposal.action) :
    ∃ middle, exec ⟨now, fun _ => true⟩ s (.executeAdminProposal proposal.id) =
      .ok (publish { middle with adminProposal := none } (.adminProposalExecuted proposal.id)) ∧ Performed s middle := by
  obtain ⟨middle, performs⟩ := performAction_of ownersSet thresholdSet executable
  obtain ⟨least, set⟩ := isSome_iff_exists.mp thresholdSet
  rw [threshold, set] at enough
  have loads : expect s.adminProposal "no active proposal" = .ok proposal := (expect_eq_ok ..).mpr held
  have loads' : loadThreshold s = .ok least := (expect_eq_ok ..).mpr set
  have passes : ensure (¬ proposal.approvals.length < least) "insufficient approvals" = .ok () :=
    (ensure_eq_ok ..).mpr (Nat.not_lt.mpr enough)
  have elapses : ensure (¬ now < proposal.executeAfter) "timelock not elapsed" = .ok () :=
    (ensure_eq_ok ..).mpr (Nat.not_lt.mpr due)
  refine ⟨middle, ?_, performAction_performed performs⟩
  simp only [exec, executeAdminProposal, loads, loads', passes, elapses, performs, ok_bind]
  rfl

theorem Live.unblocked (live : Live w) (recorded : Recorded w) : Unblocked w := by
  intro set
  obtain ⟨proposal, held⟩ := isSome_iff_exists.mp set
  have initialized : w.state.adminOwners.isSome = true := by
    cases unset : w.state.adminOwners with
    | some => rfl
    | none => simp [(recorded.blank unset).1] at held
  obtain ⟨thresholdSet, occupied⟩ := recorded.thresholdSet initialized
  obtain ⟨executable, small⟩ := live.executable proposal held
  obtain ⟨createdAt, delay, _, due⟩ := (recorded.active proposal held).created
  have start : Approving w w proposal proposal.approvals := ⟨rfl, rfl, rfl, rfl, held⟩
  obtain ⟨w', approvals, leads, approving, _, all⟩ :=
    all_approve (owners w.state) start (fun _ mem => mem) recorded.clock
  have enough : threshold w'.state ≤ approvals.length := by
    have := (live.proper initialized).2
    have : (owners w.state).toFinset.card ≤ approvals.toFinset.card :=
      Finset.card_le_card fun a mem => mem_toFinset.mpr (all (mem_toFinset.mp mem))
    have := approvals.toFinset_card_le
    simp only [threshold, approving.threshold] at *
    omega
  obtain ⟨middle, run, performed⟩ := executeAdminProposal_of (max w.now proposal.executeAfter) approving.active
    (by rw [approving.owners]; exact initialized) (by rw [approving.threshold]; exact thresholdSet) enough
    (le_max_right _ _) ((executable_congr approving.owners).mpr executable)
  obtain ⟨a, owner⟩ := exists_mem_of_ne_nil _ occupied
  let final : Tx := ⟨⟨max w.now proposal.executeAfter, fun _ => true⟩, .executeAdminProposal proposal.id⟩
  have performs : AdminMultisig.perform w' final = w'.record final _ := perform_ok run
  have call : OwnerCall w' final := by
    refine ⟨⟨by rw [approving.now]; exact le_max_left _ _, max_le recorded.clock ?_⟩, a, ?_, .inr (.inr ⟨_, rfl⟩)⟩
    · rw [due]
      exact min_le_right _ _
    · rw [owners, approving.owners]
      exact owner
  refine ⟨_, leads.trans (.next call (.refl _)), ?_⟩
  rw [performs]
  have still : owners w'.state ≠ [] := by
    rw [owners, approving.owners]
    exact occupied
  obtain ⟨b, mem⟩ := exists_mem_of_ne_nil _ (performed.occupied still)
  refine ⟨b, mem, fun host action signed => proposeAdminAction_of action signed mem rfl ?_⟩
  have latest := (recorded.active proposal held).latest
  simp only [proposalSeq, publish, World.record, final, performed.adminProposalSeq, approving.seq] at latest ⊢
  omega

end Slot

theorem recorded_of_inOrder {txs : List Tx} (ordered : Throughout AdminMultisig.perform .deployed InOrder txs) :
    Recorded (txs.foldl AdminMultisig.perform .deployed) :=
  ordered.keeps Recorded recorded_deployed fun _ _ recorded ordered => recorded.perform ordered

theorem live_of_orderly {txs : List Tx} (ordered : Throughout AdminMultisig.perform .deployed InOrder txs)
    (careful : Throughout AdminMultisig.perform .deployed Careful txs) :
    Live (txs.foldl AdminMultisig.perform .deployed) := by
  have both := (ordered.and careful).keeps (fun w => Recorded w ∧ Live w) ⟨recorded_deployed, live_deployed⟩
    fun _ _ ⟨recorded, live⟩ ⟨ordered, careful⟩ => ⟨recorded.perform ordered, live.perform recorded careful⟩
  exact both.2

/-- Executions and upgrades always have their quorum; in a run of careful calls the threshold also stays within reach of
    the different owners, timelocks are kept, and the owners can free the slot. -/
theorem quorum_kept (txs : List Tx) (ordered : Throughout AdminMultisig.perform .deployed InOrder txs) :
    Throughout AdminMultisig.perform .deployed Authorized txs ∧
      (Throughout AdminMultisig.perform .deployed Careful txs →
        Proper (txs.foldl AdminMultisig.perform .deployed).state ∧ Throughout AdminMultisig.perform .deployed Timely txs ∧
          Unblocked (txs.foldl AdminMultisig.perform .deployed)) := by
  constructor
  · intro earlier tx later split
    exact (recorded_of_inOrder (ordered.before split)).authorized
  · intro careful
    have live := live_of_orderly ordered careful
    refine ⟨live.proper, fun earlier tx later split => ?_, live.unblocked (recorded_of_inOrder ordered)⟩
    have before := live_of_orderly (ordered.before split) (careful.before split)
    exact before.timely (recorded_of_inOrder (ordered.before split))

end Histories

def hostAt (timestamp : Nat) : Host := ⟨timestamp, fun _ => true⟩

def exampleRun : List Tx :=
  [⟨hostAt 0, .initMultisig ⟨9⟩ [⟨1⟩, ⟨2⟩] 2 10⟩, ⟨hostAt 5, .proposeAdminAction ⟨1⟩ (.addOwner ⟨3⟩)⟩,
    ⟨hostAt 6, .approveAdminProposal ⟨2⟩ 1⟩, ⟨hostAt 15, .executeAdminProposal 1⟩,
    ⟨hostAt 16, .proposeAdminAction ⟨3⟩ (.removeOwner ⟨1⟩)⟩]

theorem quorum_kept_exampleRun : Throughout perform .deployed Authorized exampleRun ∧
    Proper (exampleRun.foldl perform .deployed).state ∧ Throughout perform .deployed Timely exampleRun ∧
      Unblocked (exampleRun.foldl perform .deployed) := by
  have ordered : Throughout perform .deployed InOrder exampleRun :=
    .cons (by decide +kernel) (.cons (by decide +kernel) (.cons (by decide +kernel) (.cons (by decide +kernel)
      (.cons (by decide +kernel) .nil))))
  obtain ⟨authorized, rest⟩ := quorum_kept exampleRun ordered
  refine ⟨authorized, rest (.cons (fun _ => by decide) (.cons (fun _ _ => ⟨trivial, by decide +kernel, by decide +kernel⟩)
    (.cons trivial (.cons ?_ (.cons (fun _ _ => ⟨⟨⟨2⟩, by decide +kernel, by decide⟩, by decide +kernel, by decide +kernel⟩)
      .nil)))))⟩
  intro proposal stored
  cases stored
  trivial

theorem not_proper : Throughout perform .deployed InOrder [⟨hostAt 0, .initMultisig ⟨9⟩ [⟨1⟩, ⟨1⟩] 2 0⟩] ∧
    ¬ Proper (([⟨hostAt 0, .initMultisig ⟨9⟩ [⟨1⟩, ⟨1⟩] 2 0⟩] : List Tx).foldl perform .deployed).state := by
  refine ⟨.cons (by decide) .nil, fun proper => ?_⟩
  exact absurd (proper rfl).2 (by decide)

end SubTrackr.AdminMultisig

import SubTrackr.AccessControl.Membership

namespace SubTrackr.AccessControl

open List Lib Soroban

def proposalCount (s : State) : Nat := s.multisigProposalCount.getD 0

inductive ProposalEffect (host : Host) (call : Call) (s s' : State) (id : Nat) : Prop where
  | kept (same : s'.multisigProposal id = s.multisigProposal id)
      (counted : proposalCount s ≤ proposalCount s' ∨ s.emergencyAdmin = none)
      (quiet : call ≠ .executeMultisigAction id)
  | proposed {proposer : Address} {action : MultisigAction} (made : call = .proposeMultisigAction proposer action)
      (signed : host.authorized proposer = true) (holds : Holds s proposer .grantRole) (new : id = proposalCount s + 1)
      (counted : s'.multisigProposalCount = some id) (saved : s'.multisigProposal id = some
        { id, action, proposer, createdAt := host.timestamp
          executeAfter := min (host.timestamp + s.multisigTimelock.getD defaultMultisigTimelock) u64Max
          approvals := [proposer], executed := false })
  | approved {approver : Address} {proposal : MultisigProposal} (made : call = .approveMultisigAction approver id)
      (signed : host.authorized approver = true) (holds : Holds s approver .grantRole)
      (stored : s.multisigProposal id = some proposal) (new : approver ∉ proposal.approvals)
      (counted : s'.multisigProposalCount = s.multisigProposalCount)
      (saved : s'.multisigProposal id = some { proposal with approvals := proposal.approvals ++ [approver] })
  | executed {proposal : MultisigProposal} (made : call = .executeMultisigAction id)
      (stored : s.multisigProposal id = some proposal) (pending : proposal.executed = false)
      (enough : s.multisigThreshold.getD defaultMultisigThreshold ≤ proposal.approvals.length)
      (elapsed : proposal.executeAfter ≤ host.timestamp) (counted : s'.multisigProposalCount = s.multisigProposalCount)
      (saved : s'.multisigProposal id = some { proposal with executed := true })

def DefaultTimelock (s : State) : Prop := s.multisigTimelock.getD defaultMultisigTimelock = defaultMultisigTimelock

theorem exec_proposals {host : Host} {call : Call} {s s' : State} (run : exec ⟨host, call⟩ s = .ok s') (id : Nat) :
    ProposalEffect host call s s' id ∧ (DefaultTimelock s → DefaultTimelock s') := by
  have run := exec_ran run
  cases call with
  | initializeAccessControl admin emergencyAdmin =>
    obtain ⟨fresh, same⟩ := initializeAccessControl_ok run
    rw [same]
    exact ⟨.kept rfl (.inr fresh) (by simp), fun _ => rfl⟩
  | grantRole caller user role =>
    obtain ⟨_, _, ⟨_, same⟩ | ⟨_, same⟩⟩ := grantRole_ok run
    all_goals rw [same]
    all_goals exact ⟨.kept rfl (.inl le_rfl) (by simp), fun kept => kept⟩
  | revokeRole caller user role =>
    obtain ⟨_, _, _, same⟩ := revokeRole_ok run
    rw [same]
    exact ⟨.kept rfl (.inl le_rfl) (by simp), fun kept => kept⟩
  | hasPermission user perm =>
    rw [run, hasPermission_state]
    exact ⟨.kept rfl (.inl le_rfl) (by simp), fun kept => kept⟩
  | delegatePermission =>
    rw [delegatePermission_ok run]
    exact ⟨.kept rfl (.inl le_rfl) (by simp), fun kept => kept⟩
  | revokeDelegation =>
    rw [revokeDelegation_ok run]
    exact ⟨.kept rfl (.inl le_rfl) (by simp), fun kept => kept⟩
  | setEmergencyAdmin =>
    rw [(setEmergencyAdmin_ok run).2]
    exact ⟨.kept rfl (.inl le_rfl) (by simp), fun kept => kept⟩
  | pauseEmergency =>
    rw [pauseEmergency_ok run]
    exact ⟨.kept rfl (.inl le_rfl) (by simp), fun kept => kept⟩
  | unpauseEmergency =>
    rw [unpauseEmergency_ok run]
    exact ⟨.kept rfl (.inl le_rfl) (by simp), fun kept => kept⟩
  | proposeMultisigAction proposer action =>
    obtain ⟨n, run⟩ := run
    obtain ⟨signed, holds, rfl, same⟩ := proposeMultisigAction_ok run
    rw [same]
    refine ⟨?_, fun kept => kept⟩
    by_cases here : id = proposalCount s + 1
    · subst here
      exact .proposed rfl signed holds rfl rfl (put_self ..)
    · exact .kept (put_of_ne _ _ here) (.inl (Nat.le_succ _)) (by simp)
  | approveMultisigAction approver n =>
    obtain ⟨proposal, signed, holds, held, _, new, same⟩ := approveMultisigAction_ok run
    rw [same]
    refine ⟨?_, fun kept => kept⟩
    by_cases here : id = n
    · subst here
      exact .approved rfl signed holds held new rfl (put_self ..)
    · exact .kept (put_of_ne _ _ here) (.inl le_rfl) (by simp)
  | executeMultisigAction n =>
    obtain ⟨proposal, held, pending, enough, elapsed, same⟩ := executeMultisigAction_ok run
    rw [same]
    refine ⟨?_, fun kept => kept⟩
    by_cases here : id = n
    · subst here
      exact .executed rfl held pending enough elapsed rfl (put_self ..)
    · exact .kept (put_of_ne _ _ here) (.inl le_rfl) (by simpa using fun same => here same.symm)

def Proposes (r : Receipt Tx State) (id : Nat) : Prop :=
  (∃ proposer action, r.tx.call = .proposeMultisigAction proposer action) ∧ r.after.multisigProposalCount = some id

/-- `a` signs for proposal `id`, and may: the proposer is the first to approve. -/
structure Approves (r : Receipt Tx State) (id : Nat) (a : Address) : Prop where
  signed : r.tx.host.authorized a = true
  holds : Holds r.before a .grantRole
  made : r.tx.call = .approveMultisigAction a id ∨
    (∃ action, r.tx.call = .proposeMultisigAction a action) ∧ r.after.multisigProposalCount = some id

/-- `a` has approved, and in `s` still may, or an admin has revoked the role since. -/
def Endorsed (history : List (Receipt Tx State)) (s : State) (id : Nat) (a : Address) : Prop :=
  ∃ (j : Nat) (r : Receipt Tx State), history[j]? = some r ∧ Approves r id a ∧ (Holds s a .grantRole ∨
    ∃ (k : Nat) (later : Receipt Tx State) (caller : Address), j < k ∧ history[k]? = some later ∧
      later.tx.call = .revokeRole caller a .admin)

section Endorsements

variable {history : List (Receipt Tx State)} {tx : Tx} {s s' : State} {id : Nat} {a : Address}

theorem grantRole_admin (role : Role) (gives : .grantRole ∈ rolePermissions role) : role = .admin := by
  cases role with
  | admin => rfl
  | _ => exact absurd gives (by decide)

theorem holds_or_revoked (consistent : Consistent s) (run : exec tx s = .ok s') (holds : Holds s a .grantRole) :
    Holds s' a .grantRole ∨ ∃ caller, tx.call = .revokeRole caller a .admin := by
  obtain ⟨caller, role, made, gives⟩ | kept := holds.kept consistent (exec_roles run).1
  · exact .inr ⟨caller, grantRole_admin role gives ▸ made⟩
  · exact .inl kept

theorem Endorsed.step (endorsed : Endorsed history s id a) (consistent : Consistent s) (run : exec tx s = .ok s') :
    Endorsed (history ++ [⟨tx, s, s'⟩]) s' id a := by
  obtain ⟨j, r, found, approves, standing⟩ := endorsed
  have bound : j < history.length := (List.getElem?_eq_some_iff.mp found).1
  refine ⟨j, r, ?_, approves, ?_⟩
  · rw [List.getElem?_append_left bound]
    exact found
  · obtain holds | ⟨k, later, caller, after, read, revoked⟩ := standing
    · obtain kept | ⟨caller, revoked⟩ := holds_or_revoked consistent run holds
      · exact .inl kept
      · exact .inr ⟨history.length, _, caller, bound, List.getElem?_concat_length, revoked⟩
    · refine .inr ⟨k, later, caller, after, ?_, revoked⟩
      rw [List.getElem?_append_left (List.getElem?_eq_some_iff.mp read).1]
      exact read

theorem Approves.endorsed (approves : Approves ⟨tx, s, s'⟩ id a) (consistent : Consistent s)
    (run : exec tx s = .ok s') : Endorsed (history ++ [⟨tx, s, s'⟩]) s' id a := by
  refine ⟨history.length, _, List.getElem?_concat_length, approves, ?_⟩
  obtain kept | ⟨caller, revoked⟩ := holds_or_revoked consistent run approves.holds
  · exact .inl kept
  · have made := approves.made
    rw [revoked] at made
    simp at made

end Endorsements

structure Recorded (history : List (Receipt Tx State)) (s : State) (id : Nat) (proposal : MultisigProposal) : Prop where
  counted : id ≤ proposalCount s
  nodup : proposal.approvals.Nodup
  approved : proposal.approvals ≠ []
  endorsed : ∀ a ∈ proposal.approvals, Endorsed history s id a
  proposed : ∃ r ∈ history, Proposes r id ∧
    proposal.executeAfter = min (r.tx.host.timestamp + defaultMultisigTimelock) u64Max
  pending : proposal.executed = false → ∀ r ∈ history, r.tx.call ≠ .executeMultisigAction id

structure Traced (history : List (Receipt Tx State)) (s : State) (id : Nat) : Prop where
  stored : ∀ proposal, s.multisigProposal id = some proposal → Recorded history s id proposal
  unstored : s.multisigProposal id = none → ∀ r ∈ history, r.tx.call ≠ .executeMultisigAction id

section Step

variable {history : List (Receipt Tx State)} {host : Host} {call : Call} {s s' : State} {id : Nat}

theorem append_quiet {other : Call} (quiet : ∀ r ∈ history, r.tx.call ≠ other) (last : call ≠ other) :
    ∀ r ∈ history ++ [⟨⟨host, call⟩, s, s'⟩], r.tx.call ≠ other := by
  intro r mem
  obtain earlier | here := mem_append.mp mem
  · exact quiet r earlier
  · rw [mem_singleton.mp here]
    exact last

theorem Recorded.propose {action : MultisigAction} {proposer : Address} {createdAt executeAfter : Nat}
    (consistent : Consistent s) (run : exec ⟨host, call⟩ s = .ok s')
    (quiet : ∀ r ∈ history, r.tx.call ≠ .executeMultisigAction id)
    (made : call = .proposeMultisigAction proposer action) (approves : Approves ⟨⟨host, call⟩, s, s'⟩ id proposer)
    (counted : s'.multisigProposalCount = some id)
    (due : executeAfter = min (host.timestamp + defaultMultisigTimelock) u64Max) :
    Recorded (history ++ [⟨⟨host, call⟩, s, s'⟩]) s' id
      ⟨id, action, proposer, createdAt, executeAfter, [proposer], false⟩ where
  counted := by simp [proposalCount, counted]
  nodup := nodup_singleton proposer
  approved := cons_ne_nil _ _
  endorsed a listed := mem_singleton.mp listed ▸ approves.endorsed consistent run
  proposed := ⟨_, mem_append_right _ (.head _), ⟨⟨proposer, action, made⟩, counted⟩, due⟩
  pending _ := append_quiet quiet (by simp [made])

theorem Recorded.carry {proposal next : MultisigProposal} (recorded : Recorded history s id proposal)
    (consistent : Consistent s) (run : exec ⟨host, call⟩ s = .ok s') (counted : proposalCount s ≤ proposalCount s')
    (approvals : next.approvals = proposal.approvals) (due : next.executeAfter = proposal.executeAfter)
    (pending : next.executed = false → proposal.executed = false ∧ call ≠ .executeMultisigAction id) :
    Recorded (history ++ [⟨⟨host, call⟩, s, s'⟩]) s' id next where
  counted := recorded.counted.trans counted
  nodup := approvals ▸ recorded.nodup
  approved := approvals ▸ recorded.approved
  endorsed a listed := (recorded.endorsed a (approvals ▸ listed)).step consistent run
  proposed := by
    obtain ⟨r, listed, proposes, executeAfter⟩ := recorded.proposed
    exact ⟨r, mem_append_left _ listed, proposes, due.trans executeAfter⟩
  pending unexecuted := append_quiet (recorded.pending (pending unexecuted).1) (pending unexecuted).2

theorem Recorded.approve {proposal : MultisigProposal} {approver : Address} (recorded : Recorded history s id proposal)
    (new : approver ∉ proposal.approvals) (endorsed : Endorsed history s id approver) :
    Recorded history s id { proposal with approvals := proposal.approvals ++ [approver] } where
  counted := recorded.counted
  nodup := by
    refine nodup_append.mpr ⟨recorded.nodup, nodup_singleton approver, ?_⟩
    intro a old b here same
    exact new (mem_singleton.mp here ▸ same ▸ old)
  approved := append_ne_nil_of_left_ne_nil recorded.approved _
  endorsed := by
    intro a mem
    obtain old | here := mem_append.mp mem
    · exact recorded.endorsed a old
    · rw [mem_singleton.mp here]
      exact endorsed
  proposed := recorded.proposed
  pending := recorded.pending

theorem Traced.unused (traced : Traced history s id) (new : proposalCount s < id) : s.multisigProposal id = none := by
  cases held : s.multisigProposal id with
  | none => rfl
  | some proposal =>
    have old := (traced.stored proposal held).counted
    omega

theorem Traced.saved {proposal : MultisigProposal} (saved : s.multisigProposal id = some proposal)
    (recorded : Recorded history s id proposal) : Traced history s id where
  stored other read := by
    obtain rfl := Option.some.inj (saved.symm.trans read)
    exact recorded
  unstored empty := by simp [saved] at empty

theorem Traced.step (traced : Traced history s id) (consistent : Consistent s) (timelock : DefaultTimelock s)
    (run : exec ⟨host, call⟩ s = .ok s') : Traced (history ++ [⟨⟨host, call⟩, s, s'⟩]) s' id := by
  cases (exec_proposals run id).1 with
  | kept same counted quiet =>
    refine ⟨fun proposal held => ?_, fun unstored => ?_⟩
    · rw [same] at held
      have more : proposalCount s ≤ proposalCount s' := by
        obtain more | unset := counted
        · exact more
        · rw [(consistent.dormant unset).2 id] at held
          cases held
      exact (traced.stored proposal held).carry consistent run more rfl rfl fun pending => ⟨pending, quiet⟩
    · rw [same] at unstored
      exact append_quiet (traced.unstored unstored) quiet
  | proposed made signed holds new counted saved =>
    have quiet := traced.unstored (traced.unused (by omega))
    have approves : Approves ⟨⟨host, call⟩, s, s'⟩ id _ := ⟨signed, holds, .inr ⟨⟨_, made⟩, counted⟩⟩
    exact .saved saved (.propose consistent run quiet made approves counted (by rw [timelock]))
  | approved made signed holds held new counted saved =>
    have more : proposalCount s ≤ proposalCount s' := by simp [proposalCount, counted]
    have carried := (traced.stored _ held).carry consistent run more rfl rfl fun pending => ⟨pending, by simp [made]⟩
    have approves : Approves ⟨⟨host, call⟩, s, s'⟩ id _ := ⟨signed, holds, .inl made⟩
    exact .saved saved (carried.approve new (approves.endorsed consistent run))
  | executed made held pending enough elapsed counted saved =>
    have more : proposalCount s ≤ proposalCount s' := by simp [proposalCount, counted]
    exact .saved saved ((traced.stored _ held).carry consistent run more rfl rfl fun unexecuted => nomatch unexecuted)

end Step

section Runs

variable {guard : World → Tx → Prop} {w : World}

theorem traced_reachable (reached : Reachable guard w) :
    DefaultTimelock w.state ∧ ∀ id, Traced w.history w.state id := by
  refine reached.invariant (I := fun w => DefaultTimelock w.state ∧ ∀ id, Traced w.history w.state id) ?_ ?_ ?_
  · intro s deployed
    rw [deployed]
    exact ⟨rfl, fun id => ⟨(fun proposal held => nomatch held), fun _ _ mem => absurd mem not_mem_nil⟩⟩
  · exact fun _ _ _ _ holds => holds
  · intro w tx s here _ run holds
    obtain ⟨timelock, traced⟩ := holds
    have consistent := consistent_reachable here
    exact ⟨(exec_proposals run 0).2 timelock, fun id => (traced id).step consistent timelock run⟩

theorem executed_recorded (reached : Reachable guard w) {i : Nat} {r : Receipt Tx State} {id : Nat}
    (found : w.history[i]? = some r) (executes : r.tx.call = .executeMultisigAction id) :
    ∃ proposal, Recorded (w.history.take i) r.before id proposal ∧ proposal.executed = false ∧
      r.before.multisigThreshold.getD defaultMultisigThreshold ≤ proposal.approvals.length ∧
      proposal.executeAfter ≤ r.tx.host.timestamp := by
  obtain ⟨v, here, _, state, history, run⟩ := reached.receiptAt i r found
  have traced := (traced_reachable here).2 id
  rw [state, history] at traced
  obtain ⟨⟨host, call⟩, before, after⟩ := r
  cases executes
  obtain ⟨proposal, held, pending, enough, elapsed, _⟩ := executeMultisigAction_ok (exec_ran run)
  exact ⟨proposal, traced.stored proposal held, pending, enough, elapsed⟩

theorem executed_first (reached : Reachable guard w) {i j : Nat} {r other : Receipt Tx State} {id : Nat}
    (found : w.history[i]? = some r) (executes : r.tx.call = .executeMultisigAction id)
    (again : w.history[j]? = some other) (same : other.tx.call = .executeMultisigAction id) : i ≤ j := by
  by_contra before
  obtain ⟨proposal, recorded, pending, _⟩ := executed_recorded reached found executes
  refine recorded.pending pending other (mem_iff_getElem?.mpr ⟨j, ?_⟩) same
  rw [getElem?_take_of_lt (Nat.lt_of_not_le before)]
  exact again

/-- An executed proposal has its approvals and its age, and is executed only once. -/
theorem proposals_executed (reached : Reachable guard w) (i : Nat) (r : Receipt Tx State) (id : Nat)
    (found : w.history[i]? = some r) (executes : r.tx.call = .executeMultisigAction id) :
    (∃ approvers : List Address, approvers.Nodup ∧ approvers ≠ [] ∧
      r.before.multisigThreshold.getD defaultMultisigThreshold ≤ approvers.length ∧
      ∀ a ∈ approvers, Endorsed (w.history.take i) r.before id a) ∧
    (∃ proposal ∈ w.history.take i, Proposes proposal id ∧
      min (proposal.tx.host.timestamp + defaultMultisigTimelock) u64Max ≤ r.tx.host.timestamp) ∧
    ∀ j other, w.history[j]? = some other → other.tx.call = .executeMultisigAction id → j = i := by
  obtain ⟨proposal, recorded, _, enough, elapsed⟩ := executed_recorded reached found executes
  refine ⟨⟨proposal.approvals, recorded.nodup, recorded.approved, enough, recorded.endorsed⟩, ?_, ?_⟩
  · obtain ⟨made, listed, proposes, due⟩ := recorded.proposed
    exact ⟨made, listed, proposes, due ▸ elapsed⟩
  · intro j other again same
    exact Nat.le_antisymm (executed_first reached again same found executes)
      (executed_first reached found executes again same)

end Runs

def jointRun : World := trial
  [(0, [⟨1⟩], .initializeAccessControl ⟨1⟩ ⟨3⟩), (1, [⟨1⟩], .grantRole ⟨1⟩ ⟨2⟩ .admin),
    (2, [⟨1⟩], .proposeMultisigAction ⟨1⟩ (.setEmergencyAdmin ⟨4⟩)), (3, [⟨2⟩], .approveMultisigAction ⟨2⟩ 1),
    (86402, [], .executeMultisigAction 1)]

theorem proposals_executed_jointRun : ∃ r, jointRun.history[4]? = some r ∧ ∃ approvers : List Address,
    approvers.Nodup ∧ 2 ≤ approvers.length ∧ ∀ a ∈ approvers, Endorsed (jointRun.history.take 4) r.before 1 a := by
  have reached : Reachable (Ledger.inOrder contract) jointRun := trial_inOrder (by decide)
  have facts : (jointRun.history[4]?.map fun r => (r.tx.call, r.before.multisigThreshold)) =
      some (.executeMultisigAction 1, some 2) := by decide +kernel
  obtain ⟨r, found, facts⟩ := Option.map_eq_some_iff.mp facts
  simp only [Prod.mk.injEq] at facts
  obtain ⟨⟨approvers, nodup, _, enough, endorsed⟩, _⟩ := proposals_executed reached 4 r 1 found facts.1
  rw [facts.2] at enough
  exact ⟨r, found, approvers, nodup, enough, endorsed⟩

def revokedRun : World := trial
  [(0, [⟨1⟩], .initializeAccessControl ⟨1⟩ ⟨3⟩), (1, [⟨1⟩], .grantRole ⟨1⟩ ⟨2⟩ .admin),
    (2, [⟨1⟩], .proposeMultisigAction ⟨1⟩ (.setEmergencyAdmin ⟨4⟩)), (3, [⟨2⟩], .approveMultisigAction ⟨2⟩ 1),
    (4, [⟨1⟩], .revokeRole ⟨1⟩ ⟨2⟩ .admin), (86402, [], .executeMultisigAction 1)]

theorem approver_revoked : Reachable (Ledger.inOrder contract) revokedRun ∧
    ¬ ∀ i r id, revokedRun.history[i]? = some r → r.tx.call = .executeMultisigAction id →
      ∃ approvers : List Address, approvers.Nodup ∧ approvers ≠ [] ∧
        r.before.multisigThreshold.getD defaultMultisigThreshold ≤ approvers.length ∧
        ∀ a ∈ approvers, (∃ e ∈ revokedRun.history.take i, Approves e id a) ∧ Holds r.before a .grantRole := by
  have reached : Reachable (Ledger.inOrder contract) revokedRun := trial_inOrder (by decide)
  refine ⟨reached, fun every => ?_⟩
  have facts : (revokedRun.history[5]?.map fun r => (r.tx.call, r.before.multisigThreshold,
      getRoleMembers r.before .admin)) = some (.executeMultisigAction 1, some 2, [⟨1⟩]) := by decide +kernel
  obtain ⟨r, found, facts⟩ := Option.map_eq_some_iff.mp facts
  simp only [Prod.mk.injEq] at facts
  obtain ⟨executes, threshold, admins⟩ := facts
  obtain ⟨approvers, nodup, _, enough, approved⟩ := every 5 r 1 found executes
  obtain ⟨v, here, _, state, _⟩ := reached.receiptAt 5 r found
  have consistent := consistent_reachable here
  rw [state] at consistent
  -- whoever holds the permission is an admin, and there is one
  have only : approvers ⊆ [⟨1⟩] := by
    intro a listed
    obtain ⟨role, has, gives⟩ := mem_getUserPermissions.mp (approved a listed).2
    rw [grantRole_admin role gives] at has
    exact admins ▸ (consistent.tables.mem_iff .admin a).mpr has
  have one : approvers.length ≤ 1 := (subperm_of_subset nodup only).length_le
  rw [threshold] at enough
  exact absurd (Nat.le_trans enough one) (by decide)

end SubTrackr.AccessControl

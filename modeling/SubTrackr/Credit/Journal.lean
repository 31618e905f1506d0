import SubTrackr.Credit.Effects

namespace SubTrackr.Credit

open List Lib Soroban

/-- Before `initialize` nothing can be issued, so that it finds no ids handed out. -/
def Dormant (s : State) : Prop :=
  s.admin = none → count s.toAccounts = 0 ∧ ∀ a, (account s.toAccounts a).lots = []

section Dormant

variable {env : Env} {call : Call} {s s' : State} {a : Address}

theorem Updated.idle {t t' : Accounts} (updated : Updated env call t t' a) (none : ∀ b, (account t b).lots = [])
    (ungranted : ∀ kind amount, call.Posts a kind amount → ¬ kind.Grants) :
    count t' = count t ∧ ∀ b, (account t' b).lots = [] := by
  rcases updated.posting with ⟨txs, posting, posts⟩
  have nothing {credit : AccountCredit} (empty : credit.lots = []) : spendableCredit env.timestamp credit = 0 ∧
      lapsedCredit env.timestamp credit = 0 := by
    unfold spendableCredit lapsedCredit
    rw [empty]
    exact ⟨rfl, rfl⟩
  have still {n m : Nat} {mid : AccountCredit} {lost : List CreditTransaction}
      (realised : Realised env n (account t a) lost mid m) : m = n ∧ mid.lots = [] := by
    cases realised with
    | nothing => exact ⟨rfl, none a⟩
    | expired some =>
      have zero := (nothing (none a)).2
      omega
  have here : count t' = count t ∧ (account t' a).lots = [] := by
    generalize account t' a = after at posting
    generalize count t' = m at posting
    cases posting with
    | policy => exact ⟨rfl, none a⟩
    | realised realised => exact still realised
    | granted _ grants => exact absurd grants (ungranted _ _ (posts _ (mem_append_right _ (.head _))))
    | spent realised _ pos =>
      have zero := (nothing (still realised).2).1
      omega
  refine ⟨here.1, fun b => ?_⟩
  by_cases same : b = a
  · rw [same]
    exact here.2
  · rw [updated.others b same]
    exact none b

theorem dormant_step (keyed : Keyed s.toAccounts) (dormant : Dormant s) (run : exec ⟨env, call⟩ s = .ok s') :
    Dormant s' := by
  intro unset
  have unaccounted (same : s'.toAccounts = s.toAccounts ∧ s'.admin = s.admin) :
      count s'.toAccounts = 0 ∧ ∀ b, (account s'.toAccounts b).lots = [] := by
    rw [same.1]
    exact dormant (same.2.symm.trans unset)
  have idle {a : Address} (updated : Updated env call s.toAccounts s'.toAccounts a) (rest : KeepsRest s s')
      (ungranted : ∀ kind amount, call.Posts a kind amount → ¬ kind.Grants) :
      count s'.toAccounts = 0 ∧ ∀ b, (account s'.toAccounts b).lots = [] := by
    rcases dormant (rest.2.symm.trans unset) with ⟨zero, none⟩
    rcases updated.idle none ungranted with ⟨same, still⟩
    exact ⟨same.trans zero, still⟩
  have run := exec_ran run
  cases call with
  | initializeCredit admin =>
    obtain ⟨_, rfl⟩ := initializeCredit_ok run
    cases unset
  | setExpirationPolicy =>
    rcases setExpirationPolicy_ok keyed run with ⟨updated, rest⟩
    refine idle updated rest fun kind amount posts => ?_
    cases posts
    exact fun grants => by cases grants
  | issueCredit =>
    obtain ⟨_, issued⟩ := run
    have same := (issueCredit_ok keyed issued).2.2
    simp only [issueCredit, requireAdmin, bind_eq_ok, present_eq_ok] at issued
    rcases issued with ⟨admin, set, _⟩
    cases unset.symm.trans (same.trans set)
  | applyCredit =>
    obtain ⟨_, applied⟩ := run
    rcases applyCredit_ok keyed applied with ⟨updated, rest, _⟩
    refine idle updated rest fun kind amount posts => ?_
    cases posts <;> exact fun grants => by cases grants
  | transferCredit sender =>
    rcases transferCredit_ok keyed run with ⟨rest, middle, moved⟩
    have none := (dormant (rest.2.symm.trans unset)).2 sender
    have enough := moved.enough
    have pos := moved.positive
    unfold spendableCredit at enough
    rw [none, total_nil] at enough
    omega
  | expireCredits =>
    obtain ⟨_, expired⟩ := run
    rcases expireCredits_ok keyed expired with ⟨updated, _, rest⟩
    refine idle updated rest fun kind amount posts => ?_
    cases posts
    exact fun grants => by cases grants
  | expireCreditsWithCron =>
    obtain ⟨_, cron⟩ := run
    obtain ⟨set, _, _, rfl⟩ := expireCreditsWithCron_ok cron
    exact absurd unset set
  | createWallet =>
    obtain ⟨_, created⟩ := run
    obtain ⟨set, same, _⟩ := createWallet_accounts created
    exact absurd (same.symm.trans unset) set
  | deposit | withdraw | drawdown =>
    obtain ⟨_, _, _, rfl⟩ := run
    exact unaccounted ⟨rfl, rfl⟩

end Dormant

def recordedIn (r : Receipt Tx State) (a : Address) : List CreditTransaction :=
  (account r.after.toAccounts a).transactions.filter fun tx => count r.before.toAccounts ≤ tx.id

/-- Every transaction recorded for an account, of which the account keeps the latest. -/
def journal (history : List (Receipt Tx State)) (a : Address) : List CreditTransaction :=
  history.flatMap fun r => recordedIn r a

inductive Call.Grants : Call → Address → Int → Prop where
  | issue {a amount reason expiresAt} : Grants (.issueCredit a amount reason expiresAt) a amount
  | transfer {sender a amount reason} : Grants (.transferCredit sender a amount reason) a amount

def IssuedAs (history : List (Receipt Tx State)) (a : Address) (lot : CreditLot) (amount : Int) : Prop :=
  ∃ r ∈ history, r.tx.call.Grants a amount ∧ count r.before.toAccounts ≤ lot.id ∧ lot.id < count r.after.toAccounts

def InIssueOrder (x y : CreditLot) : Prop := x.id < y.id ∧ x.issuedAt ≤ y.issuedAt

section Account

variable {env : Env} {n m low high : Nat} {credit credit' : AccountCredit} {txs : List CreditTransaction}

theorem filter_recorded {old new : List CreditTransaction} (older : ∀ tx ∈ old, tx.id < n)
    (newer : ∀ tx ∈ new, n ≤ tx.id) (short : new.length ≤ 128) :
    (trim (old ++ new)).filter (fun tx => n ≤ tx.id) = new := by
  have kept := trim_concat old short
  have none : (old.drop ((old ++ new).length - 128)).filter (fun tx => n ≤ tx.id) = [] := by
    apply filter_eq_nil_iff.mpr
    intro tx mem
    have before := older tx (mem_of_mem_drop mem)
    simp only [decide_eq_true_eq]
    omega
  have all : new.filter (fun tx => n ≤ tx.id) = new := by
    apply filter_eq_self.mpr
    intro tx mem
    exact decide_eq_true (newer tx mem)
  rw [kept, filter_append, none, all, nil_append]

theorem sorted_of_stubs {lots lots' : List CreditLot} (same : lots'.map CreditLot.stub = lots.map CreditLot.stub)
    (sorted : lots.Pairwise InIssueOrder) : lots'.Pairwise InIssueOrder := by
  have order (lots : List CreditLot) : lots.Pairwise InIssueOrder ↔
      (lots.map CreditLot.stub).Pairwise fun x y => x.1 < y.1 ∧ x.2.1 ≤ y.2.1 := by
    rw [pairwise_map]
    exact Iff.rfl
  rw [order, same, ← order]
  exact sorted

theorem Posting.past {past : Nat} (posting : Posting env n credit txs credit' m) (order : past ≤ env.timestamp)
    (least : low ≤ n) (most : m ≤ high) (earlier : ∀ lot ∈ credit.lots, lot.id < low ∧ lot.issuedAt ≤ past) :
    ∀ lot ∈ credit'.lots, lot.id < high ∧ lot.issuedAt ≤ env.timestamp := by
  intro lot mem
  have counted := posting.ids.1
  have stubbed : lot.stub ∈ credit'.lots.map CreditLot.stub := mem_map_of_mem mem
  have old (member : lot.stub ∈ credit.lots.map CreditLot.stub) : lot.id < high ∧ lot.issuedAt ≤ env.timestamp := by
    rcases mem_map.mp member with ⟨mine, known, same⟩
    have bounds := earlier mine known
    have sameId : mine.id = lot.id := congrArg (·.1) same
    have sameTime : mine.issuedAt = lot.issuedAt := congrArg (·.2.1) same
    omega
  rcases posting.stubs with same | ⟨id, expiresAt, _, below, same⟩
  · rw [same] at stubbed
    exact old stubbed
  · rw [same] at stubbed
    rcases mem_append.mp stubbed with known | new
    · exact old known
    · have stub := mem_singleton.mp new
      have sameId : lot.id = id := congrArg (·.1) stub
      have sameTime : lot.issuedAt = env.timestamp := congrArg (·.2.1) stub
      omega

end Account

/-- What holds of an account along a run: the three views of its credit agree, and its lots stand in the order of
    issue. -/
structure Kept (w : World) (a : Address) : Prop where
  balanced : Balanced (account w.state.toAccounts a)
  recorded : (account w.state.toAccounts a).transactions = trim (journal w.history a)
  balance : (account w.state.toAccounts a).balance = amounts (journal w.history a)
  ids : ∀ tx ∈ journal w.history a, tx.id < count w.state.toAccounts
  issued : ∀ lot ∈ (account w.state.toAccounts a).lots, lot.id < count w.state.toAccounts ∧ lot.issuedAt ≤ w.clock ∧
    ∃ amount, IssuedAs w.history a lot amount ∧ lot.remaining ≤ amount
  sorted : (account w.state.toAccounts a).lots.Pairwise InIssueOrder

section Step

variable {w : World} {a : Address} {env : Env} {call : Call} {s : State} {txs : List CreditTransaction} {n m : Nat}

theorem journal_concat (history : List (Receipt Tx State)) (r : Receipt Tx State) (a : Address) :
    journal (history ++ [r]) a = journal history a ++ recordedIn r a := by
  unfold journal
  rw [flatMap_append, flatMap_cons, flatMap_nil, append_nil]

theorem Kept.older (kept : Kept w a) :
    ∀ tx ∈ (account w.state.toAccounts a).transactions, tx.id < count w.state.toAccounts := by
  rw [kept.recorded]
  exact fun tx mem => kept.ids tx (trim_mem mem)

theorem Kept.earlier (kept : Kept w a) :
    ∀ lot ∈ (account w.state.toAccounts a).lots, lot.id < count w.state.toAccounts ∧ lot.issuedAt ≤ w.clock := by
  intro lot mem
  have issued := kept.issued lot mem
  exact ⟨issued.1, issued.2.1⟩

theorem Kept.same (kept : Kept w a) (order : w.clock ≤ env.timestamp)
    (counted : count w.state.toAccounts ≤ count s.toAccounts)
    (same : account s.toAccounts a = account w.state.toAccounts a) :
    Kept ⟨env.timestamp, s, w.history ++ [⟨⟨env, call⟩, w.state, s⟩]⟩ a := by
  have none : recordedIn ⟨⟨env, call⟩, w.state, s⟩ a = [] := by
    apply filter_eq_nil_iff.mpr
    intro tx mem
    have before := kept.older tx (same ▸ mem)
    simp only [decide_eq_true_eq]
    omega
  have history : journal (w.history ++ [⟨⟨env, call⟩, w.state, s⟩]) a = journal w.history a := by
    rw [journal_concat, none, append_nil]
  refine ⟨?_, ?_, ?_, ?_, ?_, ?_⟩
  all_goals simp only [same, history]
  · exact kept.balanced
  · exact kept.recorded
  · exact kept.balance
  · exact fun tx mem => (kept.ids tx mem).trans_le counted
  · intro lot mem
    rcases kept.issued lot mem with ⟨older, past, amount, ⟨r, member, grants⟩, less⟩
    exact ⟨older.trans_le counted, past.trans order, amount, ⟨r, mem_append_left _ member, grants⟩, less⟩
  · exact kept.sorted

theorem Kept.posted (kept : Kept w a) (order : w.clock ≤ env.timestamp) (low : count w.state.toAccounts ≤ n)
    (high : m ≤ count s.toAccounts)
    (posting : Posting env n (account w.state.toAccounts a) txs (account s.toAccounts a) m)
    (posts : ∀ tx ∈ txs, call.Posts a tx.kind tx.amount) :
    Kept ⟨env.timestamp, s, w.history ++ [⟨⟨env, call⟩, w.state, s⟩]⟩ a := by
  have short := posting.short
  have bounds := posting.ids
  have whole := kept.recorded
  have held := posting.recorded _ whole
  have new : recordedIn ⟨⟨env, call⟩, w.state, s⟩ a = txs := by
    have now : (account s.toAccounts a).transactions = trim ((account w.state.toAccounts a).transactions ++ txs) := by
      rw [held, whole, trim_append]
    unfold recordedIn
    rw [now]
    exact filter_recorded kept.older (fun tx mem => low.trans (bounds.2 tx mem).1) (by omega)
  have history : journal (w.history ++ [⟨⟨env, call⟩, w.state, s⟩]) a = journal w.history a ++ txs := by
    rw [journal_concat, new]
  refine ⟨posting.balanced kept.balanced, ?_, ?_, ?_, ?_, ?_⟩
  · rw [history]
    exact held
  · rw [history, amounts_append, ← kept.balance]
    exact posting.balance
  · rw [history]
    intro tx mem
    rcases mem_append.mp mem with earlier | last
    · have before := kept.ids tx earlier
      change tx.id < count s.toAccounts
      omega
    · have within := bounds.2 tx last
      change tx.id < count s.toAccounts
      omega
  · intro lot mem
    have past := posting.past order low high kept.earlier lot mem
    refine ⟨past.1, past.2, ?_⟩
    rcases posting.origin kept.balanced lot mem with ⟨old, member, same, less⟩ | ⟨least, most, tx, member, grants, whole⟩
    · rcases kept.issued old member with ⟨_, _, amount, ⟨r, member, grants, least, most⟩, lessOld⟩
      rw [same] at least most
      exact ⟨amount, ⟨r, mem_append_left _ member, grants, least, most⟩, less.trans lessOld⟩
    · refine ⟨tx.amount, ⟨_, mem_append_right _ (.head _), ?_, low.trans least, most.trans_le high⟩, whole.ge⟩
      have allowed := posts tx member
      generalize tx.kind = kind at allowed grants
      generalize tx.amount = amount at allowed
      change call.Grants a amount
      cases grants with
      | issue =>
        cases allowed
        exact .issue
      | transferIn =>
        cases allowed
        exact .transfer
  · rcases posting.stubs with same | ⟨id, expiresAt, least, _, same⟩
    · exact sorted_of_stubs same kept.sorted
    · have extended : (account s.toAccounts a).lots.map CreditLot.stub =
          ((account w.state.toAccounts a).lots ++ [CreditLot.mk id 0 env.timestamp expiresAt]).map CreditLot.stub := by
        rw [same, map_append]
        rfl
      apply sorted_of_stubs extended
      apply pairwise_append.mpr
      refine ⟨kept.sorted, pairwise_singleton .., fun old member new mem => ?_⟩
      have bounds := kept.earlier old member
      rw [mem_singleton.mp mem]
      exact ⟨bounds.1.trans_le (low.trans least), bounds.2.trans order⟩

theorem empty_kept (clock : Nat) (a : Address) : Kept ⟨clock, .empty, []⟩ a where
  balanced := ⟨rfl, fun _ listed => absurd listed not_mem_nil, by
    show (0 : Int) < 2 ^ 127
    decide⟩
  recorded := (@trim_short CreditTransaction [] (Nat.zero_le 128)).symm
  balance := rfl
  ids _ listed := absurd listed not_mem_nil
  issued _ listed := absurd listed not_mem_nil
  sorted := .nil

theorem kept_step (run : exec ⟨env, call⟩ w.state = .ok s) (order : w.clock ≤ env.timestamp)
    (keyed : Keyed w.state.toAccounts) (dormant : Dormant w.state) (kept : Kept w a) :
    Kept ⟨env.timestamp, s, w.history ++ [⟨⟨env, call⟩, w.state, s⟩]⟩ a := by
  rcases exec_effect keyed run with effect | ⟨unset, same⟩
  · rcases effect.posted a with same | ⟨n, txs, m, low, high, posting, posts⟩
    · exact kept.same order effect.counted same
    · exact kept.posted order low high posting posts
  · have zero := (dormant unset).1
    have counted : count w.state.toAccounts ≤ count s.toAccounts := by
      rw [zero]
      exact Nat.zero_le _
    apply kept.same order counted
    rw [same]
    rfl

end Step

theorem dormant_reachable {guard : World → Tx → Prop} {w : World} (reached : Reachable guard w) : Dormant w.state := by
  refine reached.state_invariant ?_ ?_
  · intro s initial _
    rw [initial]
    exact ⟨rfl, fun _ => rfl⟩
  · intro w tx s here _ run dormant
    exact dormant_step (keyed_reachable here) dormant run

theorem kept_reachable {w : World} (reached : Reachable (Ledger.inOrder contract) w) (a : Address) : Kept w a := by
  refine reached.invariant (I := fun w => Kept w a) ?_ ?_ ?_
  · intro s initial
    rw [initial]
    exact empty_kept 0 a
  · intro w tx _ order kept
    refine ⟨kept.balanced, kept.recorded, kept.balance, kept.ids, fun lot mem => ?_, kept.sorted⟩
    rcases kept.issued lot mem with ⟨older, past, issued⟩
    exact ⟨older, past.trans order, issued⟩
  · intro w tx s here order run kept
    exact kept_step run order (keyed_reachable here) (dormant_reachable here) kept

end SubTrackr.Credit

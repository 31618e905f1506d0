import SubTrackr.Invoice.Jurisdiction

namespace SubTrackr.Invoices

open List Lib Soroban

def canTransition : InvoiceStatus → InvoiceStatus → Bool
  | .draft, .sent | .draft, .void | .sent, .partlyPaid | .sent, .paid | .sent, .void | .partlyPaid, .paid
  | .partlyPaid, .void => true
  | _, _ => false

def updateInvoiceStatus (s : State) (invoiceId : Nat) (status : InvoiceStatus) : Result (Invoice × State) := do
  let invoice ← expect (s.invoice invoiceId) "Invoice not found"
  ensure (canTransition invoice.status status = true) "Invalid invoice state transition"
  let invoice := { invoice with status }
  validateInvoicePeriod invoice.period
  validateInvoiceAmounts invoice
  return (invoice, { s with invoice := put s.invoice invoiceId invoice })

def moveInvoice (host : Host) (s : State) (admin : Address) (invoiceId : Nat) (status : InvoiceStatus) :
    Result (Invoice × State) := do
  checkAdmin host s admin
  updateInvoiceStatus s invoiceId status

def voidInvoice (host : Host) (s : State) (admin : Address) (invoiceId : Nat) : Result (Invoice × State) :=
  moveInvoice host s admin invoiceId .void
def sendInvoice (host : Host) (s : State) (admin : Address) (invoiceId : Nat) : Result (Invoice × State) :=
  moveInvoice host s admin invoiceId .sent
def markPartial (host : Host) (s : State) (admin : Address) (invoiceId : Nat) : Result (Invoice × State) :=
  moveInvoice host s admin invoiceId .partlyPaid
def markPaid (host : Host) (s : State) (admin : Address) (invoiceId : Nat) : Result (Invoice × State) :=
  moveInvoice host s admin invoiceId .paid

def setCustomerTaxStatus (host : Host) (s : State) (admin subscriber : Address) (status : CustomerTaxStatus) :
    Result State := do
  checkAdmin host s admin
  ensure (status.certificateExpiry = 0 ∨ host.timestamp < status.certificateExpiry) "Certificate already expired"
  return { s with customerTaxStatus := put s.customerTaxStatus subscriber status }

inductive Entry where
  | rates (call : Call)
  | setCustomerTaxStatus (admin subscriber : Address) (status : CustomerTaxStatus)
  | voidInvoice (admin : Address) (invoiceId : Nat)
  | sendInvoice (admin : Address) (invoiceId : Nat)
  | markPartial (admin : Address) (invoiceId : Nat)
  | markPaid (admin : Address) (invoiceId : Nat)

structure Request where
  host : Host
  entry : Entry

def moved (run : Result (Invoice × State)) : Result State := do
  let (_, s) ← run
  return s

def enter (tx : Request) (s : State) : Result State :=
  match tx.entry with
  | .rates call => exec ⟨tx.host, call⟩ s
  | .setCustomerTaxStatus admin subscriber status => setCustomerTaxStatus tx.host s admin subscriber status
  | .voidInvoice admin invoiceId => moved (voidInvoice tx.host s admin invoiceId)
  | .sendInvoice admin invoiceId => moved (sendInvoice tx.host s admin invoiceId)
  | .markPartial admin invoiceId => moved (markPartial tx.host s admin invoiceId)
  | .markPaid admin invoiceId => moved (markPaid tx.host s admin invoiceId)

def lifecycle : Contract Request State Panic where
  time tx := tx.host.timestamp
  exec := enter

abbrev Life := Ledger Request State

abbrev Lived (guard : Life → Request → Prop) (w : Life) : Prop :=
  Ledger.Reachable lifecycle Deployed guard w

def Moves (before after : InvoiceStatus) : Prop := canTransition before after = true

def invoiceIds (s : State) (subscriptionId : Nat) : List Nat := (s.invoiceBySubscription subscriptionId).getD []

structure Invoice.Sound (invoice : Invoice) : Prop where
  total : invoice.total = invoice.subtotal + invoice.tax
  subtotal : 0 ≤ invoice.subtotal
  tax : 0 ≤ invoice.tax
  period : invoice.period.start < invoice.period.finish

inductive Bookkeeping (entry : Entry) (s s' : State) : Prop where
  | kept (invoice : s'.invoice = s.invoice) (ids : s'.invoiceBySubscription = s.invoiceBySubscription)
    (count : s'.invoiceCount = s.invoiceCount)
  | restarted (admin : Address) (call : entry = .rates (.initializeInvoice admin)) (unset : s.admin = none)
    (invoice : s'.invoice = s.invoice) (ids : s'.invoiceBySubscription = s.invoiceBySubscription)
    (count : s'.invoiceCount = some 0)
  | generated (made : Invoice) (sound : made.Sound) (fresh : made.id = s.invoiceCount.getD 0 + 1)
    (invoice : s'.invoice = put s.invoice made.id made)
    (ids : s'.invoiceBySubscription =
      put s.invoiceBySubscription made.subscriptionId (invoiceIds s made.subscriptionId ++ [made.id]))
    (count : s'.invoiceCount = some made.id)
  | moved (id : Nat) (moving : Invoice) (status : InvoiceStatus) (stored : s.invoice id = some moving)
    (moves : Moves moving.status status) (invoice : s'.invoice = put s.invoice id { moving with status })
    (ids : s'.invoiceBySubscription = s.invoiceBySubscription) (count : s'.invoiceCount = s.invoiceCount)

section Steps

variable {host : Host} {s s' : State} {tx : Request} {entry : Entry}

theorem validateInvoiceAmounts_ok {invoice : Invoice} {u : Unit} (run : validateInvoiceAmounts invoice = .ok u) :
    0 ≤ invoice.subtotal ∧ 0 ≤ invoice.tax := by
  simp only [validateInvoiceAmounts, bind_eq_ok, ensure_eq_ok] at run
  obtain ⟨_, subtotal, _, tax, _⟩ := run
  exact ⟨subtotal, tax⟩

theorem storeInvoice_books {invoice : Invoice} (run : storeInvoice s invoice = .ok s') :
    s'.invoice = put s.invoice invoice.id invoice ∧ s'.invoiceCount = s.invoiceCount ∧
      s'.invoiceBySubscription = put s.invoiceBySubscription invoice.subscriptionId
        (invoiceIds s invoice.subscriptionId ++ [invoice.id]) := by
  simp only [storeInvoice, bind_eq_ok, pure_eq_ok] at run
  obtain ⟨_, _, _, _, _, _, _, _, rfl⟩ := run
  exact ⟨rfl, rfl, rfl⟩

theorem storeTaxRemittanceLine_books {invoice : Invoice} {jurisdictionKey : String} {taxType : TaxType}
    (run : storeTaxRemittanceLine s invoice jurisdictionKey taxType = .ok s') :
    s'.invoice = s.invoice ∧ s'.invoiceCount = s.invoiceCount ∧
      s'.invoiceBySubscription = s.invoiceBySubscription := by
  simp only [storeTaxRemittanceLine, bind_eq_ok, pure_eq_ok] at run
  obtain ⟨_, _, rfl⟩ := run
  exact ⟨rfl, rfl, rfl⟩

theorem generateInvoice_books {subscriptions : Store Nat Subscription} {plans : Store Nat Plan} {subId : Nat}
    {period : TimeRange} {region currency country state city : String} {invoice : Invoice}
    (run : generateInvoice host s subscriptions plans subId period region currency country state city =
      .ok (invoice, s')) : Bookkeeping entry s s' := by
  simp only [generateInvoice, bind_eq_ok, pure_eq_ok, i128_eq_ok, u64_eq_ok] at run
  obtain ⟨_, _, sub, _, _, _, plan, _, _, _, tax, _, total, ⟨_, rfl⟩, id, ⟨_, rfl⟩, dueDate, _, _, period', _,
    amounts, s₁, held, s₂, remitted, same⟩ := run
  cases same
  obtain ⟨invoices, count, ids⟩ := storeInvoice_books held
  obtain ⟨invoices', count', ids'⟩ := storeTaxRemittanceLine_books remitted
  obtain ⟨subtotal, tax⟩ := validateInvoiceAmounts_ok amounts
  have nonempty := (ensure_eq_ok ..).mp period'
  exact .generated _ ⟨rfl, subtotal, tax, nonempty⟩ rfl (invoices'.trans invoices) (ids'.trans ids) (count'.trans count)

theorem moveInvoice_books {admin : Address} {invoiceId : Nat} {status : InvoiceStatus}
    (run : moved (moveInvoice host s admin invoiceId status) = .ok s') : Bookkeeping entry s s' := by
  simp only [moved, moveInvoice, updateInvoiceStatus, bind_eq_ok, pure_eq_ok, expect_eq_ok, ensure_eq_ok] at run
  obtain ⟨⟨_, _⟩, ⟨_, _, moving, held, _, moves, _, _, _, _, same⟩, rfl⟩ := run
  cases same
  exact .moved invoiceId moving status held moves rfl rfl rfl

theorem exec_books {call : Call} (run : exec ⟨host, call⟩ s = .ok s') : Bookkeeping (.rates call) s s' := by
  cases call with
  | initializeInvoice admin =>
    simp only [exec, initializeInvoice, bind_eq_ok, pure_eq_ok, ensure_eq_ok] at run
    obtain ⟨_, _, _, unset, rfl⟩ := run
    exact .restarted admin rfl unset rfl rfl rfl
  | setConfig =>
    simp only [exec, setConfig, bind_eq_ok, pure_eq_ok] at run
    obtain ⟨_, _, _, _, _, _, _, _, rfl⟩ := run
    exact .kept rfl rfl rfl
  | setTaxRate | setExchangeRate =>
    simp only [exec, setTaxRate, bind_eq_ok, pure_eq_ok, setExchangeRate] at run
    obtain ⟨_, _, rfl⟩ := run
    exact .kept rfl rfl rfl
  | setTaxJurisdiction =>
    simp only [exec, setTaxJurisdiction, bind_eq_ok, pure_eq_ok] at run
    obtain ⟨_, _, rfl⟩ := run
    split <;> exact .kept rfl rfl rfl
  | generateInvoice =>
    obtain ⟨⟨_, _⟩, run, same⟩ := (bind_eq_ok ..).mp run
    cases same
    exact generateInvoice_books run

theorem enter_books (run : enter tx s = .ok s') : Bookkeeping tx.entry s s' := by
  obtain ⟨host, entry⟩ := tx
  cases entry with
  | rates call => exact exec_books run
  | setCustomerTaxStatus =>
    simp only [enter, setCustomerTaxStatus, bind_eq_ok, pure_eq_ok] at run
    obtain ⟨_, _, _, _, rfl⟩ := run
    exact .kept rfl rfl rfl
  | voidInvoice | sendInvoice | markPartial | markPaid => exact moveInvoice_books run

theorem invoiceIds_kept (ids : s'.invoiceBySubscription = s.invoiceBySubscription) : invoiceIds s' = invoiceIds s := by
  funext subId
  rw [invoiceIds, ids, invoiceIds]

structure Numbered (s : State) : Prop where
  stored : ∀ id invoice, s.invoice id = some invoice → invoice.id = id ∧ id ≤ s.invoiceCount.getD 0 ∧ invoice.Sound ∧
    (invoiceIds s invoice.subscriptionId).count id = 1
  listed : ∀ subscriptionId, ∀ id ∈ invoiceIds s subscriptionId, id ≤ s.invoiceCount.getD 0

/-- The invoices of `s` are those of `s'`, but for their statuses, which have only moved on. -/
def OnlyMoved (s s' : State) : Prop :=
  ∀ id invoice, s.invoice id = some invoice →
    ∃ status, s'.invoice id = some { invoice with status } ∧ Relation.ReflTransGen Moves invoice.status status

theorem OnlyMoved.refl (s : State) : OnlyMoved s s := fun _ invoice held => ⟨invoice.status, held, .refl⟩

theorem OnlyMoved.trans {s'' : State} (first : OnlyMoved s s') (second : OnlyMoved s' s'') : OnlyMoved s s'' := by
  intro id invoice held
  obtain ⟨status, held, moves⟩ := first id invoice held
  obtain ⟨status', held, moves'⟩ := second id _ held
  exact ⟨status', held, moves.trans moves'⟩

/-- An `initialize` that goes through finds that no invoice has been numbered yet. -/
def CountsOn (s : State) (entry : Entry) : Prop :=
  ∀ admin, entry = .rates (.initializeInvoice admin) → s.admin = none → s.invoiceCount.getD 0 = 0

theorem Numbered.step (numbered : Numbered s) (books : Bookkeeping entry s s') (counts : CountsOn s entry) :
    Numbered s' := by
  cases books with
  | kept invoice ids count =>
    refine ⟨?_, ?_⟩
    · rw [invoice, count, invoiceIds_kept ids]
      exact numbered.stored
    · rw [count, invoiceIds_kept ids]
      exact numbered.listed
  | restarted admin call unset invoice ids count =>
    have none := counts admin call unset
    have stored := numbered.stored
    have listed := numbered.listed
    rw [none] at stored listed
    refine ⟨?_, ?_⟩
    · rw [invoice, count, invoiceIds_kept ids]
      exact stored
    · rw [count, invoiceIds_kept ids]
      exact listed
  | generated made sound fresh invoice ids count =>
    have list (subscriptionId : Nat) : invoiceIds s' subscriptionId = if subscriptionId = made.subscriptionId then
        invoiceIds s subscriptionId ++ [made.id] else invoiceIds s subscriptionId := by
      rw [invoiceIds, ids, put_apply]
      split
      · rename_i same
        rw [same]
        rfl
      · rfl
    have unlisted (subscriptionId : Nat) : made.id ∉ invoiceIds s subscriptionId := by
      intro listed
      have bound := numbered.listed subscriptionId _ listed
      omega
    refine ⟨?_, ?_⟩
    · intro id found stored
      rw [invoice, put_eq_some] at stored
      rw [count, Option.getD_some, list]
      rcases stored with ⟨rfl, rfl⟩ | ⟨other, stored⟩
      · rw [if_pos rfl, count_append, count_eq_zero.mpr (unlisted _), count_singleton_self]
        exact ⟨rfl, le_rfl, sound, rfl⟩
      · obtain ⟨own, bound, checked, once⟩ := numbered.stored id found stored
        refine ⟨own, by omega, checked, ?_⟩
        split
        · rw [count_append, once, count_singleton, beq_false_of_ne (Ne.symm other)]
          rfl
        · exact once
    · intro subscriptionId id listed
      rw [list] at listed
      rw [count, Option.getD_some]
      have old (listed : id ∈ invoiceIds s subscriptionId) : id ≤ made.id := by
        have bound := numbered.listed subscriptionId id listed
        omega
      split at listed
      · rcases mem_append.mp listed with earlier | last
        · exact old earlier
        · exact (mem_singleton.mp last).le
      · exact old listed
  | moved id moving status stored moves invoice ids count =>
    refine ⟨?_, ?_⟩
    · intro other found read
      rw [invoice, put_eq_some] at read
      rw [count, invoiceIds_kept ids]
      rcases read with ⟨rfl, rfl⟩ | ⟨_, read⟩
      · obtain ⟨own, bound, checked, once⟩ := numbered.stored other moving stored
        exact ⟨own, bound, ⟨checked.total, checked.subtotal, checked.tax, checked.period⟩, once⟩
      · exact numbered.stored other found read
    · rw [count, invoiceIds_kept ids]
      exact numbered.listed

theorem Numbered.onlyMoved (numbered : Numbered s) (books : Bookkeeping entry s s') : OnlyMoved s s' := by
  intro id invoice held
  cases books with
  | kept invoices | restarted _ _ _ invoices => exact ⟨invoice.status, by rw [invoices, held], .refl⟩
  | generated made _ fresh invoices =>
    have bound := (numbered.stored id invoice held).2.1
    refine ⟨invoice.status, ?_, .refl⟩
    rw [invoices, put_of_ne _ _ (by omega), held]
  | moved at_ moving status found moves invoices =>
    rw [invoices, put_apply]
    split
    · rename_i here
      rw [here, found] at held
      cases held
      exact ⟨status, rfl, .single moves⟩
    · exact ⟨invoice.status, held, .refl⟩

end Steps

section Transitions

def InvoiceStatus.rank : InvoiceStatus → Nat
  | .draft => 0
  | .sent => 1
  | .partlyPaid => 2
  | .paid | .void => 3

theorem Moves.rank {before after : InvoiceStatus} (moves : Moves before after) : before.rank < after.rank := by
  unfold Moves at moves
  cases before <;> cases after <;> revert moves <;> decide

theorem transitions_acyclic :
    (∀ status, ¬ Relation.TransGen Moves status status) ∧ ∀ status, ¬ Moves .paid status ∧ ¬ Moves .void status := by
  have up {before after : InvoiceStatus} (moves : Relation.TransGen Moves before after) :
      before.rank < after.rank := by
    induction moves with
    | single moves => exact moves.rank
    | tail _ moves ih => exact ih.trans moves.rank
  refine ⟨fun status cycle => (up cycle).false, ?_⟩
  intro status
  unfold Moves
  cases status <;> decide

end Transitions

section Runs

variable {guard : Life → Request → Prop} {w w' : Life}

theorem numbered_reachable (counts : ∀ w tx, guard w tx → CountsOn w.state tx.entry) (reached : Lived guard w) :
    Numbered w.state := by
  refine reached.state_invariant ?_ ?_
  · intro s deployed
    rw [deployed]
    exact ⟨nofun, nofun⟩
  · intro w tx s _ met run numbered
    exact numbered.step (enter_books run) (counts w tx met)

end Runs

/-- In a run without an `initialize` after the first invoice, every stored invoice adds up and is listed once, and
    all that ever changes of it is its status. -/
theorem invoices_immutable {w w' : Life} (reached : Lived (fun w tx => CountsOn w.state tx.entry) w)
    (steps : Ledger.Steps lifecycle (fun w tx => CountsOn w.state tx.entry) w w') :
    (∀ id invoice, w.state.invoice id = some invoice → invoice.id = id ∧ invoice.Sound ∧
      (invoiceIds w.state invoice.subscriptionId).count id = 1) ∧
    OnlyMoved w.state w'.state ∧ (∀ status, ¬ Relation.TransGen Moves status status) ∧
    ∀ status, ¬ Moves .paid status ∧ ¬ Moves .void status := by
  refine ⟨?_, ?_, transitions_acyclic⟩
  · intro id invoice stored
    obtain ⟨own, _, sound, once⟩ := (numbered_reachable (fun _ _ met => met) reached).stored id invoice stored
    exact ⟨own, sound, once⟩
  · refine steps.relates OnlyMoved.refl (fun _ _ _ => OnlyMoved.trans) reached ?_
    intro v tx s here _ run
    exact (numbered_reachable (fun _ _ met => met) here).onlyMoved (enter_books run)

def monthlyPlan : Plan where
  id := 1
  merchant := ⟨2⟩
  name := "Monthly"
  price := 10000
  token := ⟨9⟩
  interval := .monthly
  active := true
  subscriberCount := 1
  createdAt := 0

def subscribed : Subscription where
  id := 7
  planId := 1
  subscriber := ⟨3⟩
  status := .active
  startedAt := 0
  lastChargedAt := 0
  nextChargeAt := 2592000
  totalPaid := 0
  totalGasSpent := 0
  chargeCount := 0
  pausedAt := 0
  pauseDuration := 0
  refundRequestedAmount := 0

def generate : Entry :=
  .rates (.generateInvoice (put (fun _ => none) 7 subscribed) (put (fun _ => none) 1 monthlyPlan) 7 ⟨0, 2592000⟩ "" "USD"
    "US" "" "")

def live (w : Life) (entries : List Entry) : Life :=
  Ledger.run lifecycle w (entries.map fun entry => ⟨signedBy 10 [⟨1⟩], entry⟩)

def opened : Life := live (Ledger.genesis .empty) [.rates (.initializeInvoice ⟨1⟩)]

theorem CountsOn.of_entry (s : State) {entry : Entry} (other : ∀ admin, entry ≠ .rates (.initializeInvoice admin)) :
    CountsOn s entry := fun admin call => absurd call (other admin)

theorem live_steps (entries : List Entry) (later : ∀ entry ∈ entries, ∀ admin, entry ≠ .rates (.initializeInvoice admin))
    (w : Life) : Ledger.Steps lifecycle (fun w tx => CountsOn w.state tx.entry) w (live w entries) := by
  apply Ledger.Steps.run
  intro tx mem v
  obtain ⟨entry, given, rfl⟩ := mem_map.mp mem
  exact .of_entry v.state (later entry given)

theorem invoices_immutable_settled : ∃ invoice, (live opened [generate]).state.invoice 1 = some invoice ∧
    OnlyMoved (live opened [generate]).state (live (live opened [generate]) [.sendInvoice ⟨1⟩ 1, .markPaid ⟨1⟩ 1]).state ∧
    (invoiceIds (live opened [generate]).state invoice.subscriptionId).count 1 = 1 := by
  have first : Ledger.Steps lifecycle (fun w tx => CountsOn w.state tx.entry) (Ledger.genesis .empty) opened :=
    .single ⟨⟨signedBy 10 [⟨1⟩], .rates (.initializeInvoice ⟨1⟩)⟩, fun _ _ _ => rfl, rfl⟩
  have reached : Lived (fun w tx => CountsOn w.state tx.entry) (live opened [generate]) :=
    ⟨.empty, rfl, first.trans (live_steps _ (by simp [generate]) opened)⟩
  have immutable := invoices_immutable reached
    (live_steps [.sendInvoice ⟨1⟩ 1, .markPaid ⟨1⟩ 1] (by simp) (live opened [generate]))
  have some : ((live opened [generate]).state.invoice 1).isSome = true := by decide +kernel
  obtain ⟨invoice, stored⟩ := Option.isSome_iff_exists.mp some
  exact ⟨invoice, stored, immutable.2.1, (immutable.1 1 invoice stored).2.2⟩

/-- An invoice is made out and paid before `initialize`, which starts the count again: the next invoice takes its id, and
    the paid invoice is a draft. -/
theorem invoices_overwritten :
    let w := live (Ledger.genesis .empty) [generate, .rates (.initializeInvoice ⟨1⟩), .sendInvoice ⟨1⟩ 1, .markPaid ⟨1⟩ 1]
    let w' := live w [generate]
    Lived Ledger.anyTx w ∧ Ledger.Steps lifecycle Ledger.anyTx w w' ∧
      (w.state.invoice 1).map (·.status) = some .paid ∧ (w'.state.invoice 1).map (·.status) = some .draft ∧
      (invoiceIds w'.state 7).count 1 = 2 ∧ ¬ OnlyMoved w.state w'.state := by
  intro w w'
  have paid : (w.state.invoice 1).map (·.status) = some .paid := by decide +kernel
  have draft : (w'.state.invoice 1).map (·.status) = some .draft := by decide +kernel
  refine ⟨⟨.empty, rfl, Ledger.Steps.run (fun _ _ _ => trivial) _⟩, Ledger.Steps.run (fun _ _ _ => trivial) _, paid, draft,
    by decide +kernel, ?_⟩
  intro moved
  obtain ⟨invoice, stored, status⟩ := Option.map_eq_some_iff.mp paid
  obtain ⟨status', stored', moves⟩ := moved 1 invoice stored
  rw [stored'] at draft
  cases draft
  rw [status] at moves
  rcases moves.cases_head with same | ⟨next, first, _⟩
  · cases same
  · exact (transitions_acyclic.2 next).1 first

end SubTrackr.Invoices

import SubTrackr.Credit.EntryPoints

namespace SubTrackr.Credit

open List Lib Soroban

def spendableCredit (now : Nat) (credit : AccountCredit) : Int := total (spendable now) credit.lots

def lapsedCredit (now : Nat) (credit : AccountCredit) : Int := total (lapsed now) credit.lots

def heldCredit (credit : AccountCredit) : Int := total (·.remaining) credit.lots

def amounts (txs : List CreditTransaction) : Int := total (·.amount) txs

def AccountCredit.post (credit : AccountCredit) (tx : CreditTransaction) (lots : List CreditLot) : AccountCredit :=
  { credit with balance := credit.balance + tx.amount, lots, transactions := trim (credit.transactions ++ [tx]) }

def transaction (env : Env) (id : Nat) (kind : CreditTxKind) (amount : Int) (reason : String)
    (counterparty : Option Address) : CreditTransaction :=
  { id, kind, amount, timestamp := env.timestamp, reason, counterparty }

/-- What `realize_expiry` does to an account, with the transactions it records and the id counter before and after. -/
inductive Realised (env : Env) (n : Nat) (credit : AccountCredit) :
    List CreditTransaction → AccountCredit → Nat → Prop where
  | nothing (none : lapsedCredit env.timestamp credit = 0) : Realised env n credit [] credit n
  | expired (some : 0 < lapsedCredit env.timestamp credit) :
      Realised env n credit [transaction env n .expire (-lapsedCredit env.timestamp credit) "expired" none]
        (credit.post (transaction env n .expire (-lapsedCredit env.timestamp credit) "expired" none)
          (credit.lots.map (CreditLot.expire env.timestamp))) (n + 1)

inductive CreditTxKind.Grants : CreditTxKind → Prop where
  | issue : Grants .issue
  | transferIn : Grants .transferIn

inductive CreditTxKind.Spends : CreditTxKind → Prop where
  | apply : Spends .apply
  | transferOut : Spends .transferOut

inductive Posting (env : Env) (n : Nat) (credit : AccountCredit) :
    List CreditTransaction → AccountCredit → Nat → Prop where
  | policy (policy : ExpirationPolicy) : Posting env n credit [] { credit with expirationPolicy := policy } n
  | realised {txs mid m} (realised : Realised env n credit txs mid m) : Posting env n credit txs mid m
  | granted {txs mid m kind amount reason counterparty expiresAt} (realised : Realised env n credit txs mid m)
      (grants : kind.Grants) (positive : 0 < amount) (fits : mid.balance + amount < 2 ^ 127) :
      Posting env n credit (txs ++ [transaction env (m + 1) kind amount reason counterparty])
        (mid.post (transaction env (m + 1) kind amount reason counterparty)
          (mid.lots ++ [⟨m, amount, env.timestamp, expiresAt⟩])) (m + 2)
  | spent {txs mid m kind asked reason counterparty} (realised : Realised env n credit txs mid m)
      (spends : kind.Spends) (positive : 0 < min asked (spendableCredit env.timestamp mid)) :
      Posting env n credit
        (txs ++ [transaction env m kind (-min asked (spendableCredit env.timestamp mid)) reason counterparty])
        (mid.post (transaction env m kind (-min asked (spendableCredit env.timestamp mid)) reason counterparty)
          (draw (spendable env.timestamp) CreditLot.reduce mid.lots asked).1) (m + 1)

section Totals

variable {now later : Nat}

theorem spendableCredit_nonneg (now : Nat) (credit : AccountCredit) : 0 ≤ spendableCredit now credit :=
  total_nonneg (spendable_nonneg now) _

theorem lapsedCredit_nonneg (now : Nat) (credit : AccountCredit) : 0 ≤ lapsedCredit now credit :=
  total_nonneg (lapsed_nonneg now) _

theorem total_expire (order : now ≤ later) (lots : List CreditLot) :
    total (spendable later) (lots.map (CreditLot.expire now)) = total (spendable later) lots := by
  induction lots with
  | nil => rfl
  | cons lot lots ih => rw [map_cons, total_cons, total_cons, spendable_expire order, ih]

theorem held_expire (now : Nat) (lots : List CreditLot) :
    total (·.remaining) (lots.map (CreditLot.expire now)) = total (·.remaining) lots - total (lapsed now) lots := by
  induction lots with
  | nil => rfl
  | cons lot lots ih =>
    rw [map_cons, total_cons, total_cons, total_cons, ih, expire_remaining]
    omega

theorem expire_unlapsed {lots : List CreditLot} (none : total (lapsed now) lots = 0) :
    lots.map (CreditLot.expire now) = lots := by
  induction lots with
  | nil => rfl
  | cons lot lots ih =>
    have first := lapsed_nonneg now lot
    have rest := total_nonneg (lapsed_nonneg now) lots
    rw [total_cons] at none
    have kept : lot.expire now = lot := by
      apply if_neg
      intro gone
      have some : lapsed now lot = lot.remaining := if_pos gone
      have pos := gone.1
      omega
    rw [map_cons, kept, ih (by omega)]

theorem held_draw (now : Nat) (lots : List CreditLot) (amount : Int) :
    total (·.remaining) (draw (spendable now) CreditLot.reduce lots amount).1 =
      total (·.remaining) lots - (amount - (draw (spendable now) CreditLot.reduce lots amount).2) := by
  induction lots generalizing amount with
  | nil => simp [draw]
  | cons lot lots ih =>
    simp only [draw, total_cons, ih, CreditLot.reduce]
    omega

end Totals

section Realised

variable {env : Env} {n m later : Nat} {credit mid : AccountCredit} {txs : List CreditTransaction}

section

variable (realised : Realised env n credit txs mid m)

include realised

theorem Realised.lots : mid.lots = credit.lots.map (CreditLot.expire env.timestamp) := by
  cases realised with
  | nothing none => exact (expire_unlapsed none).symm
  | expired => rfl

theorem Realised.fixed : mid.subscriber = credit.subscriber ∧ mid.expirationPolicy = credit.expirationPolicy := by
  cases realised <;> exact ⟨rfl, rfl⟩

theorem Realised.spendable (order : env.timestamp ≤ later) :
    spendableCredit later mid = spendableCredit later credit := by
  unfold spendableCredit
  rw [realised.lots, total_expire order]

theorem Realised.held : heldCredit mid = heldCredit credit - lapsedCredit env.timestamp credit := by
  unfold heldCredit
  rw [realised.lots, held_expire]
  rfl

theorem Realised.amounts : amounts txs = -lapsedCredit env.timestamp credit := by
  cases realised with
  | nothing none => rw [none]; rfl
  | expired => exact Int.add_zero _

theorem Realised.balance : mid.balance = credit.balance + Credit.amounts txs := by
  cases realised with
  | nothing => exact (Int.add_zero _).symm
  | expired => exact congrArg (credit.balance + ·) (Int.add_zero _).symm

theorem Realised.kind : ∀ tx ∈ txs, tx.kind = .expire := by
  cases realised with
  | nothing => exact fun _ mem => absurd mem not_mem_nil
  | expired =>
    intro tx mem
    rw [mem_singleton.mp mem]
    rfl

theorem Realised.ids : m = n + txs.length ∧ ∀ tx ∈ txs, n ≤ tx.id ∧ tx.id < m := by
  cases realised with
  | nothing => exact ⟨rfl, fun _ mem => absurd mem not_mem_nil⟩
  | expired =>
    refine ⟨rfl, fun tx mem => ?_⟩
    rw [mem_singleton.mp mem]
    exact ⟨le_rfl, Nat.lt_succ_self n⟩

theorem Realised.settled : lapsedCredit env.timestamp mid = 0 := by
  unfold lapsedCredit
  rw [realised.lots]
  generalize credit.lots = lots
  induction lots with
  | nil => rfl
  | cons lot lots ih =>
    have empty : ¬ Lapsed env.timestamp (lot.expire env.timestamp) := by
      unfold CreditLot.expire
      split
      · exact fun gone => Int.lt_irrefl 0 gone.1
      · assumption
    rw [map_cons, total_cons, ih]
    exact congrArg (· + 0) (if_neg empty)

end

end Realised

section Posting

variable {env : Env} {n m : Nat} {credit credit' : AccountCredit} {txs : List CreditTransaction}

theorem Posting.subscriber (posting : Posting env n credit txs credit' m) : credit'.subscriber = credit.subscriber := by
  cases posting with
  | policy => rfl
  | realised realised => exact realised.fixed.1
  | granted realised => exact realised.fixed.1
  | spent realised => exact realised.fixed.1

theorem Posting.ids (posting : Posting env n credit txs credit' m) : n ≤ m ∧ ∀ tx ∈ txs, n ≤ tx.id ∧ tx.id < m := by
  cases posting with
  | policy => exact ⟨le_rfl, fun _ mem => absurd mem not_mem_nil⟩
  | realised realised =>
    have length := realised.ids.1
    exact ⟨by omega, realised.ids.2⟩
  | granted realised =>
    have length := realised.ids.1
    refine ⟨by omega, fun tx mem => ?_⟩
    rcases mem_append.mp mem with earlier | last
    · have bounds := realised.ids.2 tx earlier
      omega
    · rw [mem_singleton.mp last]
      simp only [transaction]
      omega
  | spent realised =>
    have length := realised.ids.1
    refine ⟨by omega, fun tx mem => ?_⟩
    rcases mem_append.mp mem with earlier | last
    · have bounds := realised.ids.2 tx earlier
      omega
    · rw [mem_singleton.mp last]
      simp only [transaction]
      omega

end Posting

theorem trim_append {α : Type} (history new : List α) : trim (trim history ++ new) = trim (history ++ new) := by
  unfold trim maxHistory
  have shorter : history.length - 128 ≤ history.length := Nat.sub_le ..
  have joined : history.drop (history.length - 128) ++ new = (history ++ new).drop (history.length - 128) :=
    (drop_append_of_le_length shorter).symm
  have together : history.length - 128 + (history.length - (history.length - 128) + new.length - 128) =
      history.length + new.length - 128 := by omega
  rw [length_append, length_drop, joined, drop_drop, together, ← length_append]

theorem trim_short {α : Type} {history : List α} (short : history.length ≤ 128) : trim history = history := by
  unfold trim maxHistory
  rw [Nat.sub_eq_zero_of_le short, drop_zero]

theorem trim_mem {α : Type} {history : List α} {x : α} (mem : x ∈ trim history) : x ∈ history :=
  mem_of_mem_drop mem

theorem trim_concat {α : Type} (history : List α) {new : List α} (short : new.length ≤ 128) :
    trim (history ++ new) = history.drop ((history ++ new).length - 128) ++ new := by
  unfold trim maxHistory
  apply drop_append_of_le_length
  rw [length_append]
  omega

structure Balanced (credit : AccountCredit) : Prop where
  held : credit.balance = heldCredit credit
  nonneg : ∀ lot ∈ credit.lots, 0 ≤ lot.remaining
  fits : credit.balance < 2 ^ 127

section Balance

variable {env : Env} {n m : Nat} {credit credit' mid : AccountCredit} {txs : List CreditTransaction}

theorem held_split {now : Nat} {lots : List CreditLot} (nonneg : ∀ lot ∈ lots, 0 ≤ lot.remaining) :
    total (·.remaining) lots = total (spendable now) lots + total (lapsed now) lots := by
  induction lots with
  | nil => rfl
  | cons lot lots ih =>
    have first := remaining_split now (nonneg lot (.head _))
    have rest := ih fun other mem => nonneg other (.tail _ mem)
    rw [total_cons, total_cons, total_cons, rest]
    omega

theorem Balanced.split (balanced : Balanced credit) (now : Nat) :
    credit.balance = spendableCredit now credit + lapsedCredit now credit :=
  balanced.held.trans (held_split balanced.nonneg)

theorem Balanced.available (balanced : Balanced credit) (now : Nat) :
    available now credit = .ok (spendableCredit now credit) := by
  have split := balanced.split now
  have fits := balanced.fits
  have gone := lapsedCredit_nonneg now credit
  have none : 0 + total (Credit.spendable now) credit.lots = spendableCredit now credit := Int.zero_add _
  unfold Credit.available
  rw [availableFrom_eq le_rfl (by omega), none]

theorem draw_remaining {now : Nat} {lots : List CreditLot} {asked : Int} (pos : 0 ≤ asked)
    (nonneg : ∀ lot ∈ lots, 0 ≤ lot.remaining) : ∀ lot ∈ (draw (spendable now) CreditLot.reduce lots asked).1,
      0 ≤ lot.remaining ∧ ∃ old ∈ lots, old.id = lot.id ∧ lot.remaining ≤ old.remaining := by
  intro lot mem
  rcases draw_mem (spendable_nonneg now) lots pos lot mem with ⟨old, member, taken, least, most, rfl⟩
  have split := remaining_split now (nonneg old member)
  have gone := lapsed_nonneg now old
  have left : (old.reduce taken).remaining = old.remaining - taken := rfl
  exact ⟨by omega, old, member, rfl, by omega⟩

theorem Realised.balanced (realised : Realised env n credit txs mid m) (balanced : Balanced credit) : Balanced mid where
  held := by
    have before := balanced.held
    have after := realised.held
    have lost := realised.amounts
    have left := realised.balance
    omega
  nonneg := by
    rw [realised.lots]
    intro lot mem
    rcases mem_map.mp mem with ⟨old, member, rfl⟩
    have pos := balanced.nonneg old member
    have split := remaining_split env.timestamp pos
    have holds := spendable_nonneg env.timestamp old
    rw [expire_remaining]
    omega
  fits := by
    have before := balanced.fits
    have lost := realised.amounts
    have left := realised.balance
    have gone := lapsedCredit_nonneg env.timestamp credit
    omega

theorem Balanced.granted (balanced : Balanced mid) {lot : CreditLot} (lots : credit'.lots = mid.lots ++ [lot])
    (sum : credit'.balance = mid.balance + lot.remaining) (pos : 0 < lot.remaining)
    (fits : mid.balance + lot.remaining < 2 ^ 127) : Balanced credit' := by
  refine ⟨?_, ?_, sum.trans_lt fits⟩
  · unfold heldCredit
    rw [sum, lots, total_append, total_cons, total_nil, balanced.held, Int.add_zero]
    rfl
  · rw [lots]
    intro other mem
    rcases mem_append.mp mem with old | new
    · exact balanced.nonneg other old
    · rw [mem_singleton.mp new]
      exact pos.le

theorem Balanced.drawn (balanced : Balanced mid) {now : Nat} {asked : Int} (asking : 0 ≤ asked)
    (lots : credit'.lots = (draw (spendable now) CreditLot.reduce mid.lots asked).1)
    (sum : credit'.balance = mid.balance - min asked (spendableCredit now mid)) : Balanced credit' := by
  have available := spendableCredit_nonneg now mid
  refine ⟨?_, ?_, ?_⟩
  · have left := draw_left (drawable now) mid.lots asking
    unfold heldCredit
    rw [sum, lots, held_draw, left, balanced.held]
    unfold heldCredit spendableCredit
    omega
  · rw [lots]
    exact fun lot mem => (draw_remaining asking balanced.nonneg lot mem).1
  · have fits := balanced.fits
    omega

theorem Posting.balanced (posting : Posting env n credit txs credit' m) (balanced : Balanced credit) :
    Balanced credit' := by
  cases posting with
  | policy => exact ⟨balanced.held, balanced.nonneg, balanced.fits⟩
  | realised realised => exact realised.balanced balanced
  | granted realised _ pos fits => exact (realised.balanced balanced).granted rfl rfl pos fits
  | spent realised _ pos =>
    exact (realised.balanced balanced).drawn (lt_min_iff.mp pos).1.le rfl Int.sub_eq_add_neg.symm

theorem amounts_append (txs more : List CreditTransaction) : amounts (txs ++ more) = amounts txs + amounts more :=
  total_append txs more

theorem amounts_singleton (tx : CreditTransaction) : amounts [tx] = tx.amount := Int.add_zero _

theorem post_transactions (credit : AccountCredit) (tx : CreditTransaction) (lots : List CreditLot) :
    (credit.post tx lots).transactions = trim (credit.transactions ++ [tx]) := by
  simp only [AccountCredit.post]

theorem Realised.recorded (realised : Realised env n credit txs mid m) (journal : List CreditTransaction)
    (held : credit.transactions = trim journal) : mid.transactions = trim (journal ++ txs) := by
  cases realised with
  | nothing =>
    rw [append_nil]
    exact held
  | expired => rw [post_transactions, held, trim_append]

theorem post_recorded {journal : List CreditTransaction} (held : mid.transactions = trim (journal ++ txs))
    (tx : CreditTransaction) (lots : List CreditLot) :
    (mid.post tx lots).transactions = trim (journal ++ (txs ++ [tx])) := by
  rw [post_transactions, held, trim_append, append_assoc]

theorem Posting.recorded (posting : Posting env n credit txs credit' m) (journal : List CreditTransaction)
    (held : credit.transactions = trim journal) : credit'.transactions = trim (journal ++ txs) := by
  cases posting with
  | policy =>
    rw [append_nil]
    exact held
  | realised realised => exact realised.recorded journal held
  | granted realised => exact post_recorded (realised.recorded journal held) ..
  | spent realised => exact post_recorded (realised.recorded journal held) ..

theorem Posting.balance (posting : Posting env n credit txs credit' m) :
    credit'.balance = credit.balance + amounts txs := by
  cases posting with
  | policy => exact (Int.add_zero _).symm
  | realised realised => exact realised.balance
  | @granted txs mid m kind amount _ _ _ realised =>
    rw [amounts_append, amounts_singleton, ← Int.add_assoc, ← realised.balance]
    rfl
  | @spent txs mid m kind asked _ _ realised =>
    rw [amounts_append, amounts_singleton, ← Int.add_assoc, ← realised.balance]
    rfl

theorem Realised.short (realised : Realised env n credit txs mid m) : txs.length ≤ 1 := by
  cases realised with
  | nothing => exact Nat.zero_le 1
  | expired => exact le_rfl

theorem Posting.short (posting : Posting env n credit txs credit' m) : txs.length ≤ 2 := by
  cases posting with
  | policy => exact Nat.zero_le 2
  | realised realised =>
    have one := realised.short
    omega
  | granted realised =>
    have one := realised.short
    rw [length_append, length_singleton]
    omega
  | spent realised =>
    have one := realised.short
    rw [length_append, length_singleton]
    omega

def CreditLot.stub (lot : CreditLot) : Nat × Nat × Option Nat := (lot.id, lot.issuedAt, lot.expiresAt)

theorem expire_stub (now : Nat) (lot : CreditLot) : (lot.expire now).stub = lot.stub := by
  unfold CreditLot.expire
  split <;> rfl

theorem map_expire_stub (now : Nat) (lots : List CreditLot) :
    (lots.map (CreditLot.expire now)).map CreditLot.stub = lots.map CreditLot.stub := by
  rw [map_map]
  exact map_congr_left fun lot _ => expire_stub now lot

theorem map_draw_stub (now : Nat) (lots : List CreditLot) (asked : Int) :
    (draw (spendable now) CreditLot.reduce lots asked).1.map CreditLot.stub = lots.map CreditLot.stub :=
  draw_key CreditLot.stub (fun lot taken => (rfl : (lot.reduce taken).stub = lot.stub)) lots asked

theorem Realised.stubs (realised : Realised env n credit txs mid m) :
    mid.lots.map CreditLot.stub = credit.lots.map CreditLot.stub := by
  rw [realised.lots, map_expire_stub]

theorem Posting.stubs (posting : Posting env n credit txs credit' m) :
    credit'.lots.map CreditLot.stub = credit.lots.map CreditLot.stub ∨ ∃ id expiresAt, n ≤ id ∧ id < m ∧
      credit'.lots.map CreditLot.stub = credit.lots.map CreditLot.stub ++ [(id, env.timestamp, expiresAt)] := by
  cases posting with
  | policy => exact .inl rfl
  | realised realised => exact .inl realised.stubs
  | @granted txs mid m kind amount _ _ expiresAt realised =>
    have ids := realised.ids.1
    refine .inr ⟨m, expiresAt, by omega, by omega, ?_⟩
    rw [← realised.stubs]
    exact map_append
  | spent realised => exact .inl ((map_draw_stub ..).trans realised.stubs)

theorem Realised.origin (realised : Realised env n credit txs mid m) :
    ∀ lot ∈ mid.lots, ∃ old ∈ credit.lots, old.id = lot.id ∧ lot.remaining ≤ old.remaining := by
  rw [realised.lots]
  intro lot mem
  rcases mem_map.mp mem with ⟨old, member, rfl⟩
  have gone := lapsed_nonneg env.timestamp old
  have same := congrArg Prod.fst (expire_stub env.timestamp old)
  refine ⟨old, member, same.symm, ?_⟩
  rw [expire_remaining]
  omega

theorem Posting.origin (posting : Posting env n credit txs credit' m) (balanced : Balanced credit) :
    ∀ lot ∈ credit'.lots, (∃ old ∈ credit.lots, old.id = lot.id ∧ lot.remaining ≤ old.remaining) ∨
      (n ≤ lot.id ∧ lot.id < m ∧ ∃ tx ∈ txs, tx.kind.Grants ∧ tx.amount = lot.remaining) := by
  intro lot mem
  cases posting with
  | policy => exact .inl ⟨lot, mem, rfl, le_rfl⟩
  | realised realised => exact .inl (realised.origin lot mem)
  | @granted txs mid m kind amount _ _ expiresAt realised grants =>
    rcases mem_append.mp mem with old | new
    · exact .inl (realised.origin lot old)
    · have ids := realised.ids.1
      have after : n ≤ m ∧ m < m + 2 := by omega
      rw [mem_singleton.mp new]
      exact .inr ⟨after.1, after.2, _, mem_append_right _ (.head _), grants, rfl⟩
  | @spent txs mid m kind asked _ _ realised _ pos =>
    have available := spendableCredit_nonneg env.timestamp mid
    have before := realised.balanced balanced
    rcases (draw_remaining (by omega) before.nonneg lot mem).2 with ⟨mine, member, same, less⟩
    rcases realised.origin mine member with ⟨old, held, sameOld, lessOld⟩
    exact .inl ⟨old, held, sameOld.trans same, less.trans lessOld⟩

end Balance

end SubTrackr.Credit

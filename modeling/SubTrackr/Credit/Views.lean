import SubTrackr.Credit.Journal
import SubTrackr.Lib.Agree

namespace SubTrackr.Credit

open List Lib Soroban

def seen (now : Nat) (lot : CreditLot) : Option Nat × Int := (lot.expiresAt, spendable now lot)

def view (now : Nat) (credit : AccountCredit) : ExpirationPolicy × List (Option Nat × Int) :=
  (credit.expirationPolicy, credit.lots.map (seen now))

def fade (later : Nat) (worth : Option Nat × Int) : Option Nat × Int :=
  (worth.1, if worth.1.any (· ≤ later) then 0 else worth.2)

section View

variable {env : Env} {now later n m : Nat} {credit credit' mid : AccountCredit} {txs : List CreditTransaction}

theorem isExpired_eq (now : Nat) (lot : CreditLot) : isExpired now lot = lot.expiresAt.any (· ≤ now) := by
  unfold isExpired
  cases lot.expiresAt <;> rfl

theorem seen_later (order : now ≤ later) (lot : CreditLot) : seen later lot = fade later (seen now lot) := by
  unfold seen fade
  apply congrArg (Prod.mk lot.expiresAt)
  rw [← isExpired_eq later lot]
  cases expired : isExpired later lot with
  | true => exact spendable_expired expired
  | false =>
    have before : isExpired now lot = false := by
      cases gone : isExpired now lot with
      | true => exact Bool.noConfusion ((isExpired_mono order gone).symm.trans expired)
      | false => rfl
    unfold spendable Spendable
    simp only [expired, before]
    rfl

theorem view_later (same : view now credit = view now credit') (order : now ≤ later) :
    view later credit = view later credit' := by
  have fades (credit : AccountCredit) :
      view later credit = ((view now credit).1, (view now credit).2.map (fade later)) := by
    unfold view
    rw [map_map]
    exact congrArg (Prod.mk _) (map_congr_left fun lot _ => seen_later order lot)
  rw [fades, same, ← fades]

theorem spendableCredit_view (now : Nat) (credit : AccountCredit) :
    spendableCredit now credit = total (·.2) (view now credit).2 := by
  unfold spendableCredit total view
  rw [map_map]
  rfl

theorem spendableCredit_same (same : view now credit = view now credit') :
    spendableCredit now credit = spendableCredit now credit' := by
  rw [spendableCredit_view, spendableCredit_view, same]

theorem Realised.view (realised : Realised env n credit txs mid m) :
    view env.timestamp mid = view env.timestamp credit := by
  unfold Credit.view
  rw [realised.lots, realised.fixed.2, map_map]
  apply congrArg (Prod.mk _)
  apply map_congr_left
  intro lot _
  have expiry : (lot.expire env.timestamp).expiresAt = lot.expiresAt := congrArg (·.2.2) (expire_stub _ lot)
  exact Prod.ext expiry (spendable_expire le_rfl)

theorem seen_draw (now : Nat) (lots : List CreditLot) {asked : Int} (asking : 0 ≤ asked) :
    (draw (spendable now) CreditLot.reduce lots asked).1.map (seen now) =
      (draw (·.2) (fun worth taken => (worth.1, worth.2 - taken)) (lots.map (seen now)) asked).1 := by
  apply draw_map (seen now) (spendable_nonneg now) (fun _ => rfl) _ lots asking
  intro lot taken pos enough
  exact Prod.ext rfl (spendable_reduce now lot taken pos enough)

end View

structure Twin (now : Nat) (credit credit' : AccountCredit) : Prop where
  subscriber : credit.subscriber = credit'.subscriber
  views : view now credit = view now credit'
  left : Balanced credit
  right : Balanced credit'

structure Level (now : Nat) (credit credit' : AccountCredit) : Prop extends Twin now credit credit' where
  balance : credit.balance = credit'.balance

structure Sound (ids accounts : Nat) (s : Accounts) : Prop where
  keyed : Keyed s
  balanced : ∀ a, Balanced (account s a)
  ids : count s + ids < 2 ^ 64
  accounts : accountCount s + accounts < 2 ^ 32

structure Paired (now ids accounts : Nat) (s v : Accounts) : Prop where
  left : Sound ids accounts s
  right : Sound ids accounts v
  views : ∀ a, view now (account s a) = view now (account v a)

section Helpers

variable {env : Env} {now ids accounts : Nat} {s v : Accounts} {credit credit' : AccountCredit}

theorem Paired.twin (paired : Paired now ids accounts s v) (a : Address) : Twin now (account s a) (account v a) :=
  ⟨(paired.left.keyed a).trans (paired.right.keyed a).symm, paired.views a, paired.left.balanced a,
    paired.right.balanced a⟩

theorem Sound.counted (sound : Sound (ids + 1) accounts s) {n : Nat} (least : n ≤ count s + 1) :
    Sound ids accounts { s with nextId := some n } := by
  have room := sound.ids
  refine ⟨sound.keyed, sound.balanced, ?_, sound.accounts⟩
  change n + ids < 2 ^ 64
  omega

theorem nextId_eq (room : count s + 1 < 2 ^ 64) : nextId s = .ok (count s, { s with nextId := some (count s + 1) }) := by
  have fits : u64 (s.nextId.getD 0 + 1) = .ok (count s + 1) := (u64_eq_ok ..).mpr ⟨room, rfl⟩
  simp only [nextId, fits, orPanic_ok, ok_bind]
  rfl

theorem nextId_agree (paired : Paired now (ids + 1) accounts s v) :
    Agree (fun x y => Paired now ids accounts x.2 y.2) (nextId s) (nextId v) := by
  have room := paired.left.ids
  have room' := paired.right.ids
  rw [nextId_eq (by omega), nextId_eq (by omega)]
  exact .ok ⟨paired.left.counted le_rfl, paired.right.counted le_rfl, paired.views⟩

theorem Level.recorded (level : Level now credit credit') (txs txs' : List CreditTransaction) :
    Level now { credit with transactions := txs } { credit' with transactions := txs' } := by
  have left := level.left
  have right := level.right
  exact ⟨⟨level.subscriber, level.views, ⟨left.held, left.nonneg, left.fits⟩, ⟨right.held, right.nonneg, right.fits⟩⟩,
    level.balance⟩

theorem record_agree (paired : Paired now (ids + 1) accounts s v) (level : Level now credit credit')
    (kind : CreditTxKind) (amount : Int) (reason : String) (counterparty : Option Address) :
    Agree (fun x y => Level now x.1 y.1 ∧ Paired now ids accounts x.2 y.2)
      (record env s credit kind amount reason counterparty) (record env v credit' kind amount reason counterparty) := by
  apply (nextId_agree paired).bind
  intro x y next
  exact .ok ⟨level.recorded _ _, next⟩

theorem realizeExpiry_total (balanced : Balanced credit) (room : count s + 1 < 2 ^ 64) :
    ∃ result, realizeExpiry env s credit = .ok result := by
  have split := balanced.split env.timestamp
  have fits := balanced.fits
  have kept := spendableCredit_nonneg env.timestamp credit
  have gone := lapsedCredit_nonneg env.timestamp credit
  have sum : 0 + total (lapsed env.timestamp) credit.lots = lapsedCredit env.timestamp credit := Int.zero_add _
  have looped := @expireFrom_eq env.timestamp credit.lots 0 le_rfl (by omega)
  simp only [realizeExpiry, looped, sum, orPanic_ok, ok_bind]
  by_cases some : 0 < lapsedCredit env.timestamp credit
  · have next : i128 (credit.balance - lapsedCredit env.timestamp credit) = .ok _ :=
      (i128_eq_ok ..).mpr ⟨⟨by omega, by omega⟩, rfl⟩
    simp only [if_pos some, next, record, nextId_eq room, orPanic_ok, ok_bind]
    exact ⟨_, rfl⟩
  · rw [if_neg some]
    exact ⟨_, rfl⟩

theorem Realised.level {n m n' m' : Nat} {txs txs' : List CreditTransaction} {mid mid' : AccountCredit}
    (realised : Realised env n credit txs mid m) (realised' : Realised env n' credit' txs' mid' m')
    (twin : Twin env.timestamp credit credit') : Level env.timestamp mid mid' := by
  have left := realised.balanced twin.left
  have right := realised'.balanced twin.right
  have views : Credit.view env.timestamp mid = Credit.view env.timestamp mid' := by
    rw [realised.view, realised'.view, twin.views]
  refine ⟨⟨?_, views, left, right⟩, ?_⟩
  · rw [realised.fixed.1, realised'.fixed.1, twin.subscriber]
  · rw [left.split env.timestamp, right.split env.timestamp, realised.settled, realised'.settled,
      spendableCredit_same views]

theorem Sound.realised {s₁ : Accounts} {mid : AccountCredit} {txs : List CreditTransaction}
    (sound : Sound (ids + 1) accounts s) (realised : Realised env (count s) credit txs mid (count s₁))
    (frame : s₁ = { s with nextId := s₁.nextId }) : Sound ids accounts s₁ := by
  have room := sound.ids
  have one := realised.short
  have next := realised.ids.1
  refine ⟨?_, ?_, by omega, ?_⟩
  · rw [frame]
    exact sound.keyed
  · rw [frame]
    exact sound.balanced
  · rw [frame]
    exact sound.accounts

theorem realizeExpiry_agree (paired : Paired env.timestamp (ids + 1) accounts s v)
    (twin : Twin env.timestamp credit credit') :
    Agree (fun x y => Level env.timestamp x.1 y.1 ∧ Paired env.timestamp ids accounts x.2 y.2)
      (realizeExpiry env s credit) (realizeExpiry env v credit') := by
  have room := paired.left.ids
  have room' := paired.right.ids
  rcases @realizeExpiry_total env s credit twin.left (by omega) with ⟨⟨mid, s₁⟩, run⟩
  rcases @realizeExpiry_total env v credit' twin.right (by omega) with ⟨⟨mid', v₁⟩, run'⟩
  rcases realizeExpiry_ok run with ⟨txs, realised, frame⟩
  rcases realizeExpiry_ok run' with ⟨txs', realised', frame'⟩
  rw [run, run']
  refine .ok ⟨realised.level realised' twin, paired.left.realised realised frame,
    paired.right.realised realised' frame', ?_⟩
  intro a
  have views := paired.views a
  rw [frame, frame']
  exact views

theorem save_total (credit : AccountCredit) (room : accountCount s + 1 < 2 ^ 32) : ∃ s', save s credit = .ok s' := by
  have fits : u32 (s.accountCount.getD 0 + 1) = .ok (accountCount s + 1) := (u32_eq_ok ..).mpr ⟨room, rfl⟩
  unfold save register
  split
  · simp only [fits, orPanic_ok, ok_bind]
    exact ⟨_, rfl⟩
  · exact ⟨_, rfl⟩

theorem save_accountCount {s' : Accounts} (run : save s credit = .ok s') : accountCount s' ≤ accountCount s + 1 := by
  simp only [save, register, bind_eq_ok, pure_eq_ok] at run
  rcases run with ⟨s₁, registered, rfl⟩
  split at registered
  · simp only [bind_eq_ok, pure_eq_ok, orPanic_eq_ok, u32_eq_ok] at registered
    rcases registered with ⟨_, ⟨_, rfl⟩, rfl⟩
    exact le_rfl
  · cases registered
    exact Nat.le_succ _

theorem Sound.save {s' : Accounts} (sound : Sound ids (accounts + 1) s) (balanced : Balanced credit)
    (run : save s credit = .ok s') : Sound ids accounts s' := by
  have room := sound.accounts
  have one := save_accountCount run
  rcases save_ok run with ⟨counter, saved⟩
  refine ⟨fun a => ?_, fun a => ?_, ?_, by omega⟩
  · rw [saved a]
    split
    · rename_i here
      exact here.symm
    · exact sound.keyed a
  · rw [saved a]
    split
    · exact balanced
    · exact sound.balanced a
  · rw [counter]
    exact sound.ids

theorem save_agree (paired : Paired now ids (accounts + 1) s v) (twin : Twin now credit credit') :
    Agree (Paired now ids accounts) (save s credit) (save v credit') := by
  have room := paired.left.accounts
  have room' := paired.right.accounts
  rcases @save_total s credit (by omega) with ⟨s', run⟩
  rcases @save_total v credit' (by omega) with ⟨v', run'⟩
  rw [run, run']
  refine .ok ⟨paired.left.save twin.left run, paired.right.save twin.right run', fun a => ?_⟩
  rw [(save_ok run).2 a, (save_ok run').2 a, ← twin.subscriber]
  split
  · exact twin.views
  · exact paired.views a

end Helpers

section Steps

variable {now : Nat} {credit credit' : AccountCredit}

section

variable (level : Level now credit credit')

include level

theorem Level.granted (id id' issuedAt : Nat) (expiresAt : Option Nat) {amount : Int}
    (pos : 0 < amount) (fits : credit.balance + amount < 2 ^ 127) :
    Level now { credit with lots := credit.lots ++ [⟨id, amount, issuedAt, expiresAt⟩], balance := credit.balance + amount }
      { credit' with
        lots := credit'.lots ++ [⟨id', amount, issuedAt, expiresAt⟩], balance := credit'.balance + amount } := by
  have views (credit : AccountCredit) (id : Nat) (balance : Int) :
      view now { credit with lots := credit.lots ++ [⟨id, amount, issuedAt, expiresAt⟩], balance } =
        ((view now credit).1, (view now credit).2 ++ [seen now ⟨0, amount, issuedAt, expiresAt⟩]) := by
    unfold view
    rw [map_append]
    rfl
  refine ⟨⟨level.subscriber, ?_, level.left.granted rfl rfl pos fits,
    level.right.granted rfl rfl pos (level.balance ▸ fits)⟩, congrArg (· + amount) level.balance⟩
  rw [views, views, level.views]

theorem Level.drawn {asked : Int} (asking : 0 ≤ asked) : Level now
      { credit with
        lots := (draw (spendable now) CreditLot.reduce credit.lots asked).1
        balance := credit.balance - min asked (spendableCredit now credit) }
      { credit' with
        lots := (draw (spendable now) CreditLot.reduce credit'.lots asked).1
        balance := credit'.balance - min asked (spendableCredit now credit') } := by
  have views (credit : AccountCredit) (balance : Int) :
      view now { credit with lots := (draw (spendable now) CreditLot.reduce credit.lots asked).1, balance } =
        ((view now credit).1, (draw (·.2) (fun worth taken => (worth.1, worth.2 - taken)) (view now credit).2 asked).1) :=
    congrArg (Prod.mk _) (seen_draw now credit.lots asking)
  refine ⟨⟨level.subscriber, ?_, level.left.drawn asking rfl rfl, level.right.drawn asking rfl rfl⟩, ?_⟩
  · rw [views, views, level.views]
  · rw [spendableCredit_same level.views, level.balance]

theorem Level.consumed {asked : Int} (asking : 0 ≤ asked) :
    ∃ moved rest rest', consume now credit asked = (moved, rest) ∧ consume now credit' asked = (moved, rest') ∧
      moved = min asked (spendableCredit now credit) ∧ rest.balance = rest'.balance ∧
      Level now { rest with balance := rest.balance - moved } { rest' with balance := rest'.balance - moved } := by
  have moved := spendableCredit_same level.views
  have drawn := level.drawn asking
  rw [← moved] at drawn
  rw [consume_eq now credit asking, consume_eq now credit' asking, ← moved]
  exact ⟨_, _, _, rfl, rfl, rfl, level.balance, drawn⟩

end

end Steps

end SubTrackr.Credit

import SubTrackr.Lib.Fallible

namespace SubTrackr.Soroban

open Lib

structure Address where
  id : Nat
  deriving DecidableEq

/-- What ends a contract call early. The host then reverts every write of the call. -/
inductive Panic where
  | message (text : String)
  | unauthorized (address : Address)
  | overflow
  | host (text : String)
  deriving DecidableEq

abbrev Result (α : Type) := Except Panic α

/-- How a call with an error type of its own ends early: with one of its errors, or with a panic. -/
inductive Failure (E : Type) where
  | error (e : E)
  | panic (p : Panic)
  deriving DecidableEq

def orPanic {E α : Type} (r : Result α) : Except (Failure E) α := r.mapError .panic

/-- Results of `u32`, `u64` and `i128` arithmetic. The release profile sets `overflow-checks`,
    so a value outside the type panics and never wraps. -/
def u32 (n : Nat) : Result Nat := below (2 ^ 32) .overflow n
def u64 (n : Nat) : Result Nat := below (2 ^ 64) .overflow n
def i128 (n : Int) : Result Int := signed 128 .overflow n

def u64Max : Nat := 2 ^ 64 - 1
def i128Max : Int := 2 ^ 127 - 1

def i128Min : Int := -2 ^ 127

def i128Saturating (n : Int) : Int := max i128Min (min n i128Max)

def ensure (c : Prop) [Decidable c] (text : String) : Result Unit := require c (.message text)

def expect {α : Type} (o : Option α) (text : String) : Result α := present o (.message text)

structure Host where
  timestamp : Nat
  authorized : Address → Bool

def Host.requireAuth (host : Host) (address : Address) : Result Unit :=
  require (host.authorized address = true) (.unauthorized address)

structure Temporary (α : Type) where
  value : α
  liveUntil : Nat
  deriving DecidableEq

def Temporary.get {α : Type} (ledgerSequence : Nat) (entry : Option (Temporary α)) : Option α :=
  (entry.filter fun e => ledgerSequence ≤ e.liveUntil).map (·.value)

abbrev Bytes := List UInt8
abbrev BytesN (n : Nat) := Vector UInt8 n

def beBytes (width n : Nat) : Bytes :=
  (List.range width).reverse.map fun i => UInt8.ofNat (n / 256 ^ i)

theorem Temporary.get_eq_some {α : Type} (ledgerSequence : Nat) (entry : Option (Temporary α)) (a : α) :
    Temporary.get ledgerSequence entry = some a ↔ ∃ e, entry = some e ∧ ledgerSequence ≤ e.liveUntil ∧ e.value = a := by
  cases entry with
  | none => simp [Temporary.get]
  | some e => simp [Temporary.get, Option.filter, and_comm]

theorem orPanic_ok {E α : Type} (a : α) : (orPanic (.ok a) : Except (Failure E) α) = .ok a := rfl

theorem orPanic_eq_ok {E α : Type} (r : Result α) (a : α) : (orPanic r : Except (Failure E) α) = .ok a ↔ r = .ok a := by
  cases r with
  | error p => simp [orPanic, Except.mapError]
  | ok b => simp [orPanic, Except.mapError]

theorem u32_eq_ok (n m : Nat) : u32 n = .ok m ↔ n < 2 ^ 32 ∧ n = m := below_eq_ok ..

theorem u64_eq_ok (n m : Nat) : u64 n = .ok m ↔ n < 2 ^ 64 ∧ n = m := below_eq_ok ..

theorem i128_eq_ok (n m : Int) : i128 n = .ok m ↔ (-2 ^ 127 ≤ n ∧ n < 2 ^ 127) ∧ n = m := signed_eq_ok ..

theorem ensure_eq_ok (c : Prop) [Decidable c] (text : String) (u : Unit) : ensure c text = .ok u ↔ c := require_eq_ok ..

theorem expect_eq_ok {α : Type} (o : Option α) (text : String) (a : α) :
    expect o text = .ok a ↔ o = some a := present_eq_ok ..

theorem Host.requireAuth_eq_ok (host : Host) (address : Address) (u : Unit) :
    host.requireAuth address = .ok u ↔ host.authorized address = true := require_eq_ok ..

end SubTrackr.Soroban

import SubTrackr.Lib.InsertionMap
import Mathlib.Algebra.Order.Ring.Int

namespace SubTrackr.Idempotency

open Lib

def WINDOW_MS : ℤ := 24 * 60 * 60 * 1000

def MAX_KEYS : ℕ := 100000

inductive IdempotencyStatus
  | pending
  | completed
  | failed
  deriving DecidableEq

structure IdempotencyRecord (ρ : Type) where
  (key requestHash : String)
  status : IdempotencyStatus
  response : Option ρ
  createdAt : ℤ
  completedAt : Option ℤ
  answered : status = .completed → response.isSome

inductive IdempotencyError
  | keyCollision (key : String)
  | requestInFlight (key : String)

def IdempotencyError.message : IdempotencyError → String
  | .keyCollision key =>
    "Idempotency key \"" ++ key ++ "\" was already used with a different request payload. " ++
      "Use a new key for a different operation."
  | .requestInFlight key =>
    "A request with idempotency key \"" ++ key ++ "\" is already in progress. " ++
      "Retry after the original request completes."

variable {ρ : Type}

/-- A call throws, returns what is stored, or starts its operation and waits. An operation has the number of its
    record. -/
inductive Answer (ρ : Type)
  | thrown (error : IdempotencyError)
  | cached (response : Option ρ)
  | started (operation : ℕ)

/-- The service, with every record it has made: the closure of a call holds its record even when the map no longer
    does. -/
structure IdempotencyService (ρ : Type) where
  windowMs : ℤ
  store : OrderedMap String ℕ
  records : List (IdempotencyRecord ρ)
  held (key : String) (operation : ℕ) :
    store.lookup key = some operation → ∃ r, records[operation]? = some r ∧ r.key = key

namespace IdempotencyService

variable (s : IdempotencyService ρ) (key requestHash : String) (now : ℤ)

def new (windowMs : ℤ) : IdempotencyService ρ := ⟨windowMs, ∅, [], fun _ _ found => nomatch found⟩

def get : Option (IdempotencyRecord ρ) := (s.store.lookup key).bind fun operation => s.records[operation]?

def delete : IdempotencyService ρ where
  windowMs := s.windowMs
  store := s.store.erase key
  records := s.records
  held k operation found := s.held k operation (OrderedMap.lookup_erase_eq_some.mp found).2

def evictCount : ℕ := MAX_KEYS / 10

def enforceStorageLimit : IdempotencyService ρ where
  windowMs := s.windowMs
  store := if MAX_KEYS ≤ s.store.size then s.store.dropOldest evictCount else s.store
  records := s.records
  held k operation found := by
    split at found
    · exact s.held k operation (OrderedMap.lookup_of_dropOldest found)
    · exact s.held k operation found

def markInFlight : IdempotencyService ρ where
  windowMs := s.windowMs
  store := s.store.insert key s.records.length
  records := s.records ++ [⟨key, requestHash, .pending, none, now, none, nofun⟩]
  held k operation found := by
    rcases OrderedMap.lookup_insert_eq_some.mp found with ⟨rfl, rfl⟩ | ⟨-, older⟩
    · exact ⟨_, List.getElem?_concat_length, rfl⟩
    · obtain ⟨r, known, same⟩ := s.held k operation older
      refine ⟨r, ?_, same⟩
      rw [List.getElem?_append_left (List.getElem?_eq_some_iff.mp known).1]
      exact known

def execute : Answer ρ × IdempotencyService ρ :=
  let s := s.enforceStorageLimit
  match s.get key with
  | some existing =>
    if existing.requestHash ≠ requestHash then (.thrown (.keyCollision key), s)
    else
      match existing.status with
      | .pending => (.thrown (.requestInFlight key), s)
      | .completed => (.cached existing.response, s)
      | .failed => (.started s.records.length, (s.delete key).markInFlight key requestHash now)
  | none => (.started s.records.length, s.markInFlight key requestHash now)

def settle (operation : ℕ) (f : IdempotencyRecord ρ → IdempotencyRecord ρ) (named : ∀ r, (f r).key = r.key) :
    IdempotencyService ρ where
  windowMs := s.windowMs
  store := s.store
  records := s.records.modify operation f
  held k i found := by
    obtain ⟨r, known, same⟩ := s.held k i found
    rw [List.getElem?_modify, known]
    refine ⟨_, rfl, ?_⟩
    dsimp only
    split
    · rw [named, same]
    · exact same

def succeed (operation : ℕ) (response : ρ) : IdempotencyService ρ :=
  s.settle operation
    (fun r => { r with
      status := .completed, response := some response, completedAt := some now, answered := fun _ => rfl })
    fun _ => rfl

/-- What the key of the failed call is mapped to goes, whichever record that is. -/
def fail (operation : ℕ) : IdempotencyService ρ :=
  match s.records[operation]? with
  | none => s
  | some record =>
    (s.settle operation (fun r => { r with status := .failed, answered := nofun }) fun _ => rfl).delete record.key

def expired (operation : ℕ) : Bool := s.records[operation]?.any (·.createdAt < now - s.windowMs)

def cleanup : ℕ × IdempotencyService ρ :=
  (s.store.entries.countP fun e => s.expired now e.2,
    { windowMs := s.windowMs
      store := s.store.keep fun _ operation => !s.expired now operation
      records := s.records
      held k operation found := s.held k operation (OrderedMap.lookup_keep_eq_some.mp found).1 })

end IdempotencyService

end SubTrackr.Idempotency

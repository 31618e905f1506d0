import Mathlib.Data.List.Lex
import Mathlib.Data.List.Sort
import SubTrackr.Idempotency.Service
import SubTrackr.Lib.JsValue
import SubTrackr.Lib.Utf16

namespace SubTrackr.Idempotency

open List Lib JsValue

/-- The code units by which names are sorted. -/
def units (name : String) : List ℕ := (Utf16.encode name.toList).map UInt16.toNat

def sortedKeys (body : Json.Members) : List String :=
  (body.map Prod.fst).insertionSort fun a b => units a ≤ units b

def canonical (body : Json.Members) : String :=
  ((toJson (some (sortedKeys body)) (.ofJson (.object body))).map Json.stringify).getD ""

def rollingHash (canonical : String) : ℤ :=
  (Utf16.encode canonical.toList).foldl (fun hash unit => ((31 * hash).bmod (2 ^ 32) + unit.toNat).bmod (2 ^ 32)) 0

def hashRequest (body : Json.Members) : String :=
  let hash := rollingHash (canonical body)
  (if hash < 0 then "-" else "") ++ String.ofList (Nat.toDigits 16 hash.natAbs)

def sorted (members : Json.Members) : Json.Members :=
  members.insertionSort fun a b => units a.1 ≤ units b.1

/-- The bodies are equal up to the order of the members of objects. -/
def SameBody (a b : Json.Members) : Prop := (Json.object a).mapObjects sorted = (Json.object b).mapObjects sorted

structure Detected (ρ : Type) (body other : Json.Members) : Prop where
  hashes : hashRequest body = hashRequest other ↔ SameBody body other
  collides : ∀ (s : IdempotencyService ρ) key now record, s.enforceStorageLimit.get key = some record →
    record.requestHash = hashRequest body → ¬ SameBody body other →
      (s.execute key (hashRequest other) now).1 = .thrown (.keyCollision key)
  answers : ∀ (s : IdempotencyService ρ) key now record, s.enforceStorageLimit.get key = some record →
    record.requestHash = hashRequest body → record.status = .completed → SameBody body other →
      (s.execute key (hashRequest other) now).1 = .cached record.response

variable {ρ : Type} {body other members : Json.Members} {keys : List String}

theorem detected_of_hashes (hashes : hashRequest body = hashRequest other ↔ SameBody body other) : Detected ρ body other where
  hashes := hashes
  collides s key now record found made different := by
    simp only [IdempotencyService.execute, found, made]
    rw [if_pos fun same => different (hashes.mp same)]
  answers s key now record found made completed same := by
    simp only [IdempotencyService.execute, found, made]
    rw [if_neg (not_not.mpr (hashes.mpr same)), completed]

theorem sorted_perm (members : Json.Members) : (sorted members).Perm members := perm_insertionSort ..

theorem pick_sortedKeys (distinct : (members.map Prod.fst).Nodup) :
    pick (some (sortedKeys members)) members = sorted members := by
  have names : sortedKeys members = (sorted members).map Prod.fst := (map_insertionSort _ _ Prod.fst _ fun _ _ _ _ => Iff.rfl).symm
  rw [pick, names, filterMap_map]
  refine (filterMap_congr fun m mem => ?_).trans filterMap_some
  obtain ⟨before, after, rfl⟩ := append_of_mem ((sorted_perm members).mem_iff.mp mem)
  rw [map_append, map_cons, nodup_middle] at distinct
  have first : (before ++ m :: after).lookup m.1 = some m.2 := by
    refine lookup_eq_some_iff.mpr ⟨before, after, rfl, fun other mem => bne_iff_ne.mpr fun same => ?_⟩
    exact (nodup_cons.mp distinct).1 (mem_append_left _ (same ▸ mem_map_of_mem mem))
  rw [Function.comp_apply, first]
  rfl

theorem names_mapMembers (f : Json.Members → Json.Members) (members : Json.Members) :
    (Json.mapMembers f members).map Prod.fst = members.map Prod.fst := by
  rw [Json.mapMembers_eq_map, map_map]
  rfl

theorem canonical_eq (distinct : (body.map Prod.fst).Nodup) :
    canonical body = (Json.object (sorted (Json.mapMembers (pick (some (sortedKeys body))) body))).stringify := by
  have keys : sortedKeys (Json.mapMembers (pick (some (sortedKeys body))) body) = sortedKeys body := by
    rw [sortedKeys, names_mapMembers, ← sortedKeys]
  rw [← pick_sortedKeys (by rwa [names_mapMembers]), keys, canonical, toJson_ofJson]
  rfl

/-- An object without others inside is compared by its members, whatever becomes of the objects inside the other one. -/
theorem sorted_mapMembers_iff (f : Json.Members → Json.Members) (plain : ∀ m ∈ body, m.2.Plain) :
    sorted body = sorted (Json.mapMembers f other) ↔ sorted body = sorted other := by
  have through {members : Json.Members} (same : sorted body = sorted members) (m : String × Json)
      (mem : m ∈ members) : m.2.Plain :=
    plain m ((sorted_perm body).mem_iff.mp (same ▸ (sorted_perm members).mem_iff.mpr mem))
  constructor
  · intro same
    rwa [Json.mapMembers_plain f (.inr (through same))] at same
  · intro same
    rwa [Json.mapMembers_plain f (.inl (through same))]

theorem canonical_eq_iff (plain : ∀ m ∈ body, m.2.Plain) (distinct : (body.map Prod.fst).Nodup)
    (distinct' : (other.map Prod.fst).Nodup) : canonical body = canonical other ↔ SameBody body other := by
  rw [canonical_eq distinct, canonical_eq distinct', Json.stringify_injective.eq_iff, Json.object.injEq,
    Json.mapMembers_plain _ (.inl plain), sorted_mapMembers_iff _ plain, SameBody, Json.mapObjects, Json.mapObjects,
    Json.object.injEq, Json.mapMembers_plain _ (.inl plain), sorted_mapMembers_iff _ plain]

theorem exists_fresh (names : List String) : ∃ name, name ∉ names := by
  have := Infinite.of_injective String.ofList fun _ _ => String.ofList_injective
  obtain ⟨name, new⟩ := Infinite.exists_notMem_finset names.toFinset
  exact ⟨name, fun mem => new (mem_toFinset.mpr mem)⟩

mutual

/-- Into any object that lies inside a name can be put which is not picked. -/
theorem exists_confused (keys : List String) : ∀ j : Json, j.Distinct → ¬ j.Plain → ∃ j' : Json, j'.Distinct ∧
    j'.mapObjects (pick (some keys)) = j.mapObjects (pick (some keys)) ∧ j'.mapObjects sorted ≠ j.mapObjects sorted
  | .array items, distinct, nested => by
    obtain ⟨items', distinct', same, other⟩ := exists_confusedItems keys items distinct nested
    exact ⟨.array items', distinct', congrArg Json.array same, fun equal => other (Json.array.inj equal)⟩
  | .object members, distinct, _ => by
    obtain ⟨name, new⟩ := exists_fresh (keys ++ members.map Prod.fst)
    obtain ⟨unpicked, unused⟩ := not_or.mp (mt mem_append.mpr new)
    refine ⟨.object ((name, .null) :: members), ⟨nodup_cons.mpr ⟨unused, distinct.1⟩, trivial, distinct.2⟩, ?_, fun equal => ?_⟩
    · refine congrArg Json.object (filterMap_congr fun key mem => ?_)
      rw [Json.mapMembers, lookup_cons, beq_false_of_ne fun same : key = name => unpicked (same ▸ mem)]
    · have lengths := congrArg length (Json.object.inj equal)
      rw [(sorted_perm _).length_eq, (sorted_perm _).length_eq, Json.mapMembers_eq_map, Json.mapMembers_eq_map] at lengths
      simp at lengths
  | .null, _, nested | .bool _, _, nested | .number _, _, nested | .string _, _, nested => (nested trivial).elim

theorem exists_confusedItems (keys : List String) : ∀ items : List Json,
    Json.ForallItems (fun members => (members.map Prod.fst).Nodup) items → ¬ Json.ForallItems (fun _ => False) items →
      ∃ items', Json.ForallItems (fun members => (members.map Prod.fst).Nodup) items' ∧
        Json.mapItems (pick (some keys)) items' = Json.mapItems (pick (some keys)) items ∧
          Json.mapItems sorted items' ≠ Json.mapItems sorted items
  | [], _, nested => (nested trivial).elim
  | item :: items, distinct, nested => by
    by_cases plain : item.Plain
    · obtain ⟨items', distinct', same, other⟩ := exists_confusedItems keys items distinct.2 fun rest => nested ⟨plain, rest⟩
      exact ⟨item :: items', ⟨distinct.1, distinct'⟩, congrArg (cons _) same, fun equal => other (cons.inj equal).2⟩
    · obtain ⟨item', distinct', same, other⟩ := exists_confused keys item distinct.1 plain
      exact ⟨item' :: items, ⟨distinct', distinct.2⟩, congrArg (· :: _) same, fun equal => other (cons.inj equal).1⟩

end

theorem exists_confusedBody (distinct : (Json.object body).Distinct) (nested : ¬ ∀ m ∈ body, m.2.Plain) :
    ∃ other, (Json.object other).Distinct ∧ canonical body = canonical other ∧ ¬ SameBody body other := by
  simp only [not_forall] at nested
  obtain ⟨⟨name, value⟩, mem, nested⟩ := nested
  obtain ⟨before, after, rfl⟩ := append_of_mem mem
  obtain ⟨unique, each⟩ := distinct
  have each := (Json.forallMembers_iff _).mp each
  obtain ⟨value', distinct', same, different⟩ :=
    exists_confused (sortedKeys (before ++ (name, value) :: after)) value (each _ mem) nested
  have names : (before ++ (name, value') :: after).map Prod.fst = (before ++ (name, value) :: after).map Prod.fst := by
    rw [map_append, map_append, map_cons, map_cons]
  have unique' : ((before ++ (name, value') :: after).map Prod.fst).Nodup := names ▸ unique
  have keys : sortedKeys (before ++ (name, value') :: after) = sortedKeys (before ++ (name, value) :: after) := by
    rw [sortedKeys, names, ← sortedKeys]
  refine ⟨before ++ (name, value') :: after, ⟨unique', (Json.forallMembers_iff _).mpr fun m mem => ?_⟩, ?_, fun equal => ?_⟩
  · simp only [mem_append, mem_cons] at mem each
    rcases mem with earlier | rfl | later
    · exact each m (.inl earlier)
    · exact distinct'
    · exact each m (.inr (.inr later))
  · rw [canonical_eq unique, canonical_eq unique', keys, Json.mapMembers_eq_map,
      Json.mapMembers_eq_map, map_append, map_append, map_cons, map_cons, same]
  · have perm := (sorted_perm _).symm.trans ((Perm.of_eq (Json.object.inj equal)).trans (sorted_perm _))
    rw [Json.mapMembers_eq_map, Json.mapMembers_eq_map, map_append, map_append, map_cons, map_cons,
      perm_append_left_iff, ← singleton_append, ← singleton_append (l := map _ after), perm_append_right_iff] at perm
    exact different (Prod.mk.inj (singleton_perm_singleton.mp perm)).2.symm

/-- As far as the hash tells canonical texts apart, every body but an equal one is told apart from `body`. -/
def Detects (ρ : Type) (body : Json.Members) : Prop := ∀ other, (Json.object other).Distinct →
  (hashRequest body = hashRequest other → canonical body = canonical other) → Detected ρ body other

theorem detects_iff (ρ : Type) (distinct : (Json.object body).Distinct) : Detects ρ body ↔ ∀ m ∈ body, m.2.Plain := by
  constructor
  · intro all
    by_contra nested
    obtain ⟨other, distinct', same, different⟩ := exists_confusedBody distinct nested
    exact different ((all other distinct' fun _ => same).hashes.mp (by rw [hashRequest, same]; rfl))
  · intro plain other distinct' unlike
    have texts := canonical_eq_iff plain distinct.1 distinct'.1
    exact detected_of_hashes ⟨fun same => texts.mp (unlike same), fun same => by rw [hashRequest, texts.mpr same]; rfl⟩

def requestOf (customer : ℤ) : Json.Members :=
  [("amount", .number (.ofInt 100)), ("customer", .object [("id", .number (.ofInt customer))])]

theorem distinct_requestOf (customer : ℤ) : (Json.object (requestOf customer)).Distinct :=
  ⟨by simp [requestOf], trivial, ⟨by simp, trivial, trivial⟩, trivial⟩

theorem detects_iff_requestOf : Detects ℕ (requestOf 1) ↔ ∀ m ∈ requestOf 1, m.2.Plain :=
  detects_iff ℕ (distinct_requestOf 1)

/-- No body has `id` among its own names, so that the ids of the customers are left out. -/
theorem not_detects : ¬ ∀ body, (Json.object body).Distinct → Detects ℕ body := by
  intro all
  have same : canonical (requestOf 1) = canonical (requestOf 2) := by decide +kernel
  have detected := all _ (distinct_requestOf 1) _ (distinct_requestOf 2) fun _ => same
  have equal := detected.hashes.mp (by rw [hashRequest, same]; rfl)
  exact absurd (congrArg Json.stringify equal) (by decide +kernel)

end SubTrackr.Idempotency

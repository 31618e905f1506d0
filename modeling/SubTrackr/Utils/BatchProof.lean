import SubTrackr.Soroban
import SubTrackr.Lib.Merkle
import SubTrackr.Lib.Store

namespace SubTrackr.Utils

open List Lib Soroban

abbrev Digest := BytesN 32

def zeroDigest : Digest := Vector.replicate 32 0

structure MerkleProof where
  index : Nat
  siblings : List Digest

section Tree

-- The hash of the host.
variable (sha256 : Bytes → Digest)

def hashPair (left right : Digest) : Digest := sha256 (left.toList ++ right.toList)

def computeMerkleRoot (leaves : List Digest) : Digest := Merkle.root (hashPair sha256) zeroDigest leaves

/-- An unpaired last node adds no sibling, and the proof does not say at which level that was. -/
def generateMerkleProof (leaves : List Digest) (leafIndex : Nat) : MerkleProof where
  index := leafIndex
  siblings := Merkle.siblings (hashPair sha256) leaves leafIndex

def MerkleProof.verify (proof : MerkleProof) (root leaf : Digest) : Bool :=
  decide (Merkle.climb (hashPair sha256) proof.index proof.siblings leaf = root)

end Tree

def digestAt (start : Nat) (bytes : Bytes) : Digest := Vector.ofFn fun i => bytes.getD (start + i) 0

def firstByte (digest : Digest) : UInt8 := digest[0]

def bump (digest : Digest) : Digest := digest.set 0 (digest[0] + 1)

theorem digestAt_left (left right : Digest) : digestAt 0 (left.toList ++ right.toList) = left := by
  ext i bound
  simp [digestAt, getElem?_append_left]

theorem digestAt_right (left right : Digest) : digestAt 32 (left.toList ++ right.toList) = right := by
  ext i bound
  simp [digestAt, getElem?_append_right]

theorem hashPair_left (f : Digest → Digest) : hashPair (fun bytes => f (digestAt 0 bytes)) = fun left _ => f left := by
  funext left right
  rw [hashPair, digestAt_left]

theorem hashPair_right (f : Digest → Digest) :
    hashPair (fun bytes => f (digestAt 32 bytes)) = fun _ right => f right := by
  funext left right
  rw [hashPair, digestAt_right]

theorem firstByte_bump (digest : Digest) (n : Nat) : firstByte (bump^[n] digest) = firstByte digest + UInt8.ofNat n := by
  induction n with
  | zero => simp
  | succ n ih =>
    have once : firstByte (bump (bump^[n] digest)) = firstByte (bump^[n] digest) + 1 := by simp [firstByte, bump]
    rw [Function.iterate_succ_apply', once, ih, UInt8.ofNat_add, UInt8.add_assoc]
    rfl

theorem bump_departs {digest : Digest} {m n : Nat} (order : m < n) (small : n < 256) :
    bump^[n] digest ≠ bump^[m] digest := by
  intro same
  have bytes := congrArg (fun digest => (firstByte digest).toNat) same
  simp only [firstByte_bump, UInt8.toNat_add, UInt8.toNat_ofNat'] at bytes
  omega

theorem map_getD (leaves : List Digest) :
    (List.range leaves.length).map (fun i => leaves.getD i zeroDigest) = leaves := by
  apply ext_getElem
  · simp
  · intro i _ bound
    simp [bound]

/-- A proof of a leaf verifies whatever the hash when the node over the leaf is never the unpaired last of its level,
    and else for some hash it does not. -/
theorem merkle_complete {leaves : List Digest} {idx : Nat} (size : leaves.length < 2 ^ 32)
    (within : idx < leaves.length) :
    (∀ sha256, (generateMerkleProof sha256 leaves idx).verify sha256 (computeMerkleRoot sha256 leaves) leaves[idx] =
      true) ↔ ∀ l, ¬ Merkle.Unpaired leaves.length idx l := by
  constructor
  · intro complete l unpaired
    obtain ⟨i, j, r, c, order, small, departs⟩ := Merkle.unpaired_departs within unpaired size.le
    have here : leaves.getD idx zeroDigest = leaves[idx] := by
      rw [getD_eq_getElem?_getD, getElem?_eq_getElem within, Option.getD_some]
    have reaches (f : Digest → Digest) : f^[c] (leaves.getD j zeroDigest) = f^[r] (leaves.getD i zeroDigest) := by
      have verified := of_decide_eq_true (complete fun bytes => f (digestAt 32 bytes))
      obtain ⟨top, reached⟩ := departs f zeroDigest fun i => leaves.getD i zeroDigest
      rw [map_getD] at top reached
      rw [← top, ← reached, here, ← hashPair_right]
      exact verified
    have same : leaves.getD j zeroDigest = leaves.getD i zeroDigest := by
      have kept := reaches id
      rwa [Function.iterate_id, Function.iterate_id] at kept
    have counted := reaches bump
    rw [same] at counted
    exact bump_departs order (by omega) counted
  · intro paired sha256
    apply decide_eq_true
    exact Merkle.climb_siblings _ _ _ _ _ (getElem?_eq_getElem within) paired

def repeated (byte : UInt8) : Digest := Vector.replicate 32 byte

def threeLeaves : List Digest := [repeated 1, repeated 1, repeated 2]

theorem merkle_complete_three : (∀ sha256, (generateMerkleProof sha256 threeLeaves 1).verify sha256
    (computeMerkleRoot sha256 threeLeaves) threeLeaves[1] = true) ↔ ∀ l, ¬ Merkle.Unpaired threeLeaves.length 1 l :=
  merkle_complete (by decide) (by decide)

theorem merkle_incomplete : ¬ ∀ sha256 leaves idx, ∀ within : idx < leaves.length,
    (generateMerkleProof sha256 leaves idx).verify sha256 (computeMerkleRoot sha256 leaves) leaves[idx] = true := by
  intro complete
  have verified := of_decide_eq_true (complete (fun bytes => id (digestAt 32 bytes)) threeLeaves 2 (by decide))
  have pairs : Merkle.pairUp (fun _ right => id right) threeLeaves = [repeated 1, repeated 2] := rfl
  have root : computeMerkleRoot (fun bytes => id (digestAt 32 bytes)) threeLeaves = repeated 2 := by
    rw [computeMerkleRoot, hashPair_right, Merkle.root_long (by decide), pairs, Merkle.root_long (by decide)]
    exact Merkle.root_short (by decide)
  have path : (generateMerkleProof (fun bytes => id (digestAt 32 bytes)) threeLeaves 2).siblings = [repeated 1] := by
    rw [generateMerkleProof, hashPair_right, Merkle.siblings_long (by decide), pairs,
      Merkle.siblings_long (by decide), Merkle.siblings_short (by decide)]
    rfl
  rw [root, path, hashPair_right] at verified
  exact absurd verified (by decide)

/-- The storage that the batch functions use: values in persistent storage, roots in instance storage. -/
structure Storage where
  persistent : Store Bytes Bytes
  roots : Store Bytes Digest

def makeStorageKey (keyPrefix key : Bytes) : Bytes := keyPrefix ++ key

def makeRootKey (keyPrefix : Bytes) : Bytes := keyPrefix ++ "_merkle_root".toUTF8.toList

def keyValueInput (key : Bytes) (value : Option Bytes) : Bytes := key ++ value.getD [0]

section Batch

variable (sha256 : Bytes → Digest)

def hashKeyValue (key : Bytes) (value : Option Bytes) : Digest := sha256 (keyValueInput key value)

def batchInsert (s : Storage) (keyPrefix : Bytes) (values : List (Bytes × Bytes)) : Storage :=
  let leaves := values.map fun e => hashKeyValue sha256 e.1 (some e.2)
  { persistent := putAll s.persistent (values.map fun e => (makeStorageKey keyPrefix e.1, e.2))
    roots := put s.roots (makeRootKey keyPrefix) (computeMerkleRoot sha256 leaves) }

def batchGet (s : Storage) (keyPrefix : Bytes) (keys : List Bytes) : List (Bytes × Option Bytes) × MerkleProof :=
  let results := keys.map fun key => (key, s.persistent (makeStorageKey keyPrefix key))
  let leaves := results.map fun e => hashKeyValue sha256 e.1 e.2
  (results, generateMerkleProof sha256 leaves 0)

def batchLeaves : List Bytes → List (Option Bytes) → Result (List Digest)
  | [], _ => .ok []
  | _ :: _, [] => .error (.message "called Option::unwrap() on a None value")
  | key :: keys, value :: values => do
    let leaves ← batchLeaves keys values
    return hashKeyValue sha256 key value :: leaves

def verifyBatch (s : Storage) (keyPrefix : Bytes) (keys : List Bytes) (values : List (Option Bytes))
    (proof : MerkleProof) : Result Bool := do
  let leaves ← batchLeaves sha256 keys values
  match s.roots (makeRootKey keyPrefix) with
  | none => return false
  | some storedRoot => return proof.verify sha256 storedRoot (computeMerkleRoot sha256 leaves)

end Batch

section Inputs

variable (sha256 : Bytes → Digest)

def pairInputs : List Digest → List Bytes
  | left :: right :: rest => (left.toList ++ right.toList) :: pairInputs rest
  | _ => []

def rootInputs (leaves : List Digest) : List Bytes :=
  if leaves.length ≤ 1 then []
  else pairInputs leaves ++ rootInputs (Merkle.pairUp (hashPair sha256) leaves)
termination_by leaves.length
decreasing_by
  rw [Merkle.length_pairUp]
  omega

def climbInputs : Nat → List Digest → Digest → List Bytes
  | _, [], _ => []
  | idx, s :: rest, node =>
    if idx % 2 = 0 then (node.toList ++ s.toList) :: climbInputs (idx / 2) rest (hashPair sha256 node s)
    else (s.toList ++ node.toList) :: climbInputs (idx / 2) rest (hashPair sha256 s node)

def insertInputs (values : List (Bytes × Bytes)) : List Bytes :=
  values.map (fun e => keyValueInput e.1 (some e.2)) ++
    rootInputs sha256 (values.map fun e => hashKeyValue sha256 e.1 (some e.2))

def verifyInputs (keys : List Bytes) (values : List (Option Bytes)) (proof : MerkleProof) : List Bytes :=
  let leaves := List.zipWith (hashKeyValue sha256) keys values
  List.zipWith keyValueInput keys values ++ rootInputs sha256 leaves ++
    climbInputs sha256 proof.index proof.siblings (computeMerkleRoot sha256 leaves)

def CollisionFree (inputs : List Bytes) : Prop := ∀ a ∈ inputs, ∀ b ∈ inputs, sha256 a = sha256 b → a = b

end Inputs

section RoundTrip

variable (sha256 : Bytes → Digest) (s : Storage) (keyPrefix : Bytes) (entries : List (Bytes × Bytes))

def keysOf : List Bytes := entries.map (·.1)

def leavesOf : List Digest := entries.map fun e => hashKeyValue sha256 e.1 (some e.2)

def readBack : List (Option Bytes) × MerkleProof :=
  let (results, proof) := batchGet sha256 (batchInsert sha256 s keyPrefix entries) keyPrefix (keysOf entries)
  (results.map (·.2), proof)

def verifyValues (values : List (Option Bytes)) : Result Bool :=
  verifyBatch sha256 (batchInsert sha256 s keyPrefix entries) keyPrefix (keysOf entries) values
    (readBack sha256 s keyPrefix entries).2

structure BatchVerifies : Prop where
  verifies : ∀ sha256, verifyValues sha256 s keyPrefix entries (readBack sha256 s keyPrefix entries).1 = .ok true
  binds : ∀ sha256 values, values.length = entries.length → values ≠ entries.map (fun e => some e.2) →
    CollisionFree sha256 (insertInputs sha256 entries ++
      verifyInputs sha256 (keysOf entries) values (readBack sha256 s keyPrefix entries).2) →
    verifyValues sha256 s keyPrefix entries values ≠ .ok true

end RoundTrip

section Verify

variable {sha256 : Bytes → Digest} {s : Storage} {keyPrefix : Bytes} {entries : List (Bytes × Bytes)}

theorem readBack_eq (nodup : (keysOf entries).Nodup) : readBack sha256 s keyPrefix entries =
    (entries.map (fun e => some e.2), generateMerkleProof sha256 (leavesOf sha256 entries) 0) := by
  have apart : ((entries.map fun e => (makeStorageKey keyPrefix e.1, e.2)).map (·.1)).Nodup := by
    rw [map_map]
    have injective : Function.Injective (makeStorageKey keyPrefix) := fun _ _ same => append_cancel_left same
    have keys := List.Nodup.map injective nodup
    rwa [keysOf, map_map] at keys
  have held (e) (mem : e ∈ entries) :
      (batchInsert sha256 s keyPrefix entries).persistent (makeStorageKey keyPrefix e.1) = some e.2 :=
    putAll_mem apart (mem_map_of_mem mem) s.persistent
  have results : (keysOf entries).map (fun key =>
      (key, (batchInsert sha256 s keyPrefix entries).persistent (makeStorageKey keyPrefix key))) =
      entries.map fun e => (e.1, some e.2) := by
    rw [keysOf, map_map]
    exact map_congr_left fun e mem => congrArg (Prod.mk e.1) (held e mem)
  unfold readBack batchGet
  simp only [results, map_map]
  rfl

theorem batchLeaves_eq {keys : List Bytes} {values : List (Option Bytes)} (length : values.length = keys.length) :
    batchLeaves sha256 keys values = .ok (List.zipWith (hashKeyValue sha256) keys values) := by
  induction keys generalizing values with
  | nil => rfl
  | cons key keys ih =>
    cases values with
    | nil => cases length
    | cons value values =>
      rw [batchLeaves, ih (Nat.succ.inj length)]
      rfl

theorem verifyValues_eq (nodup : (keysOf entries).Nodup) {values : List (Option Bytes)}
    (length : values.length = entries.length) : verifyValues sha256 s keyPrefix entries values =
      .ok ((generateMerkleProof sha256 (leavesOf sha256 entries) 0).verify sha256
        (computeMerkleRoot sha256 (leavesOf sha256 entries))
        (computeMerkleRoot sha256 (List.zipWith (hashKeyValue sha256) (keysOf entries) values))) := by
  have same : values.length = (keysOf entries).length := by rw [length, keysOf, length_map]
  have root : (batchInsert sha256 s keyPrefix entries).roots (makeRootKey keyPrefix) =
      some (computeMerkleRoot sha256 (leavesOf sha256 entries)) := put_self ..
  rw [verifyValues, readBack_eq nodup, verifyBatch, batchLeaves_eq same]
  simp only [ok_bind, root]
  rfl

theorem leavesOf_eq : List.zipWith (hashKeyValue sha256) (keysOf entries) (entries.map fun e => some e.2) =
    leavesOf sha256 entries := by
  rw [keysOf, zipWith_map, zipWith_self]
  rfl

theorem batch_fails (nodup : (keysOf entries).Nodup) (several : 1 < entries.length)
    (size : entries.length < 2 ^ 32) : verifyValues (fun bytes => bump (digestAt 0 bytes)) s keyPrefix entries
      (readBack (fun bytes => bump (digestAt 0 bytes)) s keyPrefix entries).1 ≠ .ok true := by
  intro verified
  rw [readBack_eq nodup, verifyValues_eq nodup (by simp), leavesOf_eq] at verified
  have climbed := of_decide_eq_true (Except.ok.inj verified)
  generalize known : leavesOf (fun bytes => bump (digestAt 0 bytes)) entries = leaves at climbed
  have length : leaves.length = entries.length := by rw [← known, leavesOf, length_map]
  have found : leaves[0]? = some _ := getElem?_eq_getElem (by omega)
  have leftmost (l : Nat) : ¬ Merkle.Unpaired leaves.length 0 l := by
    rintro ⟨wide, _, last⟩
    rw [Nat.zero_div] at last
    omega
  rw [computeMerkleRoot, ← Merkle.climb_siblings _ zeroDigest leaves 0 _ found leftmost] at climbed
  simp only [generateMerkleProof, hashPair_left, Merkle.climb_first] at climbed
  have some : 0 < (Merkle.siblings (fun left _ => bump left) leaves 0).length :=
    length_pos_iff.mpr (Merkle.siblings_first _ (by omega))
  have few : (Merkle.siblings (fun left _ => bump left) leaves 0).length ≤ 32 :=
    Merkle.length_siblings_le _ (by omega) 0
  exact bump_departs some (by omega) climbed

theorem generateMerkleProof_short {leaves : List Digest} (short : leaves.length ≤ 1) :
    (generateMerkleProof sha256 leaves 0).siblings = [] := Merkle.siblings_short short

theorem rootInputs_short {leaves : List Digest} (short : leaves.length ≤ 1) : rootInputs sha256 leaves = [] := by
  rw [rootInputs, if_pos short]

theorem batch_short (nodup : (keysOf entries).Nodup) (few : entries.length ≤ 1) :
    verifyValues sha256 s keyPrefix entries (readBack sha256 s keyPrefix entries).1 = .ok true := by
  have short : (leavesOf sha256 entries).length ≤ 1 := by rwa [leavesOf, length_map]
  rw [readBack_eq nodup, verifyValues_eq nodup (by simp), leavesOf_eq, MerkleProof.verify,
    generateMerkleProof_short short]
  exact congrArg Except.ok (decide_eq_true rfl)

theorem verifyValues_single (e : Bytes × Bytes) (value : Option Bytes) : verifyValues sha256 s keyPrefix [e] [value] =
      .ok (decide (sha256 (keyValueInput e.1 value) = sha256 (keyValueInput e.1 (some e.2)))) := by
  have nodup : (keysOf [e]).Nodup := nodup_singleton e.1
  have root (leaf : Digest) : computeMerkleRoot sha256 [leaf] = leaf := Merkle.root_short (Nat.le_refl 1)
  have path : (generateMerkleProof sha256 (leavesOf sha256 [e]) 0).siblings = [] :=
    generateMerkleProof_short (Nat.le_refl 1)
  rw [verifyValues_eq nodup rfl, MerkleProof.verify, path]
  show Except.ok (decide (computeMerkleRoot sha256 [_] = computeMerkleRoot sha256 [_])) = _
  rw [root, root]
  rfl

theorem inputs_single (e : Bytes × Bytes) (value : Option Bytes) : insertInputs sha256 [e] ++
    verifyInputs sha256 (keysOf [e]) [value] (readBack sha256 s keyPrefix [e]).2 =
      [keyValueInput e.1 (some e.2), keyValueInput e.1 value] := by
  have nodup : (keysOf [e]).Nodup := nodup_singleton e.1
  have path : (generateMerkleProof sha256 (leavesOf sha256 [e]) 0).siblings = [] :=
    generateMerkleProof_short (Nat.le_refl 1)
  have tree (leaf : Digest) : rootInputs sha256 [leaf] = [] := rootInputs_short (Nat.le_refl 1)
  rw [readBack_eq nodup, insertInputs, verifyInputs, path]
  show [_] ++ rootInputs sha256 [_] ++ ([_] ++ rootInputs sha256 [_] ++ []) = _
  rw [tree, tree]
  rfl

theorem keyValueInput_injective {key value : Bytes} (other : value ≠ [0]) {o : Option Bytes}
    (same : keyValueInput key o = keyValueInput key (some value)) : o = some value := by
  have encoded : o.getD [0] = value := append_cancel_left same
  cases o with
  | none => exact absurd encoded.symm other
  | some v => exact congrArg some encoded

/-- A batch verifies, and binds its values, when it is empty or a single value other than the byte 0. -/
theorem batch_verifies (distinct : (keysOf entries).Nodup) (size : entries.length < 2 ^ 32) :
    BatchVerifies s keyPrefix entries ↔ entries.length ≤ 1 ∧ ∀ e ∈ entries, e.2 ≠ [0] := by
  constructor
  · rintro ⟨verifies, binds⟩
    have few : entries.length ≤ 1 := by
      by_contra several
      exact batch_fails distinct (by omega) size (verifies _)
    refine ⟨few, fun e listed zero => ?_⟩
    match entries with
    | [] => cases listed
    | [_] =>
      obtain rfl := mem_singleton.mp listed
      have bytes : keyValueInput e.1 none = keyValueInput e.1 (some e.2) := by rw [zero]; rfl
      apply binds (fun _ => zeroDigest) [none] rfl (by simp)
      · rw [inputs_single, bytes]
        intro a first b second _
        simp only [mem_cons, not_mem_nil, or_false, or_self] at first second
        rw [first, second]
      · rw [verifyValues_single]
        exact congrArg Except.ok (decide_eq_true rfl)
    | _ :: _ :: _ => simp at few
  · rintro ⟨few, nonzero⟩
    match entries with
    | [] =>
      refine ⟨fun sha256 => batch_short distinct few, fun sha256 values length other => ?_⟩
      exact absurd (eq_nil_of_length_eq_zero length) other
    | [e] =>
      have value := nonzero e (.head _)
      refine ⟨fun sha256 => batch_short distinct few, fun sha256 values length other free verified => ?_⟩
      match values with
      | [o] =>
        rw [verifyValues_single] at verified
        have hashes := of_decide_eq_true (Except.ok.inj verified)
        have same := free (keyValueInput e.1 o) (by simp [verifyInputs, keysOf]) (keyValueInput e.1 (some e.2))
          (by simp [insertInputs]) hashes
        exact other (congrArg (fun o => [o]) (keyValueInput_injective value same))
    | _ :: _ :: _ => simp at few

end Verify

def emptyStorage : Storage where
  persistent := fun _ => none
  roots := fun _ => none

def twoEntries : List (Bytes × Bytes) := [([1], [3]), ([2], [4])]

theorem batch_verifies_one : BatchVerifies emptyStorage [9] [([1], [3])] ↔
    [(([1] : Bytes), ([3] : Bytes))].length ≤ 1 ∧ ∀ e ∈ [(([1] : Bytes), ([3] : Bytes))], e.2 ≠ [0] :=
  batch_verifies (by decide) (by decide)

theorem batch_unverified : (keysOf twoEntries).Nodup ∧
    ¬ ∀ s keyPrefix entries, (keysOf entries).Nodup → BatchVerifies s keyPrefix entries := by
  have distinct : (keysOf twoEntries).Nodup := by decide
  refine ⟨distinct, fun claimed => ?_⟩
  have verified := (claimed emptyStorage [9] twoEntries distinct).verifies
  exact batch_fails distinct (by decide) (by decide) (verified _)

end SubTrackr.Utils

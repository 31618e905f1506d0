import SubTrackr.Encryption.Encryption

namespace SubTrackr.Encryption

open List Lib

namespace EncryptionService

variable {c : Crypto} {s s' : EncryptionService} {id : JsString} {key newKey : EncryptionKey}

structure Inv (s : EncryptionService) : Prop where
  own : ∀ id key, s.keys.get id = some key → key.id = id
  sized : ∀ id key, s.keys.get id = some key → key.key.length = 32
  active : ∃ key, s.getActiveKey = some key ∧
    ∀ id other, s.keys.get id = some other → id ≠ s.activeKeyId → other.version < key.version

theorem Inv.active_id (inv : Inv s) (active : s.getActiveKey = some key) : key.id = s.activeKeyId := inv.own _ _ active

theorem Inv.active_length (inv : Inv s) (active : s.getActiveKey = some key) : key.key.length = 32 :=
  inv.sized _ _ active

section Rotation

variable {masterKey : Buffer} {version now : ℤ}

theorem create_eq_ok (created : create c masterKey version id now = .ok s) :
    s = { keys := (∅ : InsertionMap JsString EncryptionKey).set id (generateEncryptionKey c masterKey version id now)
          activeKeyId := id } := by
  obtain ⟨_, -, done⟩ := (bind_eq_ok ..).mp created
  exact (Except.ok.inj done).symm

theorem rotateKey_eq_ok (rotated : s.rotateKey c masterKey id now = .ok (s', newKey)) :
    newKey = generateEncryptionKey c masterKey (s.highestVersion + 1) id now ∧
      s' = { keys := s.keys.set id newKey, activeKeyId := id } := by
  obtain ⟨_, -, done⟩ := (bind_eq_ok ..).mp rotated
  obtain ⟨rfl, rfl⟩ := Prod.mk.inj (Except.ok.inj done)
  exact ⟨rfl, rfl⟩

theorem le_highestVersion (mem : s.keys.get id = some key) : key.version ≤ s.highestVersion := by
  have member : key.version ∈ s.keys.values.map EncryptionKey.version :=
    mem_map_of_mem (InsertionMap.mem_values.mpr ⟨id, mem⟩)
  unfold highestVersion
  cases highest : (s.keys.values.map EncryptionKey.version).max? with
  | none =>
    rw [max?_eq_none_iff.mp highest] at member
    cases member
  | some n => exact (max?_eq_some_iff.mp highest).2 _ member

theorem inv_create (inverts : c.Inverts) (created : create c masterKey version id now = .ok s) : Inv s := by
  obtain rfl := create_eq_ok created
  have only : ∀ {id' : JsString} {key : EncryptionKey}, ((∅ : InsertionMap JsString EncryptionKey).set id
      (generateEncryptionKey c masterKey version id now)).get id' = some key →
      id' = id ∧ generateEncryptionKey c masterKey version id now = key := by
    intro id' key mem
    exact (InsertionMap.get_set_eq_some.mp mem).resolve_right fun other => by cases other.2
  refine ⟨fun id' key mem => ?_, fun id' key mem => ?_, _, InsertionMap.get_set_self .., fun id' key mem other => ?_⟩
  · obtain ⟨rfl, rfl⟩ := only mem
    rfl
  · obtain ⟨rfl, rfl⟩ := only mem
    exact inverts.length_hmac _ _
  · exact absurd (only mem).1 other

theorem Inv.rotateKey (inv : Inv s) (inverts : c.Inverts) (rotated : s.rotateKey c masterKey id now = .ok (s', newKey)) :
    Inv s' := by
  obtain ⟨generated, rfl⟩ := rotateKey_eq_ok rotated
  have id_new : newKey.id = id := by rw [generated]; rfl
  refine ⟨fun id' key mem => ?_, fun id' key mem => ?_, newKey, InsertionMap.get_set_self ..,
    fun id' key mem other => ?_⟩
  · obtain ⟨rfl, rfl⟩ | ⟨-, old⟩ := InsertionMap.get_set_eq_some.mp mem
    · exact id_new
    · exact inv.own _ _ old
  · obtain ⟨rfl, rfl⟩ | ⟨-, old⟩ := InsertionMap.get_set_eq_some.mp mem
    · rw [generated]
      exact inverts.length_hmac _ _
    · exact inv.sized _ _ old
  · obtain ⟨here, -⟩ | ⟨-, old⟩ := InsertionMap.get_set_eq_some.mp mem
    · exact absurd here other
    · have newer : newKey.version = s.highestVersion + 1 := by rw [generated]; rfl
      have below := le_highestVersion old
      omega

end Rotation

section Pruning

variable {removed : List EncryptionKey} {keepCount : ℕ}

theorem get_foldl_erase {keys : InsertionMap JsString EncryptionKey} :
    (removed.foldl (fun keys k => keys.erase k.id) keys).get id = some key ↔
      keys.get id = some key ∧ ∀ k ∈ removed, id ≠ k.id := by
  induction removed generalizing keys with
  | nil => simp
  | cons k rest ih =>
    rw [foldl_cons, ih, InsertionMap.get_erase_eq_some, forall_mem_cons]
    tauto

theorem Inv.nodup_ids (inv : Inv s) : (s.keys.values.map EncryptionKey.id).Nodup := by
  have ids : s.keys.values.map EncryptionKey.id = s.keys.entries.map Prod.fst := by
    rw [InsertionMap.values, map_map]
    exact map_congr_left fun e mem => inv.own e.1 e.2 (InsertionMap.get_eq_some.mpr mem)
  rw [ids]
  exact s.keys.distinct

theorem Inv.active_kept (inv : Inv s) (some_kept : 1 ≤ keepCount) : ∀ k ∈ s.toRemove keepCount, s.activeKeyId ≠ k.id := by
  intro k removed same
  obtain ⟨key, active, newest⟩ := inv.active
  unfold toRemove at removed
  generalize sorting : (s.keys.values.mergeSort fun a b => decide (b.version ≤ a.version)) = sorted at removed
  have perm : sorted.Perm s.keys.values := by rw [← sorting]; exact mergeSort_perm _ _
  have order : sorted.Pairwise fun a b => b.version ≤ a.version := by
    have pairs := @pairwise_mergeSort EncryptionKey (fun a b => decide (b.version ≤ a.version))
      (fun a b c first second => by simp only [decide_eq_true_eq] at *; omega)
      (fun a b => by simp only [Bool.or_eq_true, decide_eq_true_eq]; omega) s.keys.values
    rw [sorting] at pairs
    exact pairs.imp fun le => of_decide_eq_true le
  have nodup : (sorted.map EncryptionKey.id).Nodup := (perm.map _).nodup_iff.mpr inv.nodup_ids
  cases sorted with
  | nil => simp at removed
  | cons first rest =>
    have later : k ∈ rest := by
      obtain ⟨n, rfl⟩ := Nat.exists_eq_add_of_le' some_kept
      exact mem_of_mem_drop removed
    obtain ⟨id, mem⟩ := InsertionMap.mem_values.mp (perm.mem_iff.mp mem_cons_self)
    obtain ⟨id', mem'⟩ := InsertionMap.mem_values.mp (perm.mem_iff.mp (mem_cons_of_mem first later))
    have own := inv.own _ _ mem
    have own' := inv.own _ _ mem'
    obtain rfl : k = key := by
      rw [getActiveKey, same, own', mem'] at active
      exact Option.some.inj active
    have below := rel_of_pairwise_cons order later
    have different : first.id ≠ k.id := fun twice =>
      (nodup_cons.mp nodup).1 (twice ▸ mem_map_of_mem later)
    have above := newest id first mem (by rw [same, ← own]; exact different)
    omega

theorem Inv.pruneOldKeys (inv : Inv s) (some_kept : 1 ≤ keepCount) : Inv (s.pruneOldKeys keepCount) := by
  obtain ⟨key, active, newest⟩ := inv.active
  refine ⟨fun id key mem => inv.own _ _ (get_foldl_erase.mp mem).1,
    fun id key mem => inv.sized _ _ (get_foldl_erase.mp mem).1, key, ?_,
    fun id other mem => newest id other (get_foldl_erase.mp mem).1⟩
  exact get_foldl_erase.mpr ⟨active, inv.active_kept some_kept⟩

end Pruning

theorem Inv.fromJSON_toJSON (inv : Inv s) : fromJSON s.toJSON = .ok s := by
  have restored : s.toJSON.keys.map SerializedKey.restore = s.keys.values := by
    rw [toJSON, map_map]
    refine (map_congr_left fun k _ => ?_).trans (map_id _)
    rw [Function.comp_apply, SerializedKey.restore, ofBase64, toBase64, Utf16.decode_encode, Base64.decodeBytes_encode]
    rfl
  obtain ⟨key, active, -⟩ := inv.active
  have present : (s.keys.get s.activeKeyId).isSome := by
    rw [← getActiveKey, active]
    rfl
  rw [fromJSON, restored, InsertionMap.ofValues_values inv.own]
  show (require ((s.keys.get s.activeKeyId).isSome = true) _ >>= _) = _
  rw [require, if_pos present]
  rfl

def Keeps : Action → Prop
  | .pruneOldKeys keepCount => 1 ≤ keepCount
  | _ => True

theorem Inv.step {action : Action} (inv : Inv s) (inverts : c.Inverts) (keeps : Keeps action) : Inv (s.step c action) := by
  cases action with
  | rotateKey masterKey id now =>
    simp only [EncryptionService.step]
    split
    · rename_i rotated
      exact inv.rotateKey inverts rotated
    · exact inv
  | pruneOldKeys keepCount => exact inv.pruneOldKeys keeps
  | serialise =>
    simp only [EncryptionService.step, inv.fromJSON_toJSON]
    exact inv

theorem Inv.run {actions : List Action} (inv : Inv s) (inverts : c.Inverts) (keeps : ∀ a ∈ actions, Keeps a) :
    Inv (actions.foldl (EncryptionService.step c) s) := by
  induction actions generalizing s with
  | nil => exact inv
  | cons action rest ih =>
    have first := keeps action mem_cons_self
    exact ih (inv.step inverts first) fun a later => keeps a (mem_cons_of_mem _ later)

/-- The action does not take the key from the ring. A new id is drawn at random. -/
def Retains (key : EncryptionKey) (s : EncryptionService) : Action → Prop
  | .rotateKey _ id _ => id ≠ key.id
  | .pruneOldKeys keepCount => key ∉ s.toRemove keepCount
  | .serialise => True

theorem Inv.retains {action : Action} (inv : Inv s) (held : s.keys.get key.id = some key) (retains : Retains key s action) :
    (s.step c action).keys.get key.id = some key := by
  cases action with
  | rotateKey masterKey id now =>
    simp only [EncryptionService.step]
    split
    · rename_i rotated
      obtain ⟨generated, rfl⟩ := rotateKey_eq_ok rotated
      rw [InsertionMap.get_set_of_ne _ _ (Ne.symm retains), held]
    · exact held
  | pruneOldKeys keepCount =>
    refine get_foldl_erase.mpr ⟨held, fun k removed same => retains ?_⟩
    have member : k ∈ s.keys.values := mem_mergeSort.mp (mem_of_mem_drop removed)
    obtain ⟨id, mem⟩ := InsertionMap.mem_values.mp member
    rw [same, inv.own _ _ mem, mem] at held
    exact Option.some.inj held ▸ removed
  | serialise =>
    simp only [EncryptionService.step, inv.fromJSON_toJSON]
    exact held

end EncryptionService

end SubTrackr.Encryption

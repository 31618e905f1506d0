import SubTrackr.Lib.Histories
import SubTrackr.Encryption.KeyRing

namespace SubTrackr.Encryption

open Option Lib

def Value.valueAt : Value → List JsString → Option Value
  | v, [] => some v
  | .object fields, name :: path => (fields.lookup name).bind fun v => v.valueAt path
  | _, _ :: _ => none

def Bare (fields : Fields) : Prop :=
  ∀ path name s, isPiiField name = true → (Value.object fields).valueAt (path ++ [name]) ≠ some (.string s)

def Covered (row encrypted : Fields) : Prop :=
  ∀ path name s, isPiiField name = true → (Value.object row).valueAt (path ++ [name]) = some (.string s) →
    ∃ e : EncryptedField, (Value.object encrypted).valueAt (path ++ [name]) = some (.object e.toFields)

mutual

def IsValue (depth : ℕ) : Value → Prop
  | .object fields => depth < 10 ∧ asEncryptedField fields = none ∧ (fields.map Prod.fst).Nodup ∧ AreValues (depth + 1) fields
  | _ => True

def AreValues (depth : ℕ) : Fields → Prop
  | [] => True
  | (_, value) :: rest => IsValue depth value ∧ AreValues depth rest

end

def IsRow (row : Fields) : Prop := (row.map Prod.fst).Nodup ∧ AreValues 0 row

mutual

def KeptValue (encrypts : Bool) (depth : ℕ) (name : JsString) : Value → Prop
  | .string s => encrypts = true → isPiiField name = true → Utf16.WellFormed s
  | .date _ => 10 ≤ depth
  | .object fields => KeptFields (encrypts && !hasCiphertext fields) (depth + 1) fields
  | _ => True

def KeptFields (encrypts : Bool) (depth : ℕ) : Fields → Prop
  | [] => True
  | (name, value) :: rest => name ≠ proto ∧ KeptValue encrypts depth name value ∧ KeptFields encrypts depth rest

end

structure Faithful (row : Fields) : Prop where
  kept : KeptFields true 0 row
  entered : ∀ name path inner, (Value.object row).valueAt (name :: path) = some (.object inner) →
    hasCiphertext inner = true → Bare inner

section Shapes

variable {c : Crypto} {key : EncryptionKey} {ivs : List JsString → Vector UInt8 16} {depth : ℕ} {name : JsString}
  {fields : Fields} {value : Value} {s : JsString} {getKey : JsString → Option EncryptionKey}

theorem text_injective {a b : String} (same : text a = text b) : a = b := by
  have lists := congrArg Utf16.decode same
  rw [text, text, Utf16.decode_encode, Utf16.decode_encode] at lists
  exact String.toList_injective lists

theorem lookup_encryptEntries (own : name ≠ proto) : (encryptEntries c key ivs depth fields).lookup name =
    (fields.lookup name).map (encryptValue c key (fun path => ivs (name :: path)) depth name) := by
  induction fields with
  | nil => rfl
  | cons field rest ih =>
    obtain ⟨fieldName, value⟩ := field
    rw [encryptEntries]
    by_cases here : name = fieldName
    · subst here
      simp [own]
    · have other : (name == fieldName) = false := beq_eq_false_iff_ne.mpr here
      split
      · rw [ih, List.lookup_cons, other]
      · rw [List.lookup_cons, other, ih, List.lookup_cons, other]

theorem lookup_encryptEntries_proto : (encryptEntries c key ivs depth fields).lookup proto = none := by
  induction fields with
  | nil => rfl
  | cons field rest ih =>
    obtain ⟨fieldName, value⟩ := field
    rw [encryptEntries]
    split
    · exact ih
    · rename_i other
      have different : (proto == fieldName) = false := beq_eq_false_iff_ne.mpr (Ne.symm other)
      rw [List.lookup_cons, different, ih]

theorem string?_encryptValue (public_name : isPiiField name = false) (v : Value) :
    (encryptValue c key ivs depth name v).string? = v.string? := by
  cases v with
  | string s => rw [encryptValue, public_name]; rfl
  | object inner =>
    rw [encryptValue, apply_ite Value.string?, apply_ite Value.string?]
    simp only [Value.string?, ite_self]
  | date time =>
    rw [encryptValue, apply_ite Value.string?]
    simp only [Value.string?, ite_self]
  | _ => rfl

theorem stringAt_encryptEntries {n : String} (own : text n ≠ proto) (public_name : isPiiField (text n) = false) :
    stringAt (encryptEntries c key ivs depth fields) n = stringAt fields n := by
  unfold stringAt
  rw [lookup_encryptEntries own, bind_map]
  congr 1
  funext v
  exact string?_encryptValue public_name v

theorem asEncryptedField_encryptEntries :
    asEncryptedField (encryptEntries c key ivs depth fields) = asEncryptedField fields := by
  have same : ∀ n ∈ ["ciphertext", "iv", "authTag", "keyId", "algorithm"],
      stringAt (encryptEntries c key ivs depth fields) n = stringAt fields n := by
    intro n mem
    have names : ∀ n ∈ ["ciphertext", "iv", "authTag", "keyId", "algorithm"],
        text n ≠ proto ∧ isPiiField (text n) = false := by decide
    exact stringAt_encryptEntries (names n mem).1 (names n mem).2
  simp only [List.forall_mem_cons] at same
  obtain ⟨ciphertext, iv, authTag, keyId, algorithm, -⟩ := same
  rw [asEncryptedField, ciphertext, iv, authTag, keyId, algorithm, asEncryptedField]

theorem text_beq (a b : String) : (text a == text b) = decide (a = b) := by
  rw [Bool.eq_iff_iff, beq_iff_eq, decide_eq_true_iff]
  exact ⟨text_injective, congrArg text⟩

theorem asEncryptedField_toFields (e : EncryptedField) : asEncryptedField e.toFields = some e := by
  simp [asEncryptedField, stringAt, EncryptedField.toFields, List.lookup_cons, text_beq, Value.string?]

theorem ofBase64_toBase64 (bytes : Buffer) : ofBase64 (toBase64 bytes) = bytes := by
  rw [ofBase64, toBase64, Utf16.decode_encode, Base64.decodeBytes_encode]

theorem ofUtf8_utf8 (c : Crypto) (s : JsString) : ofUtf8 c (utf8 s) = Utf16.encode (Utf16.decode s) := by
  have bytes : (⟨(utf8 s).toArray⟩ : ByteArray) = (String.ofList (Utf16.decode s)).toUTF8 := by
    rw [utf8, Array.toArray_toList]
  have valid : String.fromUTF8? ⟨(utf8 s).toArray⟩ = some (String.ofList (Utf16.decode s)) := by
    rw [bytes]
    exact dif_pos (String.ofList (Utf16.decode s)).isValidUTF8
  rw [ofUtf8, valid]
  simp only [text, String.toList_ofList]

theorem utf8_ne_nil (nonempty : s ≠ []) : utf8 s ≠ [] := by
  intro none
  have same := ofUtf8_utf8 ⟨fun _ b => b, fun _ _ b => (b, b), fun _ _ _ b => b, fun _ => []⟩ s
  have empty : String.fromUTF8? ⟨#[]⟩ = some "" := by decide +kernel
  rw [none, ofUtf8, empty] at same
  exact nonempty (Utf16.decode_eq_nil.mp (Utf16.encode_eq_nil.mp same.symm))

theorem decryptField_encryptField (inverts : c.Inverts) (sized : key.key.length = 32) (s : JsString) (iv : Vector UInt8 16) :
    (decryptField c (encryptField c s key iv) key).map DecryptedField.value = some (Utf16.encode (Utf16.decode s)) := by
  unfold encryptField
  split
  · rename_i empty
    subst empty
    rfl
  · rename_i nonempty
    have sized_iv : iv.toList.length = 16 := by simp
    have inverse := inverts.decrypt_encrypt key.key iv.toList (utf8 s) sized sized_iv
    have long : toBase64 (c.encrypt key.key iv.toList (utf8 s)).1 ≠ [] := by
      intro none
      have read := ofBase64_toBase64 (c.encrypt key.key iv.toList (utf8 s)).1
      have length := inverts.length_encrypt key.key iv.toList (utf8 s) sized sized_iv
      rw [none] at read
      rw [← read] at length
      exact utf8_ne_nil nonempty (List.eq_nil_of_length_eq_zero length.symm)
    simp only [decryptField, if_neg long, ofBase64_toBase64, inverse, map_some, ofUtf8_utf8]

theorem decryptValue_encryptField (inverts : c.Inverts) (sized : key.key.length = 32) (present : getKey key.id = some key)
    (s : JsString) (iv : Vector UInt8 16) :
    decryptValue c getKey depth (.object (encryptField c s key iv).toFields) = .string (Utf16.encode (Utf16.decode s)) := by
  have keyId : (encryptField c s key iv).keyId = key.id := by
    unfold encryptField
    split <;> rfl
  obtain ⟨decrypted, read, value⟩ := map_eq_some_iff.mp (decryptField_encryptField inverts sized s iv)
  rw [decryptValue, asEncryptedField_toFields]
  simp only [decryptedField, keyId, present, bind_some, read, value]

end Shapes

section Losslessness

variable {c : Crypto} {key : EncryptionKey} {getKey : JsString → Option EncryptionKey}
  {ivs : List JsString → Vector UInt8 16}

theorem length_encryptEntries_le (fields : Fields) (depth : ℕ) :
    (encryptEntries c key ivs depth fields).length ≤ fields.length := by
  induction fields with
  | nil => exact Nat.le_refl 0
  | cons field rest ih =>
    rw [encryptEntries]
    split
    · exact Nat.le_succ_of_le ih
    · exact Nat.succ_le_succ ih

theorem length_decryptEntries_le (fields : Fields) (depth : ℕ) :
    (decryptEntries c getKey depth fields).length ≤ fields.length := by
  induction fields with
  | nil => exact Nat.le_refl 0
  | cons field rest ih =>
    rw [decryptEntries]
    split
    · exact Nat.le_succ_of_le ih
    · exact Nat.succ_le_succ ih

theorem entry_eq_iff {name : JsString} {value value' : Value} {fields rest : Fields} (short : fields.length ≤ rest.length) :
    (if name = proto then fields else (name, value') :: fields) = (name, value) :: rest ↔
      name ≠ proto ∧ value' = value ∧ fields = rest := by
  split
  · rename_i named
    refine iff_of_false (fun same => ?_) fun keeps => keeps.1 named
    rw [same, List.length_cons] at short
    omega
  · rename_i own
    simp [own]

mutual

theorem decryptValue_eq_iff (name : JsString) : ∀ (v : Value) (depth : ℕ), IsValue depth v →
    (decryptValue c getKey depth v = v ↔ KeptValue false depth name v)
  | .object fields, depth, is => by
    have ⟨shallow, plain, _, nested⟩ : depth < 10 ∧ asEncryptedField fields = none ∧ (fields.map Prod.fst).Nodup ∧
        AreValues (depth + 1) fields := by rwa [IsValue] at is
    have entered : decryptValue c getKey depth (.object fields) = .object (decryptEntries c getKey (depth + 1) fields) := by
      simp only [decryptValue, plain, if_neg (show ¬ 10 < depth + 1 by omega)]
    rw [entered, KeptValue, Bool.false_and, ← decryptEntries_eq_iff fields (depth + 1) nested, Value.object.injEq]
  | .date time, depth, _ => by
    rw [decryptValue, KeptValue]
    split
    · exact iff_of_true rfl (by omega)
    · exact iff_of_false nofun (by omega)
  | .string s, depth, _ => by simp [decryptValue, KeptValue]
  | .null, depth, _ => by simp [decryptValue, KeptValue]
  | .boolean b, depth, _ => by simp [decryptValue, KeptValue]
  | .number x, depth, _ => by simp [decryptValue, KeptValue]
  | .array items, depth, _ => by simp [decryptValue, KeptValue]

theorem decryptEntries_eq_iff : ∀ (fields : Fields) (depth : ℕ), AreValues depth fields →
    (decryptEntries c getKey depth fields = fields ↔ KeptFields false depth fields)
  | [], depth, _ => by simp [decryptEntries, KeptFields]
  | (name, value) :: rest, depth, are => by
    have ⟨first, later⟩ : IsValue depth value ∧ AreValues depth rest := by rwa [AreValues] at are
    rw [decryptEntries, KeptFields, entry_eq_iff (length_decryptEntries_le rest depth),
      decryptValue_eq_iff name value depth first, decryptEntries_eq_iff rest depth later]

end

mutual

theorem decryptValue_encryptValue_eq_iff (inverts : c.Inverts) (sized : key.key.length = 32)
    (present : getKey key.id = some key) (name : JsString) : ∀ (v : Value) (ivs : List JsString → Vector UInt8 16) (depth : ℕ),
    IsValue depth v → (decryptValue c getKey depth (encryptValue c key ivs depth name v) = v ↔ KeptValue true depth name v)
  | .object fields, ivs, depth, is => by
    have ⟨shallow, plain, _, nested⟩ : depth < 10 ∧ asEncryptedField fields = none ∧ (fields.map Prod.fst).Nodup ∧
        AreValues (depth + 1) fields := by rwa [IsValue] at is
    have near : ¬ 10 < depth + 1 := by omega
    rw [encryptValue, KeptValue, Bool.true_and]
    cases skipped : hasCiphertext fields with
    | true =>
      rw [if_pos rfl, decryptValue_eq_iff name _ depth is, KeptValue]
      rfl
    | false =>
      have same : asEncryptedField (encryptEntries c key ivs (depth + 1) fields) = none := by
        rw [asEncryptedField_encryptEntries, plain]
      have entered : decryptValue c getKey depth (.object (encryptEntries c key ivs (depth + 1) fields)) =
          .object (decryptEntries c getKey (depth + 1) (encryptEntries c key ivs (depth + 1) fields)) := by
        simp only [decryptValue, same, if_neg near]
      rw [if_neg Bool.false_ne_true, if_neg near, entered, Value.object.injEq]
      exact decryptEntries_encryptEntries_eq_iff inverts sized present fields ivs (depth + 1) nested
  | .date time, ivs, depth, _ => by
    rw [encryptValue, KeptValue]
    split
    · rename_i far
      rw [decryptValue, if_pos far]
      exact iff_of_true rfl (by omega)
    · rename_i near
      rw [decryptValue, decryptEntries, if_neg near]
      exact iff_of_false nofun (by omega)
  | .string s, ivs, depth, _ => by
    rw [encryptValue, KeptValue]
    cases personal : isPiiField name with
    | true =>
      rw [if_pos rfl, decryptValue_encryptField inverts sized present, Value.string.injEq, Utf16.encode_decode_iff]
      simp
    | false => simp [decryptValue]
  | .null, ivs, depth, _ => by simp [encryptValue, decryptValue, KeptValue]
  | .boolean b, ivs, depth, _ => by simp [encryptValue, decryptValue, KeptValue]
  | .number x, ivs, depth, _ => by simp [encryptValue, decryptValue, KeptValue]
  | .array items, ivs, depth, _ => by simp [encryptValue, decryptValue, KeptValue]

theorem decryptEntries_encryptEntries_eq_iff (inverts : c.Inverts) (sized : key.key.length = 32)
    (present : getKey key.id = some key) : ∀ (fields : Fields) (ivs : List JsString → Vector UInt8 16) (depth : ℕ),
    AreValues depth fields →
    (decryptEntries c getKey depth (encryptEntries c key ivs depth fields) = fields ↔ KeptFields true depth fields)
  | [], ivs, depth, _ => by simp [encryptEntries, decryptEntries, KeptFields]
  | (name, value) :: rest, ivs, depth, are => by
    have ⟨first, later⟩ : IsValue depth value ∧ AreValues depth rest := by rwa [AreValues] at are
    have short : (decryptEntries c getKey depth (encryptEntries c key ivs depth rest)).length ≤ rest.length :=
      (length_decryptEntries_le _ depth).trans (length_encryptEntries_le rest depth)
    have split : decryptEntries c getKey depth (encryptEntries c key ivs depth ((name, value) :: rest)) =
        if name = proto then decryptEntries c getKey depth (encryptEntries c key ivs depth rest)
        else (name, decryptValue c getKey depth (encryptValue c key (fun path => ivs (name :: path)) depth name value)) ::
          decryptEntries c getKey depth (encryptEntries c key ivs depth rest) := by
      rw [encryptEntries]
      split
      · rfl
      · rename_i own
        rw [decryptEntries, if_neg own]
    rw [split, KeptFields, entry_eq_iff short, decryptValue_encryptValue_eq_iff inverts sized present name value _ depth first,
      decryptEntries_encryptEntries_eq_iff inverts sized present rest ivs depth later]

end

end Losslessness

section Coverage

variable {c : Crypto} {key : EncryptionKey} {ivs : List JsString → Vector UInt8 16} {depth : ℕ} {fields inner : Fields}
  {name : JsString} {value : Value}

theorem valueAt_cons (fields : Fields) (name : JsString) (path : List JsString) :
    (Value.object fields).valueAt (name :: path) = (fields.lookup name).bind fun v => v.valueAt path := rfl

theorem valueAt_nil (v : Value) : v.valueAt [] = some v := by
  cases v <;> rfl

theorem valueAt_append (v : Value) (path path' : List JsString) :
    v.valueAt (path ++ path') = (v.valueAt path).bind fun w => w.valueAt path' := by
  induction path generalizing v with
  | nil => rw [valueAt_nil, List.nil_append, bind_some]
  | cons name path ih =>
    cases v with
    | object fields =>
      rw [List.cons_append, valueAt_cons, valueAt_cons, bind_assoc]
      congr 1
      funext w
      exact ih w
    | _ => rfl

theorem isValue_of_lookup (are : AreValues depth fields) (found : fields.lookup name = some value) : IsValue depth value := by
  induction fields with
  | nil => cases found
  | cons field rest ih =>
    obtain ⟨fieldName, first⟩ := field
    have ⟨here, later⟩ : IsValue depth first ∧ AreValues depth rest := by rwa [AreValues] at are
    rw [List.lookup_cons] at found
    split at found
    · cases found
      exact here
    · exact ih later found

theorem kept_of_lookup {encrypts : Bool} (kept : KeptFields encrypts depth fields) (found : fields.lookup name = some value) :
    name ≠ proto ∧ KeptValue encrypts depth name value := by
  induction fields with
  | nil => cases found
  | cons field rest ih =>
    obtain ⟨fieldName, first⟩ := field
    have ⟨own, here, later⟩ : fieldName ≠ proto ∧ KeptValue encrypts depth fieldName first ∧
        KeptFields encrypts depth rest := by rwa [KeptFields] at kept
    rw [List.lookup_cons] at found
    split at found
    · rename_i same
      obtain rfl := beq_iff_eq.mp same
      cases found
      exact ⟨own, here⟩
    · exact ih later found

theorem personal_ne_proto (personal : isPiiField name = true) : name ≠ proto := by
  have none : isPiiField proto = false := by decide
  rintro rfl
  rw [personal] at none
  cases none

theorem lookup_entered (c : Crypto) (key : EncryptionKey) (ivs : List JsString → Vector UInt8 16)
    (are : AreValues depth fields) (found : fields.lookup name = some (.object inner)) (own : name ≠ proto)
    (entered : hasCiphertext inner = false) : (encryptEntries c key ivs depth fields).lookup name =
      some (.object (encryptEntries c key (fun path => ivs (name :: path)) (depth + 1) inner)) ∧ AreValues (depth + 1) inner := by
  have ⟨shallow, _, _, are_inner⟩ : depth < 10 ∧ asEncryptedField inner = none ∧ (inner.map Prod.fst).Nodup ∧
      AreValues (depth + 1) inner := by
    have is := isValue_of_lookup are found
    rwa [IsValue] at is
  have near : ¬ 10 < depth + 1 := by omega
  rw [lookup_encryptEntries own, found, map_some, encryptValue, entered, if_neg Bool.false_ne_true, if_neg near]
  exact ⟨rfl, are_inner⟩

theorem lookup_skipped (found : fields.lookup name = some (.object inner)) (own : name ≠ proto)
    (skipped : hasCiphertext inner = true) : (encryptEntries c key ivs depth fields).lookup name = some (.object inner) := by
  rw [lookup_encryptEntries own, found, map_some, encryptValue, skipped, if_pos rfl]

theorem valueAt_singleton (fields : Fields) (name : JsString) : (Value.object fields).valueAt [name] = fields.lookup name := by
  rw [valueAt_cons]
  cases fields.lookup name with
  | none => rfl
  | some v => exact valueAt_nil v

theorem object_of_valueAt {v w : Value} {path : List JsString} (found : v.valueAt (path ++ [name]) = some w) :
    ∃ inner, v = .object inner := by
  have long : path ++ [name] ≠ [] := by simp
  cases v with
  | object inner => exact ⟨inner, rfl⟩
  | _ =>
    cases steps : path ++ [name] with
    | nil => exact absurd steps long
    | cons _ _ =>
      rw [steps] at found
      cases found

theorem covered_of_kept (path : List JsString) : ∀ {fields : Fields} {depth : ℕ} {ivs : List JsString → Vector UInt8 16}
    {name s : JsString}, AreValues depth fields → KeptFields true depth fields →
    (∀ name path inner, (Value.object fields).valueAt (name :: path) = some (.object inner) →
      hasCiphertext inner = true → Bare inner) →
    isPiiField name = true → (Value.object fields).valueAt (path ++ [name]) = some (.string s) →
    ∃ e : EncryptedField, (Value.object (encryptEntries c key ivs depth fields)).valueAt (path ++ [name]) =
      some (.object e.toFields) := by
  induction path with
  | nil =>
    intro fields depth ivs name s _ _ _ personal found
    rw [List.nil_append, valueAt_singleton] at found
    rw [List.nil_append, valueAt_singleton, lookup_encryptEntries (personal_ne_proto personal), found, map_some,
      encryptValue, if_pos personal]
    exact ⟨_, rfl⟩
  | cons first path ih =>
    intro fields depth ivs name s are kept entered personal found
    rw [List.cons_append, valueAt_cons] at found
    obtain ⟨v, here, further⟩ := bind_eq_some_iff.mp found
    obtain ⟨inner, rfl⟩ := object_of_valueAt further
    obtain ⟨own, kept_inner⟩ := kept_of_lookup kept here
    cases skipped : hasCiphertext inner with
    | true =>
      have bare := entered first [] inner (by rw [valueAt_singleton, here]) skipped
      exact absurd further (bare path name s personal)
    | false =>
      obtain ⟨there, are_inner⟩ := lookup_entered c key ivs are here own skipped
      rw [KeptValue, skipped] at kept_inner
      have entered_inner : ∀ name path innermost, (Value.object inner).valueAt (name :: path) = some (.object innermost) →
          hasCiphertext innermost = true → Bare innermost := by
        intro name path innermost deeper
        exact entered first (name :: path) innermost (by rw [valueAt_cons, here, bind_some, deeper])
      rw [List.cons_append, valueAt_cons, there, bind_some]
      exact ih are_inner kept_inner entered_inner personal further

theorem bare_of_skipped (covered : Covered fields (encryptEntries c key ivs depth fields))
    (found : fields.lookup name = some (.object inner)) (skipped : hasCiphertext inner = true ∨ name = proto) : Bare inner := by
  intro path field s personal there
  have whole : (Value.object fields).valueAt ((name :: path) ++ [field]) = some (.string s) := by
    rw [List.cons_append, valueAt_cons, found, bind_some, there]
  obtain ⟨e, encrypted⟩ := covered _ field s personal whole
  rw [List.cons_append, valueAt_cons] at encrypted
  by_cases named : name = proto
  · rw [named, lookup_encryptEntries_proto] at encrypted
    cases encrypted
  · rw [lookup_skipped found named (skipped.resolve_right named), bind_some, there] at encrypted
    cases encrypted

theorem Bare.within {path : List JsString} {outer : Fields} (bare : Bare outer)
    (found : (Value.object outer).valueAt path = some (.object inner)) : Bare inner := by
  intro path' field s personal there
  refine bare (path ++ path') field s personal ?_
  rw [List.append_assoc, valueAt_append, found, bind_some, there]

theorem bare_of_covered (path : List JsString) : ∀ (ivs : List JsString → Vector UInt8 16) {fields inner : Fields} {depth : ℕ}
    {name : JsString}, AreValues depth fields → Covered fields (encryptEntries c key ivs depth fields) →
    (Value.object fields).valueAt (name :: path) = some (.object inner) → hasCiphertext inner = true → Bare inner := by
  induction path with
  | nil =>
    intro ivs fields inner depth name _ covered found skipped
    rw [valueAt_singleton] at found
    exact bare_of_skipped covered found (.inl skipped)
  | cons next path ih =>
    intro ivs fields inner depth name are covered found skipped
    rw [valueAt_cons] at found
    obtain ⟨v, here, further⟩ := bind_eq_some_iff.mp found
    cases v with
    | object middle =>
      by_cases passed : hasCiphertext middle = true ∨ name = proto
      · exact (bare_of_skipped covered here passed).within further
      · have own : name ≠ proto := fun named => passed (.inr named)
        have entered : hasCiphertext middle = false := Bool.eq_false_iff.mpr fun skips => passed (.inl skips)
        obtain ⟨there, are_middle⟩ := lookup_entered c key ivs are here own entered
        refine ih (fun path => ivs (name :: path)) are_middle (fun path field s personal string => ?_) further skipped
        have whole : (Value.object fields).valueAt ((name :: path) ++ [field]) = some (.string s) := by
          rw [List.cons_append, valueAt_cons, here, bind_some, string]
        obtain ⟨e, encrypted⟩ := covered _ field s personal whole
        rw [List.cons_append, valueAt_cons, there, bind_some] at encrypted
        exact ⟨e, encrypted⟩
    | _ => cases further

end Coverage

section Claim

variable {c : Crypto} {masterKey : Buffer} {version now : ℤ} {id : JsString} {s : EncryptionService}

theorem decryptObject_encryptObject_iff {key : EncryptionKey} {getKey : JsString → Option EncryptionKey} (inverts : c.Inverts)
    (sized : key.key.length = 32) (present : getKey key.id = some key) {row : Fields} (is : IsRow row)
    (ivs : List JsString → Vector UInt8 16) :
    decryptObject c (encryptObject c row key ivs) getKey = row ∧ Covered row (encryptObject c row key ivs) ↔ Faithful row := by
  have lossless := decryptEntries_encryptEntries_eq_iff inverts sized present row ivs 0 is.2
  constructor
  · rintro ⟨same, covered⟩
    exact ⟨lossless.mp same, fun name path inner found skipped => bare_of_covered path ivs is.2 covered found skipped⟩
  · intro faithful
    exact ⟨lossless.mpr faithful.kept, fun path name s personal found =>
      covered_of_kept path is.2 faithful.kept faithful.entered personal found⟩

/-- A row that `s` encrypts comes back from `s'`, and nothing personal is left in plain. -/
def Secure (c : Crypto) (s s' : EncryptionService) (row : Fields) (ivs : List JsString → Vector UInt8 16) : Prop :=
  ∃ encrypted, s.encryptObject c row ivs = some encrypted ∧ s'.decryptObject c encrypted = row ∧ Covered row encrypted

theorem secure_iff_faithful (inverts : c.Inverts) (created : EncryptionService.create c masterKey version id now = .ok s)
    (earlier later : List Action) (keeps : ∀ a ∈ earlier, EncryptionService.Keeps a)
    (retained : ∀ key, (earlier.foldl (EncryptionService.step c) s).getActiveKey = some key →
      Throughout (EncryptionService.step c) (earlier.foldl (EncryptionService.step c) s)
        (fun s a => EncryptionService.Keeps a ∧ EncryptionService.Retains key s a) later) :
    let s₁ := earlier.foldl (EncryptionService.step c) s
    let s₂ := later.foldl (EncryptionService.step c) s₁
    s₁.getActiveKey.isSome ∧ s₂.getActiveKey.isSome ∧
      ∀ row, IsRow row → ∀ ivs, Secure c s₁ s₂ row ivs ↔ Faithful row := by
  intro s₁ s₂
  have inv : s₁.Inv := (EncryptionService.inv_create inverts created).run inverts keeps
  obtain ⟨key, active, -⟩ := inv.active
  have held : s₁.keys.get key.id = some key := by
    rw [inv.active_id active]
    exact active
  have kept : s₂.Inv ∧ s₂.keys.get key.id = some key :=
    (retained key active).keeps (fun s => s.Inv ∧ s.keys.get key.id = some key) ⟨inv, held⟩ fun s a kept fine =>
      ⟨kept.1.step inverts fine.1, kept.1.retains kept.2 fine.2⟩
  obtain ⟨key', active', -⟩ := kept.1.active
  refine ⟨by rw [active]; rfl, by rw [active']; rfl, fun row is ivs => ?_⟩
  rw [← decryptObject_encryptObject_iff inverts (inv.active_length active) kept.2 is ivs, Secure,
    EncryptionService.encryptObject, active]
  simp only [map_some, Option.some.injEq, exists_eq_left', EncryptionService.decryptObject]

def exampleMaster : Buffer := List.replicate 32 1

def exampleKeys : Buffer × Buffer :=
  ([141, 207, 190, 155, 184, 39, 101, 225, 10, 91, 180, 47, 68, 32, 59, 203, 137, 30, 246, 194, 199, 201, 91, 223, 68, 35, 230, 65,
    177, 130, 231, 88],
   [49, 224, 68, 79, 126, 39, 86, 232, 129, 202, 5, 204, 122, 228, 241, 34, 51, 86, 75, 140, 170, 145, 186, 106, 142, 78, 125, 234,
    246, 173, 85, 116])

def exampleCiphertext : Buffer × Buffer :=
  ([96, 11, 148], [112, 228, 38, 129, 162, 9, 157, 153, 122, 100, 173, 180, 22, 155, 113, 61])

def exampleCrypto : Crypto where
  hmac _ message := if message = utf8 (text "pii-encryption") ++ utf8 (text "1") then exampleKeys.1 else exampleKeys.2
  encrypt key iv plaintext :=
    if key = exampleKeys.1 ∧ iv = List.replicate 16 0 ∧ plaintext = utf8 (text "a@b") then exampleCiphertext else (plaintext, [])
  decrypt key iv authTag ciphertext :=
    if key = exampleKeys.1 ∧ iv = List.replicate 16 0 ∧ (ciphertext, authTag) = exampleCiphertext then some (utf8 (text "a@b"))
    else some ciphertext
  replaceInvalid _ := []

theorem inverts_exampleCrypto : exampleCrypto.Inverts where
  decrypt_encrypt key iv plaintext _ _ := by
    unfold exampleCrypto
    by_cases here : key = exampleKeys.1 ∧ iv = List.replicate 16 0 ∧ plaintext = utf8 (text "a@b")
    · dsimp only
      rw [if_pos here, if_pos ⟨here.1, here.2.1, rfl⟩, here.2.2]
    · have tag : ([] : Buffer) ≠ exampleCiphertext.2 := by decide
      have other : (plaintext, ([] : Buffer)) ≠ exampleCiphertext := fun same => tag (congrArg Prod.snd same)
      dsimp only
      rw [if_neg here, if_neg fun same => other same.2.2]
  length_encrypt key iv plaintext _ _ := by
    unfold exampleCrypto
    by_cases here : key = exampleKeys.1 ∧ iv = List.replicate 16 0 ∧ plaintext = utf8 (text "a@b")
    · have sizes : exampleCiphertext.1.length = (utf8 (text "a@b")).length := by decide +kernel
      dsimp only
      rw [if_pos here, here.2.2, sizes]
    · dsimp only
      rw [if_neg here]
  length_hmac key message := by
    have sizes : exampleKeys.1.length = 32 ∧ exampleKeys.2.length = 32 := by decide
    simp only [exampleCrypto, apply_ite List.length, sizes.1, sizes.2, ite_self]

def exampleService : EncryptionService :=
  let key := generateEncryptionKey exampleCrypto exampleMaster 1 (text "k1") 0
  { keys := (∅ : InsertionMap JsString EncryptionKey).set key.id key, activeKeyId := key.id }

theorem create_exampleService : EncryptionService.create exampleCrypto exampleMaster 1 (text "k1") 0 = .ok exampleService := rfl

def exampleRow : Fields :=
  [(text "email", .string (text "a@b")), (text "price", .number 0), (text "contact", .object [(text "name", .string [])])]

theorem secure_exampleRow : Secure exampleCrypto exampleService
    ([Action.rotateKey exampleMaster (text "k2") 1, .serialise].foldl (EncryptionService.step exampleCrypto) exampleService)
    exampleRow fun _ => Vector.replicate 16 0 := by
  have retained : ∀ key, exampleService.getActiveKey = some key → Throughout (EncryptionService.step exampleCrypto) exampleService
      (fun s a => EncryptionService.Keeps a ∧ EncryptionService.Retains key s a)
      [.rotateKey exampleMaster (text "k2") 1, .serialise] := by
    intro key active
    cases active
    have different : text "k2" ≠ text "k1" := by decide
    exact .cons ⟨trivial, different⟩ (.cons ⟨trivial, trivial⟩ .nil)
  have iff := secure_iff_faithful inverts_exampleCrypto create_exampleService [] _ (by simp) retained
  refine (iff.2.2 exampleRow ?_ _).mpr ⟨?_, ?_⟩
  · have names : (exampleRow.map Prod.fst).Nodup := by decide
    refine ⟨names, ?_⟩
    simp [exampleRow, AreValues, IsValue, asEncryptedField, stringAt, List.lookup_cons, text_beq]
  · have own : text "email" ≠ proto ∧ text "price" ≠ proto ∧ text "contact" ≠ proto ∧ text "name" ≠ proto := by decide
    have simple : Utf16.WellFormed (text "a@b") ∧ Utf16.WellFormed [] := ⟨⟨_, rfl⟩, [], rfl⟩
    simp [exampleRow, KeptFields, KeptValue, own, simple]
  · intro name path inner found skipped
    rw [valueAt_cons] at found
    obtain ⟨v, here, further⟩ := bind_eq_some_iff.mp found
    simp only [exampleRow, List.lookup_cons, List.lookup_nil] at here
    repeat' split at here
    all_goals cases here
    · cases path <;> cases further
    · cases path <;> cases further
    · cases path with
      | nil =>
        cases further
        simp [hasCiphertext, List.lookup_cons, text_beq] at skipped
      | cons next path =>
        rw [valueAt_cons] at further
        obtain ⟨v, here, further⟩ := bind_eq_some_iff.mp further
        simp only [List.lookup_cons, List.lookup_nil] at here
        split at here
        · cases here
          cases path <;> cases further
        · cases here

theorem not_secure : ¬ ∀ (c : Crypto), c.Inverts → ∀ masterKey version id now s,
    EncryptionService.create c masterKey version id now = .ok s → ∀ row, IsRow row → ∀ ivs, Secure c s s row ivs := by
  intro secure
  let row : Fields := [(text "createdAt", .date 0)]
  have is : IsRow row := by simp [IsRow, AreValues, IsValue, row]
  obtain ⟨encrypted, done, same, -⟩ := secure exampleCrypto inverts_exampleCrypto exampleMaster 1 (text "k1") 0 exampleService
    create_exampleService row is fun _ => Vector.replicate 16 0
  cases done
  have own : text "createdAt" ≠ proto := by decide
  have empty : asEncryptedField [] = none := rfl
  simp [EncryptionService.decryptObject, decryptObject, encryptObject, row, encryptEntries, encryptValue, decryptEntries,
    decryptValue, own, empty] at same

end Claim

end SubTrackr.Encryption

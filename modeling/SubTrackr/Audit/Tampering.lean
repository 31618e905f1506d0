import SubTrackr.Audit.Chain

namespace SubTrackr.Audit

open List Lib

section Verify

variable {hmac : String → String} {prev : String} {log : List AuditEvent}

theorem verifyFrom_ge {n i : ℕ} (found : AuditService.verifyFrom hmac prev n log = some i) : n ≤ i := by
  induction log generalizing prev n with
  | nil => cases found
  | cons e rest ih =>
    unfold AuditService.verifyFrom at found
    split at found
    · cases found
      exact le_rfl
    · split at found
      · cases found
        exact le_rfl
      · exact (Nat.le_succ n).trans (ih found)

theorem verifyFrom_le {n k : ℕ} : (∃ i ≤ n + k, AuditService.verifyFrom hmac prev n log = some i) ↔
    ¬(auditChain hmac).Linked prev (log.take (k + 1)) := by
  induction log generalizing prev n k with
  | nil => exact iff_of_false (fun found => nomatch found.choose_spec.2) (not_not.mpr trivial)
  | cons e rest ih =>
    rw [take_succ_cons, HashChain.Linked]
    unfold AuditService.verifyFrom
    split
    · rename_i other
      exact iff_of_true ⟨n, Nat.le_add_right n k, rfl⟩ fun linked => other linked.1
    · rename_i same
      split
      · rename_i forged
        exact iff_of_true ⟨n, Nat.le_add_right n k, rfl⟩ fun linked => forged linked.2.1
      · rename_i sealed
        have here : (auditChain hmac).prev e = prev ∧ (auditChain hmac).digest e = (auditChain hmac).hash e :=
          ⟨not_not.mp same, not_not.mp sealed⟩
        rw [← and_assoc, and_iff_right here]
        cases k with
        | zero =>
          refine iff_of_false ?_ (not_not.mpr trivial)
          rintro ⟨i, bound, found⟩
          exact absurd (verifyFrom_ge found) (by omega)
        | succ k =>
          rw [← @ih _ (n + 1), Nat.add_right_comm n 1 k, Nat.add_assoc n k 1]
          rfl

theorem verify_le {k : ℕ} : (∃ i ≤ k, AuditService.verify hmac log = some i) ↔
    ¬(auditChain hmac).Linked GENESIS_HASH (log.take (k + 1)) := by
  rw [← verifyFrom_le (n := 0), Nat.zero_add]
  rfl

end Verify

section Record

variable (redaction : Redaction) (hmac : String → String)

structure Recorded where
  service : AuditService
  produced : List AuditEvent

def Recorded.capture (w : Recorded) (entry : Entry) : Recorded :=
  ⟨(w.service.capture redaction hmac entry).2, w.produced ++ [(w.service.capture redaction hmac entry).1]⟩

def recordAll (maxAgeMs : ℤ) (archives : Bool) (maxLogSize : ℤ) (entries : List Entry) : Recorded :=
  entries.foldl (Recorded.capture redaction hmac) ⟨⟨[], [], maxAgeMs, archives, maxLogSize⟩, []⟩

variable {redaction hmac} {w : Recorded}

def Recorded.Chained (hmac : String → String) (w : Recorded) : Prop :=
  (w.service.maxLogSize ≤ 0 ∧ w.service.log = []) ∨
    (0 < w.service.maxLogSize ∧ (auditChain hmac).Linked GENESIS_HASH w.produced ∧ w.service.log <:+ w.produced ∧
      (w.service.log = [] → w.produced = []))

theorem capture_chained (chained : w.Chained hmac) (entry : Entry) : (w.capture redaction hmac entry).Chained hmac := by
  have log : (w.capture redaction hmac entry).service.log =
      if w.service.maxLogSize < (w.service.log ++ [w.service.captured redaction hmac entry]).length
        then (w.service.log ++ [w.service.captured redaction hmac entry]).tail
        else w.service.log ++ [w.service.captured redaction hmac entry] := rfl
  rcases chained with ⟨none, empty⟩ | ⟨some, linked, suffix, whole⟩
  · refine .inl ⟨none, ?_⟩
    rw [log, empty]
    refine if_pos ?_
    rw [nil_append, length_singleton]
    omega
  · obtain ⟨dropped, split⟩ := suffix
    have longer : dropped ++ (w.service.log ++ [w.service.captured redaction hmac entry]) =
        w.produced ++ [w.service.captured redaction hmac entry] := by
      rw [← split, append_assoc]
    refine .inr ⟨some, ?_, ?_, ?_⟩
    · refine HashChain.linked_append.mpr ⟨linked, HashChain.linked_singleton.mpr ⟨?_, rfl⟩⟩
      change w.service.lastHash = _
      unfold AuditService.lastHash HashChain.tip
      cases last : w.service.log with
      | nil => rw [whole last]; rfl
      | cons e rest =>
        rw [← split, last, getLast?_append_cons]
        rfl
    · rw [log]
      split
      · exact (tail_suffix _).trans ⟨dropped, longer⟩
      · exact ⟨dropped, longer⟩
    · rw [log]
      intro empty
      exfalso
      split at empty
      · rename_i beyond
        rw [length_append, length_singleton] at beyond
        have short := congrArg List.length empty
        rw [length_tail, length_append, length_singleton, length_nil] at short
        omega
      · exact absurd empty (append_ne_nil_of_right_ne_nil _ (cons_ne_nil _ _))

theorem recordAll_chained {maxAgeMs maxLogSize : ℤ} {archives : Bool} (entries : List Entry) :
    (recordAll redaction hmac maxAgeMs archives maxLogSize entries).Chained hmac := by
  have run {w : Recorded} (chained : w.Chained hmac) : (entries.foldl (Recorded.capture redaction hmac) w).Chained hmac := by
    induction entries generalizing w with
    | nil => exact chained
    | cons entry entries ih => exact ih (capture_chained chained entry)
  apply run
  rcases le_or_gt maxLogSize 0 with none | some
  · exact .inl ⟨none, rfl⟩
  · exact .inr ⟨some, trivial, suffix_rfl, fun _ => rfl⟩

theorem Recorded.Chained.complete (chained : w.Chained hmac) (fresh : ∀ text, hmac text ≠ GENESIS_HASH)
    (commits : ∀ d e, (auditChain hmac).digest d = (auditChain hmac).digest e → d.prevHash = e.prevHash)
    (linked : (auditChain hmac).Linked GENESIS_HASH w.service.log) (some : w.service.log ≠ []) :
    w.service.log = w.produced := by
  rcases chained with ⟨-, empty⟩ | ⟨-, all, ⟨dropped, split⟩, -⟩
  · exact absurd empty some
  · obtain ⟨e, rest, first⟩ := exists_cons_of_ne_nil some
    have start : w.produced[dropped.length]? = Option.some e := by
      rw [← split, first, getElem?_append_right le_rfl, Nat.sub_self]
      rfl
    cases dropped with
    | nil => exact split
    | cons d dropped =>
      have first' : w.produced[0]? = Option.some d := by
        rw [← split]
        rfl
      have same : d.prevHash = e.prevHash := by
        rw [first] at linked
        exact (all.prev_zero first').trans linked.1.symm
      have zero := all.prev_injective (fun e => fresh _) commits start first' same.symm
      cases zero

end Record

section Tampering

def AuditEvent.content (e : AuditEvent) : AuditEvent := { e with hash := "", prevHash := "" }

/-- Another log of the length of the recorded one, whose event at an index is the first with a changed field; the stored
    hashes are ones that captures have produced. -/
structure Tampered (w : Recorded) (log : List AuditEvent) (k : ℕ) : Prop where
  length : log.length = w.service.log.length
  before (j : ℕ) (d e : AuditEvent) : j < k → w.service.log[j]? = some d → log[j]? = some e → e.content = d.content
  changed : ∃ d e, w.service.log[k]? = some d ∧ log[k]? = some e ∧ e.content ≠ d.content
  hashes : ∀ e ∈ log, ∃ d ∈ w.produced, e.hash = d.hash

def Evident (original log : List AuditEvent) (k : ℕ) : Prop :=
  ∃ j ≤ k, ∃ d e, original[j]? = some d ∧ log[j]? = some e ∧
    (e.hash ≠ d.hash ∨ e.prevHash ≠ d.prevHash ∨ serialised e.data ≠ serialised d.data)

section Serialised

variable {d e : AuditEvent}

def eventKeys : List String := sortedKeys (AuditEvent.data ⟨"", "", "", "", "", [], 0, .low, .undefined, "", ""⟩)

theorem sortedKeys_data (e : AuditEvent) : sortedKeys e.data = eventKeys := rfl

theorem mem_eventKeys {name : String} : name ∈ eventKeys ↔ name ∈ ["id", "action", "actorId", "resourceId",
    "resourceType", "metadata", "timestamp", "severity", "context", "prevHash"] := mem_mergeSort

theorem eventKeys_nodup : eventKeys.Nodup := by
  refine (mergeSort_perm _ _).nodup_iff.mpr ?_
  decide +kernel

theorem serialised_eq_iff : serialised e.data = serialised d.data ↔
    (e.id = d.id ∧ e.action = d.action ∧ e.actorId = d.actorId ∧ e.resourceId = d.resourceId ∧
      e.resourceType = d.resourceType ∧ e.timestamp = d.timestamp ∧ e.severity = d.severity ∧ e.prevHash = d.prevHash) ∧
    JsValue.toJson (some eventKeys) (.object e.metadata) = JsValue.toJson (some eventKeys) (.object d.metadata) ∧
      JsValue.toJson (some eventKeys) e.context = JsValue.toJson (some eventKeys) d.context := by
  unfold serialised
  rw [sortedKeys_data, sortedKeys_data, Json.object.injEq, JsValue.pick_eq_iff eventKeys_nodup]
  simp only [mem_eventKeys, forall_mem_cons, AuditEvent.data, JsValue.membersToJson, JsValue.toJson]
  cases JsValue.toJson (some eventKeys) e.context <;> cases JsValue.toJson (some eventKeys) d.context <;>
    simp [lookup_cons, Numeral.ofInt_injective.eq_iff, AuditSeverity.name_injective.eq_iff]
  all_goals tauto

end Serialised

section Detection

variable {redaction : Redaction} {hmac : String → String} {w : Recorded} {log : List AuditEvent} {k : ℕ}

theorem serialised_of_digest (injective : Function.Injective hmac) {d e : AuditEvent}
    (same : (auditChain hmac).digest d = (auditChain hmac).digest e) : serialised d.data = serialised e.data :=
  Json.stringify_injective (injective same)

theorem digest_of_content {d e : AuditEvent} (content : e.content = d.content) (prev : e.prevHash = d.prevHash) :
    (auditChain hmac).digest e = (auditChain hmac).digest d := by
  obtain ⟨⟩ := d
  obtain ⟨⟩ := e
  cases content
  cases prev
  rfl

theorem evident_iff (injective : Function.Injective hmac) {original : List AuditEvent} :
    Evident original log k ↔ ∃ j ≤ k, ∃ d e, original[j]? = some d ∧ log[j]? = some e ∧
      (auditChain hmac).marks e ≠ (auditChain hmac).marks d := by
  have digests {d e : AuditEvent} :
      serialised e.data = serialised d.data ↔ (auditChain hmac).digest e = (auditChain hmac).digest d :=
    ⟨fun same => congrArg (fun j : Json => hmac j.stringify) same, serialised_of_digest injective⟩
  have marks {d e : AuditEvent} : (e.hash ≠ d.hash ∨ e.prevHash ≠ d.prevHash ∨ serialised e.data ≠ serialised d.data) ↔
      (auditChain hmac).marks e ≠ (auditChain hmac).marks d := by
    unfold HashChain.marks
    rw [Ne, Ne, Ne, Ne, digests, Prod.mk.injEq, Prod.mk.injEq]
    change _ ↔ ¬(e.prevHash = d.prevHash ∧ e.hash = d.hash ∧ _)
    tauto
  unfold Evident
  simp only [marks]

theorem tampered_iff (injective : Function.Injective hmac) (fresh : ∀ text, hmac text ≠ GENESIS_HASH)
    (chained : w.Chained hmac) (verified : AuditService.verify hmac w.service.log = none)
    (tampered : Tampered w log k) :
    (∃ i ≤ k, AuditService.verify hmac log = some i) ↔ Evident w.service.log log k := by
  have commits (d e : AuditEvent) (same : (auditChain hmac).digest d = (auditChain hmac).digest e) :
      d.prevHash = e.prevHash :=
    (serialised_eq_iff.mp (serialised_of_digest injective same)).1.2.2.2.2.2.2.2
  obtain ⟨original, changed, found, found', -⟩ := tampered.changed
  have linked := verify_eq_none.mp verified
  have whole : w.service.log = w.produced := by
    refine chained.complete fresh commits linked fun empty => ?_
    rw [empty] at found
    cases found
  have kept (j : ℕ) (earlier : j < k) (d e : AuditEvent) (first : w.service.log[j]? = some d)
      (second : log[j]? = some e) (prev : e.prevHash = d.prevHash) :
      (auditChain hmac).digest e = (auditChain hmac).digest d :=
    digest_of_content (tampered.before j d e earlier first second) prev
  have known : ∀ e ∈ log, ∃ d ∈ w.service.log, e.hash = d.hash := by
    rw [whole]
    exact tampered.hashes
  rw [verify_le, evident_iff injective, not_iff_comm]
  constructor
  · intro hidden
    refine linked.of_marks tampered.length fun j upTo d e first second => ?_
    by_contra differ
    exact hidden ⟨j, upTo, d, e, first, second, differ⟩
  · rintro linked' ⟨j, upTo, d, e, first, second, differ⟩
    exact differ (linked.marks_eq linked' (fun e => fresh _) commits kept known upTo first second)

/-- A tampered log is found invalid up to the first changed event exactly when the tampering is evident: the rest of
    the metadata and of the context is not hashed. -/
theorem tampering_detected_iff (injective : Function.Injective hmac) (fresh : ∀ text, hmac text ≠ GENESIS_HASH)
    {maxAgeMs maxLogSize : ℤ} {archives : Bool} {entries : List Entry}
    (verified : AuditService.verify hmac (recordAll redaction hmac maxAgeMs archives maxLogSize entries).service.log = none)
    (tampered : Tampered (recordAll redaction hmac maxAgeMs archives maxLogSize entries) log k) :
    (∃ i ≤ k, AuditService.verify hmac log = some i) ↔
      Evident (recordAll redaction hmac maxAgeMs archives maxLogSize entries).service.log log k :=
  tampered_iff injective fresh (recordAll_chained entries) verified tampered

end Detection

end Tampering

section Sample

theorem marked_injective : Function.Injective marked := by
  intro a b same
  have chars : '#' :: a.toList = '#' :: b.toList := by
    have lists := congrArg String.toList same
    unfold marked at lists
    simpa only [String.toList_ofList] using lists
  exact String.toList_injective (List.cons.inj chars).2

def amount (value : ℤ) : List (String × JsValue) := [("amount", .number (.ofInt value))]

def paid : Recorded := recordAll noRedaction marked 10 false 5
  [⟨"payment.charged", "alice", "sub-1", "subscription", amount 5, .low, .undefined, "1", 0⟩]

theorem paid_valid : AuditService.verify marked paid.service.log = none :=
  verify_eq_none.mpr ⟨rfl, rfl, trivial⟩

def forged (change : AuditEvent → AuditEvent) : List AuditEvent := paid.service.log.map change

theorem forged_tampered {change : AuditEvent → AuditEvent} (hash : ∀ e, (change e).hash = e.hash)
    (changed : ∀ e ∈ paid.service.log, (change e).content ≠ e.content) : Tampered paid (forged change) 0 := by
  refine ⟨length_map _, ?_, ⟨_, _, rfl, rfl, changed _ (.head _)⟩, ?_⟩
  · intro j d e negative
    exact absurd negative (Nat.not_lt_zero j)
  · intro e member
    obtain ⟨d, mem, rfl⟩ := mem_map.mp member
    exact ⟨d, mem, hash d⟩

theorem tampering_detected_actor :
    ∃ i ≤ 0, AuditService.verify marked (forged fun e => { e with actorId := "mallory" }) = some i := by
  have tampered : Tampered paid (forged fun e => { e with actorId := "mallory" }) 0 := by
    refine forged_tampered (fun _ => rfl) fun e member same => ?_
    rw [mem_singleton.mp member] at same
    exact absurd (congrArg AuditEvent.actorId same) (by decide +kernel)
  refine (tampering_detected_iff marked_injective marked_fresh paid_valid tampered).mpr ?_
  refine ⟨0, le_rfl, _, _, rfl, rfl, .inr (.inr fun same => ?_)⟩
  exact absurd (serialised_eq_iff.mp same).1.2.2.1 (by decide +kernel)

theorem amount_lost (value value' : ℤ) : JsValue.toJson (some eventKeys) (.object (amount value)) =
    JsValue.toJson (some eventKeys) (.object (amount value')) := by
  rw [JsValue.toJson, JsValue.toJson, (JsValue.pick_eq_iff eventKeys_nodup).mpr]
  intro name mem
  have other : (name == "amount") = false := by
    rw [mem_eventKeys] at mem
    revert name
    decide +kernel
  simp only [amount, JsValue.membersToJson, JsValue.toJson, Option.map_some, Option.toList_some, append_nil,
    lookup_cons, other]

theorem tampering_missed : Tampered paid (forged fun e => { e with metadata := amount 500 }) 0 ∧
    AuditService.verify marked (forged fun e => { e with metadata := amount 500 }) = none := by
  constructor
  · refine forged_tampered (fun _ => rfl) fun e member same => ?_
    rw [mem_singleton.mp member] at same
    have metadata : amount 500 = amount 5 := congrArg AuditEvent.metadata same
    have number : Numeral.ofInt 500 = Numeral.ofInt 5 :=
      JsValue.number.inj (Prod.mk.inj (List.cons.inj metadata).1).2
    exact absurd (Numeral.ofInt_injective number) (by decide)
  · refine verify_eq_none.mpr ⟨rfl, ?_, trivial⟩
    have same : serialised { (paid.service.log.head (by decide)) with metadata := amount 500 }.data =
        serialised (paid.service.log.head (by decide)).data :=
      serialised_eq_iff.mpr ⟨⟨rfl, rfl, rfl, rfl, rfl, rfl, rfl, rfl⟩, amount_lost 500 5, rfl⟩
    exact congrArg (fun j : Json => marked j.stringify) same

end Sample

end SubTrackr.Audit

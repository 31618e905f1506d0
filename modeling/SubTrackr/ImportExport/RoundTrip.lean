import SubTrackr.ImportExport.Csv
import SubTrackr.Lib.Fallible
import SubTrackr.Lib.JsValue

namespace SubTrackr.ImportExport

open List Lib

variable {ν : Type} {P : Platform ν}

def isDayMark (c : Char) : Bool := c.isDigit || c = '-' || c = '+'

theorem pad_digits {width n : ℕ} {c : Char} (mem : c ∈ pad width n) : isDayMark c = true := by
  unfold pad List.leftpad at mem
  rcases mem_append.mp mem with zero | digit
  · rw [eq_of_mem_replicate zero]
    rfl
  · simp [isDayMark, Nat.isDigit_of_mem_toDigits (by decide) (by decide) digit]

theorem dayText_marks {time : ℤ} {c : Char} (mem : c ∈ dayText time) : isDayMark c = true := by
  have year {y : ℤ} (mem : c ∈ yearText y) : isDayMark c = true := by
    unfold yearText at mem
    split at mem
    · exact pad_digits mem
    · rcases mem_cons.mp mem with rfl | mem
      · split <;> rfl
      · exact pad_digits mem
  unfold dayText at mem
  dsimp only at mem
  simp only [mem_append, mem_cons] at mem
  rcases mem with (early | rfl | month) | rfl | day
  · exact year early
  · rfl
  · exact pad_digits month
  · rfl
  · exact pad_digits day

theorem dayText_ne_nil (time : ℤ) : dayText time ≠ [] := by
  unfold dayText
  simp

def isPlain (c : Char) : Bool := c ≠ ',' && c ≠ '"' && !Text.isWhiteSpace c

theorem isPlain_of_isDayMark {c : Char} (mark : isDayMark c = true) : isPlain c = true ∧ c ≠ 'T' := by
  rcases Bool.or_eq_true_iff.mp mark with mark | plus
  · rcases Bool.or_eq_true_iff.mp mark with digit | minus
    · have range : 48 ≤ c.toNat ∧ c.toNat ≤ 57 := by
        simp only [Char.isDigit, Bool.and_eq_true, decide_eq_true_eq] at digit
        exact ⟨digit.1, digit.2⟩
      have other {d : Char} (outside : d.toNat < 48 ∨ 57 < d.toNat) : c ≠ d := by
        rintro rfl
        omega
      have visible : Text.isWhiteSpace c = false := by
        simp only [Text.isWhiteSpace, Text.whiteSpaces, contains_eq_mem, decide_eq_false_iff_not, mem_cons,
          not_mem_nil, or_false, not_or]
        omega
      exact ⟨by simp [isPlain, visible, other (d := ',') (by decide), other (d := '"') (by decide)], other (by decide)⟩
    · obtain rfl := of_decide_eq_true minus
      decide
  · obtain rfl := of_decide_eq_true plus
    decide

section Cells

def cellText (P : Platform ν) : Value ν → List Char
  | .undefined => []
  | .text s => writeText s.toList
  | .number n => (P.numberText n).toList
  | .flag b => (if b then "true" else "false").toList
  | .date d => (d.time.map dayText).getD []

def cellValue (P : Platform ν) : Value ν → List Char
  | .undefined => []
  | .text s => s.toList
  | .number n => (P.numberText n).toList
  | .flag b => (if b then "true" else "false").toList
  | .date d => (d.time.map dayText).getD []

def Value.Fits : Value ν → Prop
  | .text s => Text.Trimmed s.toList ∧ s ≠ "" ∧ '\n' ∉ s.toList
  | .date d => d.time.isSome
  | _ => True

variable {v : Value ν} {cs : List Char}

theorem trim_plain (plain : ∀ c ∈ cs, isPlain c = true) : Text.trim cs = cs := by
  apply Text.trim_of_trimmed
  constructor
  · intro c head
    simpa [isPlain] using (Bool.and_eq_true_iff.mp (plain c (mem_of_mem_head? head))).2
  · intro c last
    simpa [isPlain] using (Bool.and_eq_true_iff.mp (plain c (mem_of_getLast? last))).2

theorem reads_plain (plain : ∀ c ∈ cs, isPlain c = true) : Reads cs cs := by
  apply Reads.plain _ (trim_plain plain)
  intro c mem
  have both := plain c mem
  simp only [isPlain, Bool.and_eq_true, decide_eq_true_eq] at both
  exact both.1

theorem writeCell_fits (fits : v.Fits) : writeCell P v = .ok (cellText P v) := by
  cases v with
  | date d =>
    obtain ⟨time, valid⟩ := Option.isSome_iff_exists.mp fits
    have day : (dayText time ++ 'T' :: clockText time).takeWhile (· ≠ 'T') = dayText time := by
      have marks (c : Char) (mem : c ∈ dayText time) : decide (c ≠ 'T') = true :=
        decide_eq_true (isPlain_of_isDayMark (dayText_marks mem)).2
      rw [takeWhile_append_of_pos marks, takeWhile_cons_of_neg (by simp), append_nil]
    simp only [writeCell, Date.toISOString, valid, Except.map, day, cellText, Option.map_some, Option.getD_some]
  | _ => rfl

theorem cellText_plain (fits : v.Fits) : (∃ s, v = .text s) ∨ cellText P v = cellValue P v ∧
    ∀ c ∈ cellText P v, isPlain c = true := by
  cases v with
  | text s => exact .inl ⟨s, rfl⟩
  | undefined => exact .inr ⟨rfl, by simp [cellText]⟩
  | number n =>
    refine .inr ⟨rfl, fun c mem => ?_⟩
    obtain ⟨comma, quote, visible⟩ := P.numberText_plain n c mem
    simp [isPlain, comma, quote, visible]
  | flag b =>
    have both : ∀ b : Bool, (if b then "true" else "false").toList.all isPlain = true := by decide
    exact .inr ⟨rfl, all_eq_true.mp (both b)⟩
  | date d =>
    obtain ⟨time, valid⟩ := Option.isSome_iff_exists.mp fits
    simp only [cellText, cellValue, valid, Option.map_some, Option.getD_some]
    exact .inr ⟨trivial, fun c mem => (isPlain_of_isDayMark (dayText_marks mem)).1⟩

theorem reads_cell (fits : v.Fits) : Reads (cellText P v) (cellValue P v) := by
  rcases cellText_plain (P := P) fits with ⟨s, rfl⟩ | ⟨same, plain⟩
  · exact .text (Text.trim_of_trimmed fits.1)
  · rw [← same]
    exact reads_plain plain

theorem writeText_mem {c : Char} (other : c ≠ '"') : c ∈ writeText cs ↔ c ∈ cs := by
  unfold writeText
  split
  · simp only [doubled, mem_append, mem_cons, mem_flatMap, not_mem_nil, or_false, other, false_or]
    constructor
    · rintro ⟨d, mem, same⟩
      split at same <;> simp_all
    · intro mem
      exact ⟨c, mem, by simp [other]⟩
  · exact .rfl

theorem writeText_getLast {c : Char} (other : c ≠ '"') (last : c ∈ (writeText cs).getLast?) : c ∈ cs.getLast? := by
  unfold writeText at last
  split at last
  · rw [getLast?_concat] at last
    exact absurd (Option.some.inj last).symm other
  · exact last

theorem cellText_line (fits : v.Fits) : '\n' ∉ cellText P v ∧ '\r' ∉ (cellText P v).getLast? := by
  rcases cellText_plain (P := P) fits with ⟨s, rfl⟩ | ⟨-, plain⟩
  · obtain ⟨trimmed, -, single⟩ := fits
    refine ⟨fun mem => single ((writeText_mem (by decide)).mp mem), fun last => ?_⟩
    exact absurd (trimmed.last _ (writeText_getLast (by decide) last)) (by decide)
  · exact ⟨fun mem => absurd (plain _ mem) (by decide), fun last => absurd (plain _ (mem_of_getLast? last)) (by decide)⟩

theorem cellValue_eq_nil (fits : v.Fits) : cellValue P v = [] ↔ v = .undefined := by
  cases v with
  | undefined => simp [cellValue]
  | text s => simp [cellValue, fits.2.1]
  | number n => simp [cellValue, P.numberText_ne_empty]
  | flag b => cases b <;> simp [cellValue]
  | date d =>
    obtain ⟨time, valid⟩ := Option.isSome_iff_exists.mp fits
    simp [cellValue, valid, dayText_ne_nil]

end Cells

section Columns

def columnNames : List String :=
  ["name", "description", "category", "price", "currency", "billingCycle", "nextBillingDate", "isActive",
    "notificationsEnabled", "isCryptoEnabled", "cryptoToken", "cryptoAmount", "externalId"]

theorem map_csvColumn (P : Platform ν) : (CSV_COLUMN_MAPPING P).map ColumnMapping.csvColumn = columnNames := rfl

theorem columnNames_plain : ∀ name ∈ columnNames, ∀ c ∈ name.toList, isPlain c = true ∧ c.toNat < 128 := by
  have all : columnNames.all (fun name => name.toList.all fun c => isPlain c && decide (c.toNat < 128)) = true := by
    decide +kernel
  simpa only [all_eq_true, Bool.and_eq_true, decide_eq_true_eq] using all

def lowerColumns : List (List Char) := columnNames.map fun name => name.toList.map Char.toLower

theorem toLowerCase_column {name : String} (mem : name ∈ columnNames) :
    (P.toLowerCase name).toList = name.toList.map Char.toLower := by
  rw [P.toLowerCase_ascii name fun c inside => (columnNames_plain name mem c inside).2, String.toList_ofList]

theorem parseCSVLine_header (P : Platform ν) : parseCSVLine (headerLine P) = columnNames.map String.toList := by
  have names : (CSV_COLUMN_MAPPING P).map (fun mapping => mapping.csvColumn.toList) = columnNames.map String.toList := rfl
  unfold headerLine
  rw [names]
  exact parseCSVLine_intercalate (by decide) fun name mem => reads_plain fun c inside => (columnNames_plain name mem c inside).1

theorem headerMap_column {name : String} {i : ℕ} (there : columnNames[i]? = some name) :
    headerMap P (parseCSVLine (headerLine P)) (P.toLowerCase name).toList = some i := by
  have lower : (columnNames.map String.toList).zipIdx.map
      (fun h => (Text.trim (P.toLowerCase (String.ofList h.1)).toList, h.2)) = lowerColumns.zipIdx := by
    unfold lowerColumns
    rw [zipIdx_map, zipIdx_map, map_map]
    apply map_congr_left
    rintro ⟨column, index⟩ mem
    have known : column ∈ columnNames := (mem_zipIdx' mem).2 ▸ getElem_mem _
    have all : columnNames.all (fun name => (name.toList.map Char.toLower).all isPlain) = true := by decide +kernel
    simp only [all_eq_true] at all
    simp only [Function.comp_apply, Prod.map_apply, String.ofList_toList, toLowerCase_column known, id_eq,
      trim_plain (all column known)]
  have found : ∀ p ∈ columnNames.zipIdx,
      putAll (fun _ => none) lowerColumns.zipIdx (p.1.toList.map Char.toLower) = some p.2 := by decide +kernel
  rw [parseCSVLine_header, headerMap, lower, toLowerCase_column (mem_of_getElem? there)]
  exact found (name, i) (mk_mem_zipIdx_iff_getElem?.mpr there)

end Columns

def Subscription.texts (sub : Subscription ν) : List String :=
  sub.name :: sub.currency :: (sub.description.toList ++ sub.cryptoToken.toList ++ sub.externalId.toList)

def Subscription.exported (sub : Subscription ν) : SubscriptionInput ν where
  id := none
  externalId := sub.externalId
  externalSource := none
  name := some sub.name
  description := sub.description
  category := some sub.category.text
  price := some sub.price
  currency := some sub.currency
  billingCycle := some sub.billingCycle.text
  nextBillingDate := sub.nextBillingDate.time.map fun time => String.ofList (dayText time)
  isActive := some sub.isActive
  notificationsEnabled := sub.notificationsEnabled
  isCryptoEnabled := some sub.isCryptoEnabled
  cryptoToken := sub.cryptoToken
  cryptoAmount := sub.cryptoAmount

def imported : Value ν → Value ν
  | .date d => .ofText (d.time.map fun time => String.ofList (dayText time))
  | v => v

def put (input : SubscriptionInput ν) (field : Field) : Value ν → SubscriptionInput ν
  | .undefined => input
  | v => input.set field v

structure Exportable (sub : Subscription ν) : Prop where
  texts : ∀ text ∈ sub.texts, Text.Trimmed text.toList ∧ text ≠ "" ∧ '\n' ∉ text.toList
  dated : sub.nextBillingDate.time.isSome

section Rows

variable {sub : Subscription ν} {mapping : ColumnMapping ν}

theorem foldl_put (P : Platform ν) (sub : Subscription ν) (dated : sub.nextBillingDate.time.isSome) :
    (CSV_COLUMN_MAPPING P).foldl
      (fun input mapping => put input mapping.fieldName (imported (sub.get mapping.fieldName))) ∅ = sub.exported := by
  obtain ⟨time, valid⟩ := Option.isSome_iff_exists.mp dated
  obtain ⟨id, name, description, category, price, currency, billingCycle, ⟨_⟩, isActive, notificationsEnabled,
    isCryptoEnabled, cryptoToken, cryptoAmount, externalId, externalSource, createdAt, updatedAt⟩ := sub
  obtain rfl := valid
  cases description <;> cases notificationsEnabled <;> cases cryptoToken <;> cases cryptoAmount <;> cases externalId <;> rfl

theorem fits_ofText {text : Option String} (each : ∀ s ∈ text, (Value.text s : Value ν).Fits) : (Value.ofText text : Value ν).Fits := by
  cases text with
  | none => trivial
  | some s => exact each s rfl

theorem Exportable.fits (exportable : Exportable sub) (mem : mapping ∈ CSV_COLUMN_MAPPING P) :
    (sub.get mapping.fieldName).Fits := by
  have texts := exportable.texts
  simp only [Subscription.texts, mem_cons, mem_append, Option.mem_toList] at texts
  have category : ∀ c : SubscriptionCategory, (Value.text c.text : Value ν).Fits := by
    intro c
    cases c <;> exact ⟨by decide, by decide, by decide⟩
  have cycle : ∀ c : BillingCycle, (Value.text c.text : Value ν).Fits := by
    intro c
    cases c <;> exact ⟨by decide, by decide, by decide⟩
  simp only [CSV_COLUMN_MAPPING, mem_cons, not_mem_nil, or_false] at mem
  rcases mem with rfl | rfl | rfl | rfl | rfl | rfl | rfl | rfl | rfl | rfl | rfl | rfl | rfl
  · exact texts sub.name (by simp)
  · exact fits_ofText fun s found => texts s (by simp_all)
  · exact category sub.category
  · trivial
  · exact texts sub.currency (by simp)
  · exact cycle sub.billingCycle
  · exact exportable.dated
  · trivial
  · cases given : sub.notificationsEnabled <;> simp [Subscription.get, given, Value.ofFlag, Value.Fits]
  · trivial
  · exact fits_ofText fun s found => texts s (by simp_all)
  · cases given : sub.cryptoAmount <;> simp [Subscription.get, given, Value.ofNumber, Value.Fits]
  · exact fits_ofText fun s found => texts s (by simp_all)

theorem parseFlag_text (P : Platform ν) (b : Bool) : parseFlag P (if b then "true" else "false") = .flag b := by
  have ascii (b : Bool) : ∀ c ∈ (if b then "true" else "false").toList, c.toNat < 128 := by
    have all : (if b then "true" else "false").toList.all (fun c => decide (c.toNat < 128)) = true := by
      cases b <;> decide
    simpa only [all_eq_true, decide_eq_true_eq] using all
  unfold parseFlag parseBoolean
  rw [P.toLowerCase_ascii _ (ascii b)]
  cases b <;> simp only [String.toList_ofList] <;> congr 1

def Field.textual : Field → Bool
  | .price | .cryptoAmount | .isActive | .notificationsEnabled | .isCryptoEnabled => false
  | _ => true

section Cell

variable {name : String} {required : Bool} {field : Field}

theorem parse_textual (text : Option String) (same : sub.get field = .ofText text) (fits : (sub.get field).Fits)
    (textual : field.textual = true) (given : sub.get field ≠ .undefined) :
    ColumnMapping.parse P ⟨name, field, required, none⟩ (cellValue P (sub.get field)) = imported (sub.get field) := by
  rw [same] at fits given ⊢
  cases text with
  | none => exact absurd rfl given
  | some s =>
    obtain ⟨trimmed, some, -⟩ := fits
    have some' : s.toList ≠ [] := by simpa using some
    have whole := Text.trim_of_trimmed trimmed
    simp only [ColumnMapping.parse, Value.ofText, cellValue, imported, parseSubscriptionField, String.ofList_toList, whole,
      if_neg some']
    cases field <;> first | rfl | cases textual

theorem parse_number {n : Option ν} (same : sub.get field = .ofNumber n) (given : sub.get field ≠ .undefined) :
    ColumnMapping.parse P ⟨name, field, required, some (parsePrice P)⟩ (cellValue P (sub.get field)) =
      imported (sub.get field) := by
  rw [same] at given ⊢
  cases n with
  | none => exact absurd rfl given
  | some n => simp only [ColumnMapping.parse, Value.ofNumber, cellValue, imported, parsePrice, String.ofList_toList, P.parse_numberText]

theorem parse_flag {b : Option Bool} (same : sub.get field = .ofFlag b) (given : sub.get field ≠ .undefined) :
    ColumnMapping.parse P ⟨name, field, required, some (parseFlag P)⟩ (cellValue P (sub.get field)) =
      imported (sub.get field) := by
  rw [same] at given ⊢
  cases b with
  | none => exact absurd rfl given
  | some b => simp only [ColumnMapping.parse, Value.ofFlag, cellValue, imported, String.ofList_toList, parseFlag_text]

theorem parse_day (dated : sub.nextBillingDate.time.isSome) :
    ColumnMapping.parse P ⟨name, .nextBillingDate, required, none⟩ (cellValue P (sub.get .nextBillingDate)) =
      imported (sub.get .nextBillingDate) := by
  obtain ⟨time, valid⟩ := Option.isSome_iff_exists.mp dated
  have plain : ∀ c ∈ dayText time, isPlain c = true := fun c mem => (isPlain_of_isDayMark (dayText_marks mem)).1
  simp only [ColumnMapping.parse, Subscription.get, cellValue, imported, valid, Option.map_some, Option.getD_some,
    Value.ofText, parseSubscriptionField, String.toList_ofList, trim_plain plain, dayText_ne_nil, if_false]

end Cell

theorem parse_cell (exportable : Exportable sub) (mem : mapping ∈ CSV_COLUMN_MAPPING P)
    (given : sub.get mapping.fieldName ≠ .undefined) :
    mapping.parse P (cellValue P (sub.get mapping.fieldName)) = imported (sub.get mapping.fieldName) := by
  have fits := exportable.fits mem
  simp only [CSV_COLUMN_MAPPING, mem_cons, not_mem_nil, or_false] at mem
  rcases mem with rfl | rfl | rfl | rfl | rfl | rfl | rfl | rfl | rfl | rfl | rfl | rfl | rfl
  · exact parse_textual (some sub.name) rfl fits rfl given
  · exact parse_textual _ rfl fits rfl given
  · exact parse_textual (some sub.category.text) rfl fits rfl given
  · exact parse_number (n := some sub.price) rfl given
  · exact parse_textual (some sub.currency) rfl fits rfl given
  · exact parse_textual (some sub.billingCycle.text) rfl fits rfl given
  · exact parse_day exportable.dated
  · exact parse_flag (b := some sub.isActive) rfl given
  · exact parse_flag rfl given
  · exact parse_flag (b := some sub.isCryptoEnabled) rfl given
  · exact parse_textual _ rfl fits rfl given
  · exact parse_number rfl given
  · exact parse_textual _ rfl fits rfl given

def cells (P : Platform ν) (sub : Subscription ν) : List (List Char) :=
  (CSV_COLUMN_MAPPING P).map fun mapping => cellValue P (sub.get mapping.fieldName)

def lineOf (P : Platform ν) (sub : Subscription ν) : List Char :=
  List.intercalate [','] ((CSV_COLUMN_MAPPING P).map fun mapping => cellText P (sub.get mapping.fieldName))

theorem readColumn_cells (exportable : Exportable sub) (mem : mapping ∈ CSV_COLUMN_MAPPING P) (input : SubscriptionInput ν) :
    readColumn P (headerMap P (parseCSVLine (headerLine P))) (cells P sub) input mapping =
      put input mapping.fieldName (imported (sub.get mapping.fieldName)) := by
  obtain ⟨i, there⟩ := mem_iff_getElem?.mp mem
  have named : columnNames[i]? = some mapping.csvColumn := by
    rw [← map_csvColumn P, getElem?_map, there, Option.map_some]
  have cell : (cells P sub)[i]? = some (cellValue P (sub.get mapping.fieldName)) := by
    rw [cells, getElem?_map, there, Option.map_some]
  have blank := cellValue_eq_nil (P := P) (exportable.fits mem)
  unfold readColumn
  rw [headerMap_column named, Option.bind_some, cell]
  dsimp only
  by_cases absent : sub.get mapping.fieldName = .undefined
  · rw [if_pos (blank.mpr absent), absent]
    rfl
  · rw [if_neg fun none => absent (blank.mp none)]
    rw [parse_cell exportable mem absent]
    cases shape : imported (sub.get mapping.fieldName) with
    | undefined =>
      cases given : sub.get mapping.fieldName with
      | undefined => exact absurd given absent
      | date d =>
        have fits := exportable.fits mem
        rw [given] at fits shape
        obtain ⟨time, valid⟩ := Option.isSome_iff_exists.mp fits
        simp [imported, valid, Value.ofText] at shape
      | _ => simp [given, imported] at shape
    | _ => rfl

theorem readRow_lineOf (exportable : Exportable sub) :
    readRow P (headerMap P (parseCSVLine (headerLine P))) (lineOf P sub) = some sub.exported := by
  have read : parseCSVLine (lineOf P sub) = cells P sub :=
    parseCSVLine_intercalate (cons_ne_nil _ _) fun mapping mem => reads_cell (exportable.fits mem)
  have row : (CSV_COLUMN_MAPPING P).foldl (readColumn P (headerMap P (parseCSVLine (headerLine P))) (cells P sub)) ∅ =
      sub.exported := by
    rw [← foldl_put P sub exportable.dated]
    exact foldl_ext _ _ _ fun input mapping mem => readColumn_cells exportable mem input
  obtain ⟨trimmed, some, -⟩ := exportable.texts sub.name mem_cons_self
  have named : (cells P sub).all (fun v => decide (Text.trim v = [])) = false := by
    refine all_eq_false.mpr ⟨sub.name.toList, mem_map.mpr ⟨_, mem_cons_self, rfl⟩, ?_⟩
    simpa [Text.trim_of_trimmed trimmed] using some
  have given : given sub.exported.name = true := by simp [ImportExport.given, Subscription.exported, some]
  have filled : (cells P sub).isEmpty = false := rfl
  unfold readRow
  simp only [read, row, named, filled, Bool.or_self, Bool.false_eq_true, if_false, given, if_true]

theorem lineOf_line (exportable : Exportable sub) : '\n' ∉ lineOf P sub ∧ '\r' ∉ (lineOf P sub).getLast? ∧
    Text.trim (lineOf P sub) ≠ [] := by
  have line := intercalate_line ((CSV_COLUMN_MAPPING P).map fun mapping => cellText P (sub.get mapping.fieldName)) (by
    intro cell member
    obtain ⟨mapping, mem, rfl⟩ := mem_map.mp member
    exact cellText_line (exportable.fits mem))
  refine ⟨line.1, line.2, ?_⟩
  have comma : ',' ∈ lineOf P sub := comma_mem_intercalate _ _ _
  exact Text.trim_ne_nil comma (by decide)

end Rows

theorem headerLine_line (P : Platform ν) : '\n' ∉ headerLine P ∧ '\r' ∉ (headerLine P).getLast? ∧
    Text.trim (headerLine P) ≠ [] := by
  have closed : headerLine P = List.intercalate [','] (columnNames.map String.toList) := rfl
  rw [closed]
  decide +kernel

theorem writeRow_lineOf {sub : Subscription ν} (exportable : Exportable sub) : writeRow P sub = .ok (lineOf P sub) := by
  unfold writeRow
  rw [mapM_ok fun mapping mem => writeCell_fits (exportable.fits mem)]
  rfl

theorem parse_generateCSV {subscriptions : List (Subscription ν)} (some : subscriptions ≠ [])
    (exportable : ∀ sub ∈ subscriptions, Exportable sub) :
    (generateCSV P subscriptions >>= parseCSV P) = .ok (subscriptions.map Subscription.exported) := by
  have written : generateCSV P subscriptions =
      .ok (List.intercalate ['\n'] (headerLine P :: subscriptions.map (lineOf P))) := by
    unfold generateCSV
    rw [mapM_ok fun sub member => writeRow_lineOf (exportable sub member)]
    rfl
  have line (l : List Char) (member : l ∈ headerLine P :: subscriptions.map (lineOf P)) :
      '\n' ∉ l ∧ '\r' ∉ l.getLast? ∧ Text.trim l ≠ [] := by
    rcases mem_cons.mp member with rfl | member
    · exact headerLine_line P
    · obtain ⟨sub, mem, rfl⟩ := mem_map.mp member
      exact lineOf_line (exportable sub mem)
  have lines := Text.splitLines_intercalate (cons_ne_nil _ _) (fun l member => (line l member).1)
    fun l member => (line l member).2.1
  have visible : (headerLine P :: subscriptions.map (lineOf P)).filter (fun line => decide (Text.trim line ≠ [])) =
      headerLine P :: subscriptions.map (lineOf P) :=
    filter_eq_self.mpr fun l member => decide_eq_true (line l member).2.2
  have rows : (subscriptions.map (lineOf P)).filterMap (readRow P (headerMap P (parseCSVLine (headerLine P)))) =
      subscriptions.map Subscription.exported := by
    rw [filterMap_map, ← filterMap_eq_map]
    exact filterMap_congr fun sub member => readRow_lineOf (exportable sub member)
  rw [written, ok_bind, parseCSV, lines, visible]
  cases subscriptions with
  | nil => exact absurd rfl some
  | cons sub subscriptions => exact congrArg Except.ok rows

section WellFormed

def WellFormed (input : SubscriptionInput ν) : Prop :=
  ∀ field s, input.text field = some s → s ≠ "" ∧ '\n' ∉ s.toList

variable {input : SubscriptionInput ν} {mapping : ColumnMapping ν}

theorem parse_wellFormed (mem : mapping ∈ CSV_COLUMN_MAPPING P) {rawValue : List Char} (single : '\n' ∉ rawValue)
    {s : String} (parsed : mapping.parse P rawValue = .text s) : s ≠ "" ∧ '\n' ∉ s.toList := by
  have plain : mapping.transform = none := by
    simp only [CSV_COLUMN_MAPPING, mem_cons, not_mem_nil, or_false] at mem
    rcases mem with rfl | rfl | rfl | rfl | rfl | rfl | rfl | rfl | rfl | rfl | rfl | rfl | rfl <;> first | rfl | cases parsed
  rw [ColumnMapping.parse, plain] at parsed
  dsimp only [parseSubscriptionField] at parsed
  rw [String.toList_ofList] at parsed
  by_cases blank : Text.trim rawValue = []
  · rw [if_pos blank] at parsed
    cases parsed
  · rw [if_neg blank] at parsed
    have text : String.ofList (Text.trim rawValue) = s := by
      cases field : mapping.fieldName <;> simp_all [parseFlag]
    subst text
    refine ⟨by simpa using blank, fun feed => single (Text.mem_of_mem_trim ?_)⟩
    rwa [String.toList_ofList] at feed

theorem WellFormed.readColumn (fine : WellFormed input) (mem : mapping ∈ CSV_COLUMN_MAPPING P)
    {columns : Store (List Char) ℕ} {values : List (List Char)} (single : ∀ v ∈ values, '\n' ∉ v) :
    WellFormed (readColumn P columns values input mapping) := by
  unfold ImportExport.readColumn
  split
  · exact fine
  · rename_i rawValue found
    split
    · exact fine
    · intro field s text
      obtain ⟨i, -, there⟩ := Option.bind_eq_some_iff.mp found
      by_cases same : field = mapping.fieldName
      · subst same
        exact parse_wellFormed mem (single rawValue (mem_of_getElem? there)) (SubscriptionInput.text_set_self text)
      · rw [SubscriptionInput.text_set_of_ne same] at text
        exact fine field s text

theorem readRow_wellFormed {columns : Store (List Char) ℕ} {line : List Char} (single : '\n' ∉ line)
    (read : readRow P columns line = some input) : WellFormed input := by
  have cells : ∀ v ∈ parseCSVLine line, '\n' ∉ v := fun v member feed =>
    single ((mem_of_mem_scan member feed).resolve_left not_mem_nil)
  have whole (mappings : List (ColumnMapping ν)) (mem : mappings ⊆ CSV_COLUMN_MAPPING P) (input : SubscriptionInput ν)
      (fine : WellFormed input) : WellFormed (mappings.foldl (ImportExport.readColumn P columns (parseCSVLine line)) input) := by
    induction mappings generalizing input with
    | nil => exact fine
    | cons mapping mappings ih =>
      exact ih (fun m member => mem (mem_cons_of_mem _ member)) _ (fine.readColumn (mem mem_cons_self) cells)
  unfold readRow at read
  dsimp only at read
  split at read
  · cases read
  · split at read
    · cases read
      refine whole _ (List.Subset.refl _) _ fun field s none => ?_
      cases field <;> cases none
    · cases read

theorem parseCSV_wellFormed {csvContent : List Char} {rows : List (SubscriptionInput ν)}
    (parsed : parseCSV P csvContent = .ok rows) : ∀ input ∈ rows, WellFormed input := by
  intro input member
  unfold parseCSV at parsed
  split at parsed
  · rename_i header next rest lines
    cases parsed
    obtain ⟨line, mem, read⟩ := mem_filterMap.mp member
    have kept : line ∈ (Text.splitLines csvContent).filter fun line => Text.trim line ≠ [] := by
      rw [lines]
      exact mem_cons_of_mem _ mem
    exact readRow_wellFormed (Text.newline_notMem_of_mem_splitLines (mem_filter.mp kept).1) read
  · cases parsed

end WellFormed

theorem texts_of_parsed {subscriptions : List (Subscription ν)}
    (read : (generateCSV P subscriptions >>= parseCSV P) = .ok (subscriptions.map Subscription.exported))
    {sub : Subscription ν} (member : sub ∈ subscriptions) : ∀ text ∈ sub.texts, text ≠ "" ∧ '\n' ∉ text.toList := by
  obtain ⟨csv, -, parsed⟩ := (bind_eq_ok ..).mp read
  have fine := parseCSV_wellFormed parsed sub.exported (mem_map_of_mem member)
  intro text mem
  simp only [Subscription.texts, mem_cons, mem_append, Option.mem_toList] at mem
  rcases mem with rfl | rfl | (description | token) | external
  · exact fine .name _ rfl
  · exact fine .currency _ rfl
  · exact fine .description _ description
  · exact fine .cryptoToken _ token
  · exact fine .externalId _ external

theorem dated_of_written {subscriptions : List (Subscription ν)} {csv : List Char}
    (written : generateCSV P subscriptions = .ok csv) {sub : Subscription ν} (mem : sub ∈ subscriptions) :
    sub.nextBillingDate.time.isSome := by
  obtain ⟨rows, all, -⟩ := (bind_eq_ok ..).mp written
  obtain ⟨row, one⟩ := ok_of_mapM all mem
  obtain ⟨cells, each, -⟩ := (bind_eq_ok ..).mp one
  have column : (⟨"nextBillingDate", .nextBillingDate, true, none⟩ : ColumnMapping ν) ∈ CSV_COLUMN_MAPPING P := by
    simp [CSV_COLUMN_MAPPING]
  obtain ⟨cell, found⟩ := ok_of_mapM each column
  dsimp only [Subscription.get, writeCell, Date.toISOString] at found
  cases time : sub.nextBillingDate.time with
  | none =>
    rw [time] at found
    cases found
  | some time => rfl

/-- Reading what was written gives back every row, exactly where there is a subscription at all, every billing date is
    valid, and no text is empty or has a line feed. -/
theorem round_trip_iff {subscriptions : List (Subscription ν)}
    (trimmed : ∀ sub ∈ subscriptions, ∀ text ∈ sub.texts, Text.Trimmed text.toList) :
    (generateCSV P subscriptions >>= parseCSV P) = .ok (subscriptions.map Subscription.exported) ↔
      subscriptions ≠ [] ∧ ∀ sub ∈ subscriptions, sub.nextBillingDate.time.isSome ∧
        ∀ text ∈ sub.texts, text ≠ "" ∧ '\n' ∉ text.toList := by
  constructor
  · intro read
    refine ⟨?_, fun sub member => ?_⟩
    · rintro rfl
      obtain ⟨csv, written, parsed⟩ := (bind_eq_ok ..).mp read
      have alone : generateCSV P [] = .ok (headerLine P) := by
        simp [generateCSV, List.intercalate, pure, Except.pure, bind, Except.bind]
      obtain rfl := Except.ok.inj (alone.symm.trans written)
      rw [parseCSV, Text.splitLines_line (headerLine_line P).1] at parsed
      simp [(headerLine_line P).2.2] at parsed
    · obtain ⟨csv, written, -⟩ := (bind_eq_ok ..).mp read
      exact ⟨dated_of_written written member, texts_of_parsed read member⟩
  · rintro ⟨some, fine⟩
    apply parse_generateCSV some
    intro sub member
    obtain ⟨dated, texts⟩ := fine sub member
    exact ⟨fun text listed => ⟨trimmed sub member text listed, texts text listed⟩, dated⟩

section Sample

def wholeNumbers : Platform ℤ where
  numberText n := String.ofList (Numeral.signedDigits n)
  parseFloat s :=
    match s.toList with
    | '-' :: digits => -Nat.ofDigitChars 10 digits 0
    | digits => Nat.ofDigitChars 10 digits 0
  toNumber _ := 0
  toLowerCase s := String.ofList (s.toList.map Char.toLower)
  parse_numberText n := by
    rw [String.toList_ofList]
    cases n with
    | ofNat n =>
      have plain (rest : List Char) : Numeral.digits n ≠ '-' :: rest := Numeral.digits_ne_minus
      simp only [Numeral.signedDigits]
      rw [Numeral.digits, Nat.ofDigitChars_ten_toDigits]
      rfl
    | negSucc n => simp [Numeral.signedDigits, Numeral.digits, Nat.ofDigitChars_ten_toDigits, Int.negSucc_eq]
  numberText_ne_empty n := by
    have some : Numeral.signedDigits n ≠ [] := (Numeral.ofInt n).nonempty
    simpa using some
  numberText_plain n c member := by
    rw [String.toList_ofList] at member
    have mark : isDayMark c = true := by
      cases n with
      | ofNat n => simp [isDayMark, Numeral.digits_numeric member]
      | negSucc n =>
        rcases mem_cons.mp member with rfl | member
        · rfl
        · simp [isDayMark, Numeral.digits_numeric member]
    simpa [isPlain, and_assoc] using (isPlain_of_isDayMark mark).1
  toLowerCase_ascii _ _ := rfl

def subscriptionTo (name description : String) : Subscription ℤ where
  id := "sub_1"
  name := name
  description := some description
  category := .streaming
  price := 12
  currency := "USD"
  billingCycle := .monthly
  nextBillingDate := ⟨some 1777593600000⟩
  isActive := true
  notificationsEnabled := none
  isCryptoEnabled := false
  cryptoToken := none
  cryptoAmount := none
  externalId := none
  externalSource := none
  createdAt := ⟨some 0⟩
  updatedAt := ⟨some 0⟩

theorem subscriptionTo_trimmed {name description : String} (first : Text.Trimmed name.toList)
    (second : Text.Trimmed description.toList) : ∀ text ∈ (subscriptionTo name description).texts, Text.Trimmed text.toList := by
  intro text mem
  simp only [subscriptionTo, Subscription.texts, Option.toList_some, Option.toList_none, append_nil, mem_cons,
    not_mem_nil, or_false] at mem
  rcases mem with rfl | rfl | rfl
  · exact first
  · decide
  · exact second

theorem round_trip_quoted : (generateCSV wholeNumbers [subscriptionTo "Say \"hi\"" "films, and more"] >>= parseCSV wholeNumbers) =
    .ok [(subscriptionTo "Say \"hi\"" "films, and more").exported] := by
  apply (round_trip_iff ?_).mpr
  · refine ⟨cons_ne_nil _ _, fun sub member => ?_⟩
    rw [mem_singleton.mp member]
    exact ⟨rfl, by decide⟩
  · intro sub member
    rw [mem_singleton.mp member]
    exact subscriptionTo_trimmed (by decide) (by decide)

theorem not_round_trip : (∀ text ∈ (subscriptionTo "Films" "one\ntwo").texts, Text.Trimmed text.toList) ∧
    (subscriptionTo "Films" "one\ntwo").name ≠ "" ∧
    (generateCSV wholeNumbers [subscriptionTo "Films" "one\ntwo"] >>= parseCSV wholeNumbers) ≠
      .ok [(subscriptionTo "Films" "one\ntwo").exported] := by
  refine ⟨subscriptionTo_trimmed (by decide) (by decide), by decide, fun read => ?_⟩
  exact absurd (texts_of_parsed read mem_cons_self "one\ntwo" (by decide)).2 (by decide)

end Sample

end SubTrackr.ImportExport

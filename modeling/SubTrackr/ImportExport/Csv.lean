import SubTrackr.ImportExport.Records
import SubTrackr.Lib.Store

namespace SubTrackr.ImportExport

open List Lib

section

variable {ν : Type} (P : Platform ν)

def parseBoolean (value : String) : Bool :=
  let lower := Text.trim (P.toLowerCase value).toList
  lower = "true".toList || lower = "1".toList || lower = "yes".toList

structure ColumnMapping (ν : Type) where
  csvColumn : String
  fieldName : Field
  required : Bool
  transform : Option (String → Value ν)

def parsePrice (value : String) : Value ν := .number (P.parseFloat value)

def parseFlag (value : String) : Value ν := .flag (parseBoolean P value)

def CSV_COLUMN_MAPPING : List (ColumnMapping ν) :=
  [⟨"name", .name, true, none⟩,
   ⟨"description", .description, false, none⟩,
   ⟨"category", .category, true, none⟩,
   ⟨"price", .price, true, some (parsePrice P)⟩,
   ⟨"currency", .currency, false, none⟩,
   ⟨"billingCycle", .billingCycle, true, none⟩,
   ⟨"nextBillingDate", .nextBillingDate, true, none⟩,
   ⟨"isActive", .isActive, false, some (parseFlag P)⟩,
   ⟨"notificationsEnabled", .notificationsEnabled, false, some (parseFlag P)⟩,
   ⟨"isCryptoEnabled", .isCryptoEnabled, false, some (parseFlag P)⟩,
   ⟨"cryptoToken", .cryptoToken, false, none⟩,
   ⟨"cryptoAmount", .cryptoAmount, false, some (parsePrice P)⟩,
   ⟨"externalId", .externalId, false, none⟩]

def parseSubscriptionField (field : Field) (rawValue : Option String) : Value ν :=
  match rawValue with
  | none => .undefined
  | some raw =>
    let trimmed := Text.trim raw.toList
    if trimmed = [] then .undefined
    else
      match field with
      | .price | .cryptoAmount => .number (P.toNumber (String.ofList trimmed))
      | .isActive | .notificationsEnabled | .isCryptoEnabled => parseFlag P (String.ofList trimmed)
      | _ => .text (String.ofList trimmed)

def scan : Bool → List Char → List Char → List (List Char)
  | _, current, [] => [Text.trim current]
  | inQuotes, current, c :: rest =>
    if c = '"' then
      match rest with
      | [] => scan (!inQuotes) current []
      | d :: rest => if inQuotes && d = '"' then scan inQuotes (current ++ ['"']) rest else scan (!inQuotes) current (d :: rest)
    else if c = ',' && !inQuotes then Text.trim current :: scan inQuotes [] rest
    else scan inQuotes (current ++ [c]) rest

def parseCSVLine (line : List Char) : List (List Char) := scan false [] line

def headerMap (headers : List (List Char)) : Store (List Char) ℕ :=
  putAll (fun _ => none) (headers.zipIdx.map fun h => (Text.trim (P.toLowerCase (String.ofList h.1)).toList, h.2))

def ColumnMapping.parse (mapping : ColumnMapping ν) (rawValue : List Char) : Value ν :=
  match mapping.transform with
  | some transform => transform (String.ofList rawValue)
  | none => parseSubscriptionField P mapping.fieldName (some (String.ofList rawValue))

def readColumn (columns : Store (List Char) ℕ) (values : List (List Char)) (subscription : SubscriptionInput ν)
    (mapping : ColumnMapping ν) : SubscriptionInput ν :=
  match (columns (P.toLowerCase mapping.csvColumn).toList).bind fun columnIndex => values[columnIndex]? with
  | none => subscription
  | some rawValue =>
    if rawValue = [] then subscription
    else subscription.set mapping.fieldName (mapping.parse P rawValue)

def given (s : Option String) : Bool := s.any (· ≠ "")

def readRow (columns : Store (List Char) ℕ) (line : List Char) : Option (SubscriptionInput ν) :=
  let values := parseCSVLine line
  if values.isEmpty || values.all fun v => Text.trim v = [] then none
  else
    let subscription := (CSV_COLUMN_MAPPING P).foldl (readColumn P columns values) ∅
    if given subscription.name then some subscription else none

def parseCSV (csvContent : List Char) : Except String (List (SubscriptionInput ν)) :=
  match (Text.splitLines csvContent).filter fun line => Text.trim line ≠ [] with
  | headerLine :: next :: rest => .ok ((next :: rest).filterMap (readRow P (headerMap P (parseCSVLine headerLine))))
  | _ => .error "CSV must contain at least a header row and one data row"

def doubled (cs : List Char) : List Char := cs.flatMap fun c => if c = '"' then ['"', '"'] else [c]

def writeText (cs : List Char) : List Char :=
  if ',' ∈ cs ∨ '"' ∈ cs then '"' :: doubled cs ++ ['"'] else cs

def writeCell : Value ν → Except String (List Char)
  | .undefined => .ok []
  | .text s => .ok (writeText s.toList)
  | .number n => .ok (P.numberText n).toList
  | .flag b => .ok (if b then "true" else "false").toList
  | .date d => d.toISOString.map fun text => text.takeWhile (· ≠ 'T')

def writeRow (sub : Subscription ν) : Except String (List Char) := do
  let cells ← (CSV_COLUMN_MAPPING P).mapM fun mapping => writeCell P (sub.get mapping.fieldName)
  pure (List.intercalate [','] cells)

def headerLine : List Char := List.intercalate [','] ((CSV_COLUMN_MAPPING P).map fun mapping => mapping.csvColumn.toList)

def generateCSV (subscriptions : List (Subscription ν)) : Except String (List Char) := do
  let rows ← subscriptions.mapM (writeRow P)
  pure (List.intercalate ['\n'] (headerLine P :: rows))

end

variable {α ν : Type} {c : Char} {w r s cell line current rest : List Char}

theorem scan_quote_open (current : List Char) (next : rest.head? ≠ some '"') :
    scan true current ('"' :: rest) = scan false current rest := by
  cases rest with
  | nil => rfl
  | cons d rest =>
    have other : d ≠ '"' := by simpa using next
    simp [scan, other]

theorem scan_comma (current rest : List Char) :
    scan false current (',' :: rest) = Text.trim current :: scan false [] rest := by
  cases rest <;> simp [scan]

theorem scan_other {inQuotes : Bool} (quote : c ≠ '"') (inside : c = ',' → inQuotes = true) (current rest : List Char) :
    scan inQuotes current (c :: rest) = scan inQuotes (current ++ [c]) rest := by
  have kept : ¬(c = ',' ∧ inQuotes = false) := by
    rintro ⟨comma, outside⟩
    simp [inside comma] at outside
  cases rest <;> simp [scan, quote, kept]

theorem scan_plain (plain : ∀ c ∈ w, c ≠ ',' ∧ c ≠ '"') (current rest : List Char) :
    scan false current (w ++ rest) = scan false (current ++ w) rest := by
  induction w generalizing current with
  | nil => simp
  | cons c w ih =>
    obtain ⟨comma, quote⟩ := plain c (by simp)
    rw [cons_append, scan_other quote (fun same => absurd same comma), ih fun d mem => plain d (by simp [mem])]
    simp

theorem scan_doubled (s : List Char) (current rest : List Char) :
    scan true current (doubled s ++ rest) = scan true (current ++ s) rest := by
  induction s generalizing current with
  | nil => simp [doubled]
  | cons c s ih =>
    have split : doubled (c :: s) = (if c = '"' then ['"', '"'] else [c]) ++ doubled s := by simp [doubled]
    rw [split]
    by_cases quote : c = '"'
    · subst quote
      simp [scan, ih]
    · rw [if_neg quote, append_assoc, singleton_append, scan_other quote fun _ => rfl, ih]
      simp

/-- A cell that is written as `w` is read as `r`, whatever follows it. -/
structure Reads (w r : List Char) : Prop where
  scanned : ∀ rest : List Char, rest.head? ≠ some '"' → scan false [] (w ++ rest) = scan false r rest
  trimmed : Text.trim r = r

theorem Reads.plain (plain : ∀ c ∈ w, c ≠ ',' ∧ c ≠ '"') (trimmed : Text.trim w = w) : Reads w w :=
  ⟨fun rest _ => by simpa using scan_plain plain [] rest, trimmed⟩

theorem Reads.text (trimmed : Text.trim s = s) : Reads (writeText s) s := by
  unfold writeText
  split
  · refine ⟨fun rest next => ?_, trimmed⟩
    have opened : scan false [] ('"' :: doubled s ++ ['"'] ++ rest) = scan true [] (doubled s ++ '"' :: rest) := by
      rw [append_assoc, singleton_append, cons_append]
      cases doubled s <;> simp [scan]
    rw [opened, scan_doubled, nil_append, scan_quote_open s next]
  · rename_i bare
    rw [not_or] at bare
    apply Reads.plain _ trimmed
    intro c mem
    constructor
    · rintro rfl
      exact bare.1 mem
    · rintro rfl
      exact bare.2 mem

theorem parseCSVLine_intercalate {xs : List α} (some : xs ≠ []) {w r : α → List Char}
    (reads : ∀ x ∈ xs, Reads (w x) (r x)) : parseCSVLine (List.intercalate [','] (xs.map w)) = xs.map r := by
  unfold parseCSVLine
  induction xs with
  | nil => exact absurd rfl some
  | cons x xs ih =>
    have first := reads x (by simp)
    cases xs with
    | nil =>
      have scanned := first.scanned [] (by simp)
      rw [append_nil] at scanned
      simp [List.intercalate, scanned, scan, first.trimmed]
    | cons y xs =>
      have joined : List.intercalate [','] ((x :: y :: xs).map w) =
          w x ++ ',' :: List.intercalate [','] ((y :: xs).map w) := by
        simp [List.intercalate]
      rw [joined, first.scanned _ (by simp), scan_comma, first.trimmed, ih (by simp) fun z mem => reads z (by simp_all)]
      rfl

theorem intercalate_line (cells : List (List Char)) (each : ∀ cell ∈ cells, '\n' ∉ cell ∧ '\r' ∉ cell.getLast?) :
    '\n' ∉ List.intercalate [','] cells ∧ '\r' ∉ (List.intercalate [','] cells).getLast? := by
  induction cells with
  | nil => simp [List.intercalate]
  | cons cell cells ih =>
    obtain ⟨single, last⟩ := each cell (by simp)
    cases cells with
    | nil => simpa [List.intercalate] using ⟨single, last⟩
    | cons next cells =>
      obtain ⟨single', last'⟩ := ih fun cell mem => each cell (mem_cons_of_mem _ mem)
      rw [intercalate_cons_cons]
      refine ⟨by simp [single, single'], ?_⟩
      rw [append_assoc, singleton_append, getLast?_append, getLast?_cons]
      cases tail : (List.intercalate [','] (next :: cells)).getLast? with
      | none => simp
      | some c => simpa [tail] using last'

theorem comma_mem_intercalate (first second : List Char) (cells : List (List Char)) :
    ',' ∈ List.intercalate [','] (first :: second :: cells) := by
  rw [intercalate_cons_cons]
  simp

theorem mem_of_mem_scan {inQuotes : Bool} (mem : cell ∈ scan inQuotes current line) (inside : c ∈ cell) :
    c ∈ current ∨ c ∈ line := by
  fun_induction scan inQuotes current line with
  | case1 inQuotes current =>
    rw [mem_singleton.mp mem] at inside
    exact .inl (Text.mem_of_mem_trim inside)
  | case2 inQuotes current ih => exact .inl ((ih mem).resolve_right not_mem_nil)
  | case3 inQuotes current d rest quotes ih =>
    have known := ih mem
    simp only [mem_append, mem_cons] at known ⊢
    tauto
  | case4 inQuotes current d rest quotes ih => exact (ih mem).imp_right (mem_cons_of_mem _)
  | case5 inQuotes current d rest quote comma ih =>
    rcases mem_cons.mp mem with rfl | mem
    · exact .inl (Text.mem_of_mem_trim inside)
    · exact .inr (mem_cons_of_mem _ ((ih mem).resolve_left not_mem_nil))
  | case6 inQuotes current d rest quote comma ih =>
    have known := ih mem
    simp only [mem_append, mem_cons] at known ⊢
    tauto

end SubTrackr.ImportExport

import SubTrackr.Tax.TaxService
import SubTrackr.Lib.Histories
import SubTrackr.Lib.Store

namespace SubTrackr.Tax

open List Lib

section

section Keys

variable {a b x y : List Char} {key key' : String} {goods goods' : Option DigitalGoodsClass}

theorem last_colon (plain : ':' ∉ a) (plain' : ':' ∉ b) (same : x ++ ':' :: a = y ++ ':' :: b) : x = y ∧ a = b := by
  rcases append_eq_append_iff.mp same with ⟨c, rfl, rest⟩ | ⟨c, rfl, rest⟩
  · cases c with
    | nil => exact ⟨(append_nil x).symm, (List.cons.inj rest).2⟩
    | cons d c =>
      rw [(List.cons.inj rest).2] at plain
      simp at plain
  · cases c with
    | nil => exact ⟨append_nil y, ((List.cons.inj rest).2).symm⟩
    | cons d c =>
      rw [(List.cons.inj rest).2] at plain'
      simp at plain'

theorem classText_plain (goods : Option DigitalGoodsClass) : ':' ∉ (classText goods).toList := by
  rcases goods with _ | goods
  · decide
  · cases goods <;> decide

theorem classText_injective (same : classText goods = classText goods') : goods = goods' := by
  rcases goods with _ | goods
  · rcases goods' with _ | goods'
    · rfl
    · cases goods' <;> simp [classText, DigitalGoodsClass.text] at same
  · rcases goods' with _ | goods'
    · cases goods <;> simp [classText, DigitalGoodsClass.text] at same
    · cases goods <;> cases goods' <;> first | rfl | simp [classText, DigitalGoodsClass.text] at same

theorem cacheKey_injective (same : cacheKey key goods = cacheKey key' goods') : key = key' ∧ goods = goods' := by
  unfold cacheKey at same
  have lists := congrArg String.toList same
  simp only [String.toList_append, append_assoc, append_cancel_left_eq] at lists
  obtain ⟨keys, classes⟩ := last_colon (classText_plain goods) (classText_plain goods') lists
  exact ⟨String.toList_inj.mp keys, classText_injective (String.toList_inj.mp classes)⟩

end Keys

variable {t : Tables} {now : ℤ} {cache : Cache} {jurisdiction : TaxJurisdiction} {goods : Option DigitalGoodsClass}
  {entry : TaxRateEntry} {rule : Option DigitalGoodsTaxRule} {context : TaxInvoiceContext}

def rated (rule : Option DigitalGoodsTaxRule) (entry : TaxRateEntry) : TaxRateEntry :=
  if entry.appliesToDigitalGoods then entry
  else
    match rule with
    | none => entry
    | some rule =>
      if !rule.isTaxable then { entry with rateBps := 0, taxType := .none }
      else
        match rule.reducedRateBps with
        | some reducedRateBps => { entry with rateBps := reducedRateBps }
        | none => entry

/-- The rule is consulted and says that nothing is due. Such answers are not cached. -/
def Exempts (rule : Option DigitalGoodsTaxRule) (entry : TaxRateEntry) : Prop :=
  entry.appliesToDigitalGoods = false ∧ ∃ r, rule = some r ∧ r.isTaxable = false

variable (t) in
def consulted (jurisdiction : TaxJurisdiction) (goods : Option DigitalGoodsClass) : Option DigitalGoodsTaxRule :=
  goods.bind fun goodsClass => countryRule t goodsClass jurisdiction.country

variable (t) in
def builtIn (jurisdiction : TaxJurisdiction) : Option (String × TaxRateEntry) := findRate t (jurisdictionFallbackKeys t jurisdiction)

theorem rate_spec (now : ℤ) (cache : Cache) (jurisdiction : TaxJurisdiction) (goods : Option DigitalGoodsClass) (key : String)
    (entry : TaxRateEntry) :
    (rate t now cache jurisdiction goods key entry).1 = rated (consulted t jurisdiction goods) entry ∧
      (Exempts (consulted t jurisdiction goods) entry ∧ (rate t now cache jurisdiction goods key entry).2 = cache ∨
        ¬ Exempts (consulted t jurisdiction goods) entry ∧ (rate t now cache jurisdiction goods key entry).2 =
          store now cache (cacheKey (buildJurisdictionKey t jurisdiction) goods) key (rated (consulted t jurisdiction goods) entry)) := by
  unfold rate rated Exempts consulted
  cases applies : entry.appliesToDigitalGoods with
  | true => simp
  | false =>
    cases goods.bind fun goodsClass => countryRule t goodsClass jurisdiction.country with
    | none => simp
    | some rule =>
      cases taxable : rule.isTaxable with
      | false => simp [taxable]
      | true =>
        cases reduced : rule.reducedRateBps with
        | none => simp [taxable, reduced]
        | some r => simp [taxable, reduced]

variable (t) in
def tableAnswer (jurisdiction : TaxJurisdiction) (goods : Option DigitalGoodsClass) : Option TaxRateEntry :=
  (builtIn t jurisdiction).map fun found => rated (consulted t jurisdiction goods) found.2

variable (t) in
def lookupKey (jurisdiction : TaxJurisdiction) (goods : Option DigitalGoodsClass) : String :=
  cacheKey (buildJurisdictionKey t jurisdiction) goods

theorem getTaxRate_cases (t : Tables) (now : ℤ) (cache : Cache) (jurisdiction : TaxJurisdiction) (goods : Option DigitalGoodsClass) :
    (∃ cached, cache.get (lookupKey t jurisdiction goods) = some cached ∧ now - cached.cachedAt < cached.ttlMs ∧
      getTaxRate t now cache jurisdiction goods = (some cached.entry, cache)) ∨
    ((∀ cached, cache.get (lookupKey t jurisdiction goods) = some cached → ¬ now - cached.cachedAt < cached.ttlMs) ∧
      (getTaxRate t now cache jurisdiction goods).1 = tableAnswer t jurisdiction goods ∧
      ((∀ e, builtIn t jurisdiction = some e → Exempts (consulted t jurisdiction goods) e.2) ∧
          (getTaxRate t now cache jurisdiction goods).2 = cache ∨
        ∃ key entry, builtIn t jurisdiction = some (key, entry) ∧ ¬ Exempts (consulted t jurisdiction goods) entry ∧
          (getTaxRate t now cache jurisdiction goods).2 =
            store now cache (lookupKey t jurisdiction goods) key (rated (consulted t jurisdiction goods) entry))) := by
  unfold getTaxRate
  cases live : (cache.get (cacheKey (buildJurisdictionKey t jurisdiction) goods)).filter
      fun cached => decide (now - cached.cachedAt < cached.ttlMs) with
  | some cached =>
    obtain ⟨found, fresh⟩ := Option.filter_eq_some_iff.mp live
    exact .inl ⟨cached, found, of_decide_eq_true fresh, rfl⟩
  | none =>
    refine .inr ⟨?_, ?_⟩
    · intro cached found
      have stale := Option.filter_eq_none_iff.mp live cached found
      simpa using stale
    · dsimp only
      unfold tableAnswer builtIn
      cases found : findRate t (jurisdictionFallbackKeys t jurisdiction) with
      | none => exact ⟨rfl, .inl ⟨by simp, rfl⟩⟩
      | some e =>
        obtain ⟨key, entry⟩ := e
        obtain ⟨answer, ⟨exempt, same⟩ | ⟨exempt, held⟩⟩ := rate_spec (t := t) now cache jurisdiction goods key entry
        · refine ⟨congrArg some answer, .inl ⟨?_, same⟩⟩
          rintro e ⟨⟩
          exact exempt
        · exact ⟨congrArg some answer, .inr ⟨key, entry, rfl, exempt, held⟩⟩

theorem get_of_cleanRateCache {key : String} {cached : TaxRateCacheEntry} (found : (cleanRateCache cache).get key = some cached) :
    cache.get key = some cached := by
  unfold cleanRateCache at found
  split at found
  · exact InsertionMap.get_of_dropOldest found
  · exact found

theorem get_of_getTaxRate {key : String} {cached : TaxRateCacheEntry}
    (found : (getTaxRate t now cache jurisdiction goods).2.get key = some cached) :
    cache.get key = some cached ∨ key = lookupKey t jurisdiction goods ∧
      ∃ e, builtIn t jurisdiction = some e ∧ ¬ Exempts (consulted t jurisdiction goods) e.2 ∧
        cached.entry = rated (consulted t jurisdiction goods) e.2 := by
  rcases getTaxRate_cases t now cache jurisdiction goods with ⟨_, _, _, same⟩ | ⟨-, -, ⟨-, same⟩ | ⟨at_key, entry, table, exempt, held⟩⟩
  · rw [same] at found
    exact .inl found
  · rw [same] at found
    exact .inl found
  · rw [held] at found
    rcases InsertionMap.get_set_eq_some.mp (get_of_cleanRateCache found) with ⟨here, rfl⟩ | ⟨-, before⟩
    · exact .inr ⟨here, _, table, exempt, rfl⟩
    · exact .inl before

/-- A call that looks a rate up: one of `getTaxRate`, or one of `calculateTax` with a class. -/
structure Lookup where
  now : ℤ
  jurisdiction : TaxJurisdiction
  goods : Option DigitalGoodsClass

variable (t) in
def look (cache : Cache) (lookup : Lookup) : Cache := (getTaxRate t lookup.now cache lookup.jurisdiction lookup.goods).2

variable (t) in
def Derived (cache : Cache) : Prop :=
  ∀ key goods cached, cache.get (cacheKey key goods) = some cached →
    ∃ jurisdiction e, buildJurisdictionKey t jurisdiction = key ∧ builtIn t jurisdiction = some e ∧
      ¬ Exempts (consulted t jurisdiction goods) e.2 ∧ cached.entry = rated (consulted t jurisdiction goods) e.2

theorem Derived.look (derived : Derived t cache) (lookup : Lookup) : Derived t (look t cache lookup) := by
  intro key goods cached found
  rcases get_of_getTaxRate found with before | ⟨here, e, table, exempt, answer⟩
  · exact derived key goods cached before
  · obtain ⟨same, rfl⟩ := cacheKey_injective here
    exact ⟨lookup.jurisdiction, e, same.symm, table, exempt, answer⟩

theorem derived_history (history : List Lookup) : Derived t (history.foldl (look t) ∅) := by
  induction history using List.reverseRecOn with
  | nil =>
    intro key goods cached found
    cases found
  | append_singleton history lookup ih =>
    rw [foldl_append]
    exact ih.look lookup

theorem builtIn_congr {other : TaxJurisdiction} (same : buildJurisdictionKey t other = buildJurisdictionKey t jurisdiction) :
    builtIn t other = builtIn t jurisdiction := by
  rw [builtIn, builtIn, jurisdictionFallbackKeys, jurisdictionFallbackKeys, same]

def taxOf (context : TaxInvoiceContext) (answer : Option TaxRateEntry) : ℚ :=
  match answer with
  | none => 0
  | some entry => if entry.reverseCharge then 0 else round (context.subtotal * entry.rateBps / BPS_SCALE)

variable (t) in
structure FollowsRule (context : TaxInvoiceContext) (taxAmount : ℚ) : Prop where
  untaxed : isDigitalGoodsTaxable t context.digitalGoodsClass context.jurisdiction.country context.jurisdiction.state = false →
    taxAmount = 0
  reduced : ∀ rule r,
    matchingRule t context.digitalGoodsClass context.jurisdiction.country context.jurisdiction.state = some rule →
    rule.isTaxable = true → rule.reducedRateBps = some r → taxAmount = round (context.subtotal * r / BPS_SCALE)

variable (t) in
def RulesApplied (context : TaxInvoiceContext) : Prop :=
  ∀ (history : List Lookup) (now : ℤ),
    FollowsRule t context (calculateTax t now (history.foldl (look t) ∅) context).1.taxAmount ∧
      ∀ (history' : List Lookup) (now' : ℤ), (calculateTax t now' (history'.foldl (look t) ∅) context).1 =
        (calculateTax t now (history.foldl (look t) ∅) context).1

variable (t) in
/-- The tables themselves apply the rules to the invoice: the rate that they give, with the rule of the country where the
    entry is not one for digital goods, charges what the matching rule asks for, and every other way to write the
    jurisdiction's key gets the same rate or is exempt. -/
structure TablesAgree (context : TaxInvoiceContext) : Prop where
  follows : FollowsRule t context (taxOf context (tableAnswer t context.jurisdiction (some context.digitalGoodsClass)))
  alike : ∀ e, builtIn t context.jurisdiction = some e → ∀ other,
    buildJurisdictionKey t other = buildJurisdictionKey t context.jurisdiction →
    ¬ Exempts (consulted t other (some context.digitalGoodsClass)) e.2 →
    rated (consulted t other (some context.digitalGoodsClass)) e.2 =
      rated (consulted t context.jurisdiction (some context.digitalGoodsClass)) e.2

variable (t) in
def resultOf (context : TaxInvoiceContext) (answer : Option TaxRateEntry) : TaxCalculationResult :=
  match answer with
  | none => ⟨0, 0, .none, buildJurisdictionKey t context.jurisdiction, false, false⟩
  | some entry =>
    ⟨taxOf context answer, entry.rateBps, entry.taxType, buildJurisdictionKey t context.jurisdiction, false, entry.reverseCharge⟩

theorem calculateTax_result (now : ℤ) (cache : Cache) (context : TaxInvoiceContext) :
    (calculateTax t now cache context).1 =
      resultOf t context (getTaxRate t now cache context.jurisdiction (some context.digitalGoodsClass)).1 := by
  unfold calculateTax resultOf
  dsimp only
  cases (getTaxRate t now cache context.jurisdiction (some context.digitalGoodsClass)).1 with
  | none => rfl
  | some entry => rfl

theorem resultOf_taxAmount (context : TaxInvoiceContext) (answer : Option TaxRateEntry) :
    (resultOf t context answer).taxAmount = taxOf context answer := by
  cases answer with
  | none => rfl
  | some entry => rfl

theorem getTaxRate_empty (now : ℤ) : (getTaxRate t now ∅ jurisdiction goods).1 = tableAnswer t jurisdiction goods := by
  rcases getTaxRate_cases t now ∅ jurisdiction goods with ⟨_, found, -, -⟩ | ⟨-, answer, -⟩
  · cases found
  · exact answer

theorem TablesAgree.answer (agree : TablesAgree t context) (history : List Lookup) (now : ℤ) :
    (getTaxRate t now (history.foldl (look t) ∅) context.jurisdiction (some context.digitalGoodsClass)).1 =
      tableAnswer t context.jurisdiction (some context.digitalGoodsClass) := by
  rcases getTaxRate_cases t now (history.foldl (look t) ∅) context.jurisdiction (some context.digitalGoodsClass) with
    ⟨cached, found, -, hit⟩ | ⟨-, answer, -⟩
  · obtain ⟨other, e, same, table, exempt, answer⟩ := derived_history history _ _ cached found
    have here : builtIn t context.jurisdiction = some e := (builtIn_congr same).symm.trans table
    rw [hit, tableAnswer, here, answer, agree.alike e here other same exempt]
    rfl
  · exact answer

theorem rated_ext {rule rule' : Option DigitalGoodsTaxRule} (rateBps : (rated rule entry).rateBps = (rated rule' entry).rateBps)
    (taxType : (rated rule entry).taxType = (rated rule' entry).taxType) : rated rule entry = rated rule' entry := by
  have shape : ∀ rule, rated rule entry =
      { entry with rateBps := (rated rule entry).rateBps, taxType := (rated rule entry).taxType } := by
    intro rule
    unfold rated
    split
    · rfl
    · split
      · rfl
      · split
        · rfl
        · split <;> rfl
  rw [shape rule, shape rule', rateBps, taxType]

theorem getTaxRate_again {e : String × TaxRateEntry} {other : TaxJurisdiction}
    (same : buildJurisdictionKey t other = buildJurisdictionKey t jurisdiction) (table : builtIn t other = some e)
    (exempt : ¬ Exempts (consulted t other goods) e.2) (now : ℤ) :
    (getTaxRate t now (look t ∅ ⟨now, other, goods⟩) jurisdiction goods).1 = some (rated (consulted t other goods) e.2) := by
  have held : (look t ∅ ⟨now, other, goods⟩).get (lookupKey t jurisdiction goods) =
      some ⟨e.1, rated (consulted t other goods) e.2, now, DEFAULT_TAX_CACHE_TTL_MS⟩ := by
    rcases getTaxRate_cases t now ∅ other goods with ⟨_, found, -, -⟩ | ⟨-, -, ⟨all, -⟩ | ⟨key, entry, table', -, held⟩⟩
    · cases found
    · exact absurd (all e table) exempt
    · rw [table, Option.some.injEq] at table'
      subst table'
      have single : ((∅ : Cache).set (lookupKey t other goods) ⟨key, rated (consulted t other goods) entry, now,
          DEFAULT_TAX_CACHE_TTL_MS⟩).entries.length ≤ TAX_RATE_CACHE_MAX_ENTRIES := by
        rw [← InsertionMap.length_values, InsertionMap.values_set_of_fresh (InsertionMap.get_empty _)]
        exact Nat.le_of_ble_eq_true rfl
      rw [look, held, store, cleanRateCache, if_neg (not_lt.mpr single), lookupKey, lookupKey, same]
      exact InsertionMap.get_set_self ..
  rcases getTaxRate_cases t now (look t ∅ ⟨now, other, goods⟩) jurisdiction goods with ⟨cached, found, -, hit⟩ | ⟨stale, -⟩
  · rw [held, Option.some.injEq] at found
    rw [hit, ← found]
  · exact absurd (by simp [DEFAULT_TAX_CACHE_TTL_MS]) (stale _ held)

def asciiUpperCase (text : String) : String := String.ofList (text.toList.map Char.toUpper)

def builtInTables : Tables := ⟨asciiUpperCase, BUILT_IN_TAX_RATES, DIGITAL_GOODS_TAX_RULES⟩

def exampleContext : TaxInvoiceContext := ⟨⟨"US", "CA", ""⟩, 10000, .exempt⟩

end

inductive Call where
  | refreshTaxRateCache (entries : List TaxRateEntry) (ttlMs : ℤ)
  | getTaxRate (jurisdiction : TaxJurisdiction) (goods : Option DigitalGoodsClass)
  | calculateTax (context : TaxInvoiceContext)
  | invalidateTaxRateCache

/-- The cache, with the last entries that refreshes had for each key since it was invalidated. -/
structure Desk where
  cache : Cache
  refreshed : Store String TaxRateCacheEntry

def Desk.new : Desk := ⟨∅, fun _ => none⟩

variable (t : Tables)

def step (desk : Desk) : ℤ × Call → Desk
  | (now, .refreshTaxRateCache entries ttlMs) =>
    { cache := refreshTaxRateCache now desk.cache entries ttlMs
      refreshed := putAll desk.refreshed (entries.map fun entry => (entry.jurisdictionKey, ⟨entry.jurisdictionKey, entry, now, ttlMs⟩)) }
  | (now, .getTaxRate jurisdiction goods) => { desk with cache := (getTaxRate t now desk.cache jurisdiction goods).2 }
  | (now, .calculateTax context) => { desk with cache := (calculateTax t now desk.cache context).2 }
  | (_, .invalidateTaxRateCache) => ⟨invalidateTaxRateCache, fun _ => none⟩

def Desk.inForce (desk : Desk) (now : ℤ) (key : String) : Option TaxRateEntry :=
  ((desk.refreshed key).filter fun cached => now - cached.cachedAt < cached.ttlMs).map (·.entry)

def due (desk : Desk) (now : ℤ) (jurisdiction : TaxJurisdiction) : Option TaxRateEntry :=
  match desk.inForce now (buildJurisdictionKey t jurisdiction) with
  | some entry => some entry
  | none => (builtIn t jurisdiction).map (·.2)

def Uses (entry answer : Option TaxRateEntry) : Prop :=
  ∃ rule : Option DigitalGoodsTaxRule, (∀ r, rule = some r → r ∈ t.rules) ∧ answer = entry.map (rated rule)

def Right (desk : Desk) : ℤ × Call → Prop
  | (now, .getTaxRate jurisdiction goods) => Uses t (due t desk now jurisdiction) (getTaxRate t now desk.cache jurisdiction goods).1
  | (now, .calculateTax context) =>
    ∃ answer, Uses t (due t desk now context.jurisdiction) answer ∧ (calculateTax t now desk.cache context).1 = resultOf t context answer
  | _ => True

def Unchanged (desk : Desk) (now : ℤ) (jurisdiction : TaxJurisdiction) : Prop :=
  ∀ entry ∈ desk.inForce now (buildJurisdictionKey t jurisdiction), (builtIn t jurisdiction).map (·.2) = some entry

instance (desk : Desk) (now : ℤ) (jurisdiction : TaxJurisdiction) : Decidable (Unchanged t desk now jurisdiction) :=
  inferInstanceAs (Decidable (∀ _ ∈ _, _))

/-- A refresh does not write under the keys of lookups, and a lookup within its time finds that it has changed nothing. -/
def Idle (desk : Desk) : ℤ × Call → Prop
  | (_, .refreshTaxRateCache entries _) => ∀ entry ∈ entries, ∀ key goods, entry.jurisdictionKey ≠ cacheKey key goods
  | (now, .getTaxRate jurisdiction _) => Unchanged t desk now jurisdiction
  | (now, .calculateTax context) => Unchanged t desk now context.jurisdiction
  | (_, .invalidateTaxRateCache) => True

variable {t} {desk : Desk} {now : ℤ} {cache : Cache} {jurisdiction : TaxJurisdiction} {goods : Option DigitalGoodsClass}

theorem consulted_mem {rule : DigitalGoodsTaxRule} (found : consulted t jurisdiction goods = some rule) : rule ∈ t.rules := by
  obtain ⟨goodsClass, -, found⟩ := Option.bind_eq_some_iff.mp found
  exact mem_of_find?_eq_some found

theorem Derived.uses (derived : Derived t cache) (now : ℤ) (jurisdiction : TaxJurisdiction) (goods : Option DigitalGoodsClass) :
    Uses t ((builtIn t jurisdiction).map (·.2)) (Tax.getTaxRate t now cache jurisdiction goods).1 := by
  rcases getTaxRate_cases t now cache jurisdiction goods with ⟨cached, found, -, hit⟩ | ⟨-, answer, -⟩
  · obtain ⟨other, e, same, table, -, answer⟩ := derived _ _ cached found
    refine ⟨consulted t other goods, fun r => consulted_mem, ?_⟩
    rw [hit, ← builtIn_congr same, table, answer]
    rfl
  · refine ⟨consulted t jurisdiction goods, fun r => consulted_mem, ?_⟩
    rw [answer, tableAnswer, Option.map_map]
    rfl

theorem Derived.refresh (derived : Derived t cache) {entries : List TaxRateEntry} {ttlMs : ℤ}
    (apart : ∀ entry ∈ entries, ∀ key goods, entry.jurisdictionKey ≠ cacheKey key goods) :
    Derived t (refreshTaxRateCache now cache entries ttlMs) := by
  intro key goods cached found
  replace found := get_of_cleanRateCache found
  induction entries using List.reverseRecOn with
  | nil => exact derived key goods cached found
  | append_singleton entries entry ih =>
    rw [foldl_append, foldl_cons, foldl_nil] at found
    have other : cacheKey key goods ≠ entry.jurisdictionKey := (apart entry (by simp) key goods).symm
    rw [InsertionMap.get_set_of_ne _ _ other] at found
    exact ih (fun e mem => apart e (by simp [mem])) found

theorem Derived.step (derived : Derived t desk.cache) (call : ℤ × Call) (idle : Idle t desk call) :
    Derived t (step t desk call).cache := by
  obtain ⟨now, call⟩ := call
  cases call with
  | refreshTaxRateCache entries ttlMs => exact derived.refresh idle
  | getTaxRate jurisdiction goods => exact derived.look ⟨now, jurisdiction, goods⟩
  | calculateTax context =>
    have same : (calculateTax t now desk.cache context).2 =
        (getTaxRate t now desk.cache context.jurisdiction (some context.digitalGoodsClass)).2 := by
      unfold calculateTax
      dsimp only
      cases (getTaxRate t now desk.cache context.jurisdiction (some context.digitalGoodsClass)).1 <;> rfl
    show Derived t (calculateTax t now desk.cache context).2
    rw [same]
    exact derived.look ⟨now, context.jurisdiction, some context.digitalGoodsClass⟩
  | invalidateTaxRateCache =>
    intro key goods cached found
    cases found

theorem due_of_unchanged (unchanged : Unchanged t desk now jurisdiction) :
    due t desk now jurisdiction = (builtIn t jurisdiction).map (·.2) := by
  unfold due
  cases found : desk.inForce now (buildJurisdictionKey t jurisdiction) with
  | none => rfl
  | some entry => exact (unchanged entry found).symm

theorem right_of_idle (derived : Derived t desk.cache) (call : ℤ × Call) (idle : Idle t desk call) : Right t desk call := by
  obtain ⟨now, call⟩ := call
  cases call with
  | refreshTaxRateCache entries ttlMs => trivial
  | getTaxRate jurisdiction goods =>
    have uses := derived.uses now jurisdiction goods
    rwa [← due_of_unchanged idle] at uses
  | calculateTax context =>
    have uses := derived.uses now context.jurisdiction (some context.digitalGoodsClass)
    rw [← due_of_unchanged idle] at uses
    exact ⟨_, uses, calculateTax_result now desk.cache context⟩
  | invalidateTaxRateCache => trivial

/-- Where no refresh has anything to change, every lookup uses the entry that it is to use. -/
theorem refreshes_effective (t : Tables) {calls : List (ℤ × Call)} (idle : Throughout (step t) .new (Idle t) calls) :
    Throughout (step t) .new (Right t) calls := by
  intro earlier call later split
  have derived : Derived t (earlier.foldl (step t) .new).cache := by
    have before : Throughout (step t) .new (Idle t) earlier := by
      intro first a rest split'
      exact idle first a (rest ++ call :: later) (by rw [split, split', append_assoc, cons_append])
    refine Throughout.keeps (fun desk => Derived t desk.cache) ?_ (fun desk a derived fine => derived.step a fine) before
    intro key goods cached found
    cases found
  exact right_of_idle derived call (idle earlier call later split)

def california : TaxJurisdiction := ⟨"US", "CA", ""⟩

def californiaEntry : TaxRateEntry := ⟨"US-CA", .sales_tax, 850, "California Sales Tax", 0, 0, true, false, 50000000⟩

def exampleCalls : List (ℤ × Call) :=
  [(0, .refreshTaxRateCache [californiaEntry] 1000), (10, .getTaxRate california none), (2000, .calculateTax exampleContext)]

theorem apart_of_plain {entry : TaxRateEntry} (plain : entry.jurisdictionKey.toList.head? ≠ some 'r') (key : String)
    (goods : Option DigitalGoodsClass) : entry.jurisdictionKey ≠ cacheKey key goods := by
  intro same
  apply plain
  rw [same, cacheKey]
  simp [String.toList_append]

theorem refreshes_exampleCalls : Throughout (step builtInTables) .new (Right builtInTables) exampleCalls := by
  apply refreshes_effective
  refine .cons ?_ (.cons ?_ (.cons ?_ .nil))
  · intro entry member key goods
    rw [mem_singleton.mp member]
    exact apart_of_plain (by decide +kernel) key goods
  · show Unchanged builtInTables _ 10 california
    decide +kernel
  · show Unchanged builtInTables _ 2000 exampleContext.jurisdiction
    decide +kernel

def exampleRefresh : ℤ × Call := (0, .refreshTaxRateCache [{ californiaEntry with rateBps := 900 }] 1000)

theorem not_refreshes_effective : ¬ ∀ (t : Tables) (calls : List (ℤ × Call)), (calls.map Prod.fst).Pairwise (· ≤ ·) →
    Throughout (step t) .new (Right t) calls := by
  intro all
  obtain ⟨rule, -, answer⟩ := all builtInTables [exampleRefresh, (10, .getTaxRate california none)] (by decide)
    [exampleRefresh] (10, .getTaxRate california none) [] rfl
  have forced : due builtInTables (step builtInTables .new exampleRefresh) 10 california =
      some { californiaEntry with rateBps := 900 } := by decide +kernel
  have given : (getTaxRate builtInTables 10 (step builtInTables .new exampleRefresh).cache california none).1 =
      some californiaEntry := by decide +kernel
  rw [foldl_cons, foldl_nil, forced, given] at answer
  have rates := congrArg TaxRateEntry.rateBps (Option.some.inj answer)
  simp [rated, californiaEntry] at rates

end SubTrackr.Tax

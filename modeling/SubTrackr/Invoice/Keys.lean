import SubTrackr.Invoice.Jurisdiction

namespace SubTrackr.Invoices

open List Lib Soroban

/-- A jurisdiction as the calls name it: the parts below the last one that is known are empty. -/
structure Place where
  (country state city : String)
  deriving DecidableEq

def keyParts (place : Place) : List String :=
  if place.city ≠ "" then [place.country, place.state, place.city]
  else if place.state ≠ "" then [place.country, place.state]
  else [place.country]

def Place.Plain (place : Place) : Prop :=
  '-' ∉ place.country.toList ∧ '-' ∉ place.state.toList ∧ '-' ∉ place.city.toList

instance (place : Place) : Decidable place.Plain := inferInstanceAs (Decidable (_ ∧ _))

def Place.Filled (place : Place) : Prop := place.country ≠ "" ∧ (place.city ≠ "" → place.state ≠ "")

instance (place : Place) : Decidable place.Filled := inferInstanceAs (Decidable (_ ∧ _))

def Place.above (place : Place) : List Place := [⟨place.country, place.state, ""⟩, ⟨place.country, "", ""⟩]

def Place.global : Place := ⟨"GLOBAL", "", ""⟩

def Place.key (place : Place) : String := buildJurisdictionKey place.country place.state place.city

def resolved (s : State) (place : Place) : TaxRateEntry :=
  resolveTaxRateEntry s place.country place.state place.city

section Joined

theorem key_joined (place : Place) : place.key = "-".intercalate (keyParts place) := by
  unfold Place.key buildJurisdictionKey keyParts
  split
  · rfl
  · split <;> rfl

theorem intercalate_injective {parts parts' : List String} (nonempty : parts ≠ []) (nonempty' : parts' ≠ [])
    (plain : ∀ part ∈ parts, '-' ∉ part.toList) (plain' : ∀ part ∈ parts', '-' ∉ part.toList)
    (same : "-".intercalate parts = "-".intercalate parts') : parts = parts' := by
  have split (parts : List String) (nonempty : parts ≠ []) (plain : ∀ part ∈ parts, '-' ∉ part.toList) :
      ("-".intercalate parts).toList.splitOn '-' = parts.map String.toList := by
    rw [String.toList_intercalate]
    apply splitOn_intercalate
    · intro part mem
      obtain ⟨text, given, rfl⟩ := mem_map.mp mem
      exact plain text given
    · simpa using nonempty
  have lists := split parts nonempty plain
  rw [same, split parts' nonempty' plain'] at lists
  exact (map_injective_iff.mpr fun _ _ => String.toList_inj.mp) lists.symm

end Joined

section Lookup

variable {place other : Place} {key : String}

theorem mem_lookupKeys (mem : key ∈ lookupKeys other.country other.state other.city) :
    (key = "-".intercalate [other.country, other.state, other.city] ∧ other.city ≠ "") ∨
      (key = "-".intercalate [other.country, other.state] ∧ other.state ≠ "") ∨
      key = "-".intercalate [other.country] ∨ key = "-".intercalate ["GLOBAL"] := by
  simp only [lookupKeys, mem_append, mem_singleton] at mem
  rcases mem with ((city | state) | country) | rest
  · split at city
    · rename_i given
      exact .inl ⟨mem_singleton.mp city, given.1⟩
    · cases city
  · split at state
    · rename_i given
      exact .inr (.inl ⟨mem_singleton.mp state, given.1⟩)
    · cases state
  · split at country
    · exact .inr (.inr (.inl (mem_singleton.mp country)))
    · cases country
  · exact .inr (.inr (.inr rest))

theorem keyParts_ne_nil (place : Place) : keyParts place ≠ [] := by
  unfold keyParts
  split
  · exact cons_ne_nil _ _
  · split <;> exact cons_ne_nil _ _

theorem Place.Plain.parts (plain : place.Plain) : ∀ part ∈ keyParts place, '-' ∉ part.toList := by
  obtain ⟨country, state, city⟩ := plain
  unfold keyParts
  intro part mem
  split at mem
  · simp only [mem_cons, not_mem_nil, or_false] at mem
    rcases mem with rfl | rfl | rfl <;> assumption
  · split at mem
    · simp only [mem_cons, not_mem_nil, or_false] at mem
      rcases mem with rfl | rfl <;> assumption
    · rw [mem_singleton.mp mem]
      exact country

theorem keyParts_eq (country state city : String) :
    (keyParts place = [country, state, city] → place = ⟨country, state, city⟩) ∧
      (keyParts place = [country, state] → place = ⟨country, state, ""⟩) ∧
      (keyParts place = [country] → place = ⟨country, "", ""⟩) := by
  obtain ⟨c, s, t⟩ := place
  unfold keyParts
  by_cases city : t = "" <;> by_cases state : s = "" <;> simp_all

theorem key_looked_up (plain : place.Plain) (plain' : other.Plain)
    (mem : place.key ∈ lookupKeys other.country other.state other.city) :
    place = other ∨ place ∈ other.above ∨ place = .global := by
  obtain ⟨country, state, city⟩ := plain'
  rw [key_joined] at mem
  have parts {found : List String} (nonempty : found ≠ []) (free : ∀ part ∈ found, '-' ∉ part.toList)
      (same : "-".intercalate (keyParts place) = "-".intercalate found) : keyParts place = found :=
    intercalate_injective (keyParts_ne_nil place) nonempty plain.parts free same
  rcases mem_lookupKeys mem with ⟨same, _⟩ | ⟨same, _⟩ | same | same
  · exact .inl ((keyParts_eq ..).1 (parts (cons_ne_nil _ _) (by simp [country, state, city]) same))
  · have found := (keyParts_eq _ _ "").2.1 (parts (cons_ne_nil _ _) (by simp [country, state]) same)
    exact .inr (.inl (by simp [Place.above, found]))
  · have found := (keyParts_eq _ "" "").2.2 (parts (cons_ne_nil _ _) (by simp [country]) same)
    exact .inr (.inl (by simp [Place.above, found]))
  · exact .inr (.inr ((keyParts_eq _ "" "").2.2 (parts (cons_ne_nil _ _) (by decide) same)))

theorem lookupKeys_filled (filled : place.Filled) :
    ∃ rest, lookupKeys place.country place.state place.city = place.key :: rest := by
  obtain ⟨c, s, t⟩ := place
  obtain ⟨country, city⟩ := filled
  unfold lookupKeys Place.key buildJurisdictionKey
  by_cases last : t = "" <;> by_cases middle : s = "" <;> simp_all

end Lookup

def Sets (s : State) (place : Place) (rateBps : Nat) (s' : State) : Prop :=
  ∃ host admin taxType displayName effectiveFrom effectiveUntil appliesToDigitalGoods reverseCharge nexusThreshold,
    setTaxJurisdiction host s admin place.country place.state place.city taxType rateBps displayName effectiveFrom
      effectiveUntil appliesToDigitalGoods reverseCharge nexusThreshold = .ok s'

section Sets

variable {s s' : State} {place : Place} {rateBps : Nat}

theorem Sets.entries (sets : Sets s place rateBps s') : s'.invoiceConfig = s.invoiceConfig ∧
    ∃ entry, entry.rateBps = rateBps ∧ s'.taxRateEntry = put s.taxRateEntry place.key entry := by
  obtain ⟨host, admin, taxType, displayName, effectiveFrom, effectiveUntil, digital, reverse, nexus, run⟩ := sets
  simp only [setTaxJurisdiction, bind_eq_ok, pure_eq_ok] at run
  obtain ⟨_, _, rfl⟩ := run
  refine ⟨?_, ⟨place.key, taxType, rateBps, displayName, effectiveFrom, effectiveUntil, digital, reverse, nexus⟩,
    rfl, ?_⟩
  · split <;> rfl
  · split <;> rfl

/-- The rate of a jurisdiction is read where it is written, and by no jurisdiction but those below it. -/
theorem jurisdictions_apart (sets : Sets s place rateBps s') :
    (∀ other : Place, place.Plain → other.Plain → place ≠ other → place ∉ other.above → place ≠ .global →
      resolved s' other = resolved s other) ∧
    (place.Filled → (resolved s' place).rateBps = rateBps) := by
  obtain ⟨config, entry, rate, entries⟩ := sets.entries
  refine ⟨?_, ?_⟩
  · intro other plain plain' distinct apart notGlobal
    have unread : ∀ key ∈ lookupKeys other.country other.state other.city,
        s'.taxRateEntry key = s.taxRateEntry key := by
      intro key listed
      rw [entries]
      apply put_of_ne
      rintro rfl
      rcases key_looked_up plain plain' listed with same | above | whole
      · exact distinct same
      · exact apart above
      · exact notGlobal whole
    unfold resolved resolveTaxRateEntry
    rw [← head?_filterMap, filterMap_congr unread, head?_filterMap, invoiceConfig, config,
      ← invoiceConfig]
  · intro filled
    obtain ⟨rest, first⟩ := lookupKeys_filled filled
    unfold resolved resolveTaxRateEntry
    rw [first, entries, findSome?_cons, put_self]
    exact rate

end Sets

def setRate (s : State) (place : Place) (rateBps : Nat) : Result State :=
  setTaxJurisdiction (signedBy 30 [⟨1⟩]) s ⟨1⟩ place.country place.state place.city .salesTax rateBps "Sales Tax" 0 0 true
    false 0

theorem setRate_sets {s s' : State} {place : Place} {rateBps : Nat} (run : setRate s place rateBps = .ok s') :
    Sets s place rateBps s' := ⟨_, _, _, _, _, _, _, _, _, run⟩

theorem setRate_read (s : State) (place other : Place) (rateBps read : Nat)
    (found : (setRate s place rateBps).toOption.map (fun s' => (resolved s' other).rateBps) = some read) :
    ∃ s', Sets s place rateBps s' ∧ (resolved s' other).rateBps = read := by
  obtain ⟨s', ran, same⟩ := Option.map_eq_some_iff.mp found
  exact ⟨s', setRate_sets ((toOption_eq_some ..).mp ran), same⟩

def settled : World := trial
  [(10, [⟨1⟩], .initializeInvoice ⟨1⟩),
    (20, [⟨1⟩], .setTaxJurisdiction ⟨1⟩ "US" "" "" .salesTax 700 "Sales Tax" 0 0 true false 0),
    (20, [⟨1⟩], .setTaxJurisdiction ⟨1⟩ "US" "CA" "" .salesTax 725 "Sales Tax" 0 0 true false 0)]

theorem jurisdictions_apart_settled : ∃ s', Sets settled.state ⟨"US", "NY", ""⟩ 400 s' ∧
    resolved s' ⟨"US", "CA", "SF"⟩ = resolved settled.state ⟨"US", "CA", "SF"⟩ ∧
    (resolved s' ⟨"US", "NY", ""⟩).rateBps = 400 := by
  obtain ⟨s', sets, _⟩ := setRate_read settled.state ⟨"US", "NY", ""⟩ ⟨"US", "NY", "NYC"⟩ 400 400 (by decide +kernel)
  have apart := jurisdictions_apart sets
  exact ⟨s', sets, apart.1 ⟨"US", "CA", "SF"⟩ (by decide) (by decide) (by decide) (by decide) (by decide),
    apart.2 (by decide)⟩

/-- The global entry is read for a country without one of its own; a part with the separator in it, and a city without
    its state, are taken for another jurisdiction. -/
theorem jurisdictions_alias : Reachable Ledger.anyTx settled ∧
    (∃ s', Sets settled.state .global 500 s' ∧ (resolved s' ⟨"CH", "", ""⟩).rateBps = 500) ∧
    (∃ s', Sets settled.state ⟨"US-CA", "", ""⟩ 500 s' ∧ (resolved s' ⟨"US", "CA", ""⟩).rateBps = 500) ∧
    (∃ s', Sets settled.state ⟨"US", "", "SF"⟩ 500 s' ∧ (resolved s' ⟨"US", "", "SF"⟩).rateBps = 700) ∧
    ¬ ∀ w, Reachable Ledger.anyTx w → ∀ place rateBps s', Sets w.state place rateBps s' →
      (∀ other, place ≠ other → place ∉ other.above → resolved s' other = resolved w.state other) ∧
        (resolved s' place).rateBps = rateBps := by
  have whole := setRate_read settled.state .global ⟨"CH", "", ""⟩ 500 500 (by decide +kernel)
  refine ⟨trial_reachable _, whole, setRate_read _ _ _ _ _ (by decide +kernel),
    setRate_read _ _ _ _ _ (by decide +kernel), ?_⟩
  intro claimed
  obtain ⟨s', sets, read⟩ := whole
  have same := (claimed settled (trial_reachable _) _ _ _ sets).1 ⟨"CH", "", ""⟩ (by decide) (by decide)
  rw [same] at read
  exact absurd read (by decide +kernel)

end SubTrackr.Invoices

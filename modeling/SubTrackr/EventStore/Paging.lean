import SubTrackr.EventStore.Store
import SubTrackr.Lib.Offset

namespace SubTrackr.EventStore

open List Lib

structure Call where
  store : SubscriptionEventStore
  page : SubscriptionEventPage

structure Reading where
  store : SubscriptionEventStore
  calls : List Call
  cursor : Option ℤ

inductive Action
  | maintain (work : Maintenance)
  | nextPage

section Queries

variable (query : SubscriptionEventQuery)

def Reading.call (r : Reading) (cursor : Option ℤ) : Reading :=
  let page := r.store.query { query with cursor }
  ⟨r.store, r.calls ++ [⟨r.store, page⟩], page.nextCursor⟩

def Reading.firstPage (s : SubscriptionEventStore) : Reading := Reading.call query ⟨s, [], none⟩ none

def Reading.step (r : Reading) : Action → Option Reading
  | .maintain work => some { r with store := work.perform r.store }
  | .nextPage => r.cursor.map fun cursor => r.call query (some cursor)

def Reading.Matched (r : Reading) (key : String × ℕ) : Prop :=
  ∀ call ∈ r.calls, ∃ event ∈ call.store.events, event.key = key ∧ query.passes event

def Reading.returned (r : Reading) : List SubscriptionEvent := r.calls.flatMap fun call => call.page.events

/-- An archiving between two pages leaves the events before the cursor in the list, or none of those after it that
    matched from the first page on. -/
def Reading.Spares (r : Reading) : Action → Prop
  | .maintain (.archiveBefore timestamp now) => ∀ cursor, r.cursor = some cursor →
    (∀ event ∈ (r.store.filtered query.toEventFilter).take cursor.toNat, query.passes (event.archive timestamp now)) ∨
      ∀ event ∈ (r.store.filtered query.toEventFilter).drop cursor.toNat, r.Matched query event.key →
        ¬query.passes (event.archive timestamp now)
  | _ => True

def SubscriptionEventQuery.pageSize : ℕ := (max 1 (query.limit.getD 50)).toNat

end Queries

namespace SubscriptionEventStore

variable {s : SubscriptionEventStore} {query : SubscriptionEventQuery}

def matching (s : SubscriptionEventStore) (filter : EventFilter) : List (String × ℕ) :=
  (s.filtered filter).map SubscriptionEvent.key

theorem matching_nodup (gapless : s.Gapless) (filter : EventFilter) : (s.matching filter).Nodup :=
  gapless.keys_nodup.sublist (filter_sublist.map _)

theorem query_page (s : SubscriptionEventStore) {cursor : Option ℤ} {offset : ℕ} (start : cursor.getD 0 = offset) :
    s.query { query with cursor } =
      { events := ((s.filtered query.toEventFilter).drop offset).take query.pageSize
        nextCursor := if offset + query.pageSize < (s.filtered query.toEventFilter).length
          then some ((offset + query.pageSize : ℕ) : ℤ) else none } := by
  have size : max 1 (query.limit.getD 50) = query.pageSize := by
    unfold SubscriptionEventQuery.pageSize
    omega
  unfold SubscriptionEventStore.query
  dsimp only
  rw [start, size, slice_add]
  congr 1
  simp only [← Int.natCast_add, Int.ofNat_lt]

theorem passes_of_archive {filter : EventFilter} {event : SubscriptionEvent} {timestamp : ℤ} {now : ℕ}
    (passes : filter.passes (event.archive timestamp now)) : filter.passes event := by
  unfold SubscriptionEvent.archive at passes
  split at passes
  · rename_i fresh
    have current : event.archived = false := by
      rw [Bool.and_eq_true, Bool.not_eq_true'] at fresh
      exact fresh.1
    simp only [EventFilter.passes, Bool.and_eq_true, Bool.or_eq_true] at passes ⊢
    obtain ⟨⟨⟨⟨-, id⟩, type⟩, start⟩, stop⟩ := passes
    exact ⟨⟨⟨⟨.inr (by simp [current]), id⟩, type⟩, start⟩, stop⟩
  · exact passes

theorem archiveBefore_matching (s : SubscriptionEventStore) (filter : EventFilter) (timestamp : ℤ) (now : ℕ) :
    (s.archiveBefore timestamp now).2.matching filter =
      ((s.filtered filter).filter fun event => filter.passes (event.archive timestamp now)).map SubscriptionEvent.key := by
  unfold matching filtered
  rw [archiveBefore_events, filter_map, map_map, filter_filter]
  have still : (s.events.filter (filter.passes ∘ fun event => event.archive timestamp now)) =
      s.events.filter fun event => filter.passes (event.archive timestamp now) && filter.passes event := by
    apply filter_congr
    intro event _
    rw [Bool.eq_iff_iff, Bool.and_eq_true]
    exact ⟨fun passes => ⟨passes, passes_of_archive passes⟩, And.left⟩
  rw [still]
  exact map_congr_left fun event _ => event.archive_key timestamp now

theorem append_matching (s : SubscriptionEventStore) (filter : EventFilter) (event : NewEvent) (now : ℕ) :
    (s.append event now).2.matching filter =
      s.matching filter ++ ([(s.append event now).1].filter filter.passes).map SubscriptionEvent.key := by
  unfold matching filtered
  rw [append_events, filter_append, map_append]

end SubscriptionEventStore

namespace Reading

variable {query : SubscriptionEventQuery} {r r' : Reading} {k : String × ℕ}

theorem call_returned (r : Reading) {cursor : Option ℤ} {offset : ℕ} (start : cursor.getD 0 = offset) :
    (r.call query cursor).returned.map SubscriptionEvent.key = r.returned.map SubscriptionEvent.key ++
      ((r.store.matching query.toEventFilter).drop offset).take query.pageSize := by
  unfold call returned SubscriptionEventStore.matching
  rw [flatMap_append, map_append, flatMap_singleton, SubscriptionEventStore.query_page r.store start,
    map_take, map_drop]

theorem call_matched (r : Reading) (cursor : Option ℤ) :
    (r.call query cursor).Matched query k ↔ r.Matched query k ∧ k ∈ r.store.matching query.toEventFilter := by
  unfold Matched call
  rw [forall_mem_append, forall_mem_singleton]
  apply and_congr_right
  rintro -
  simp only [SubscriptionEventStore.matching, SubscriptionEventStore.filtered, mem_map, mem_filter]
  constructor
  · rintro ⟨event, mem, known, passes⟩
    exact ⟨event, ⟨mem, passes⟩, known⟩
  · rintro ⟨event, ⟨mem, passes⟩, known⟩
    exact ⟨event, mem, known, passes⟩

structure Sound (query : SubscriptionEventQuery) (r : Reading) : Prop where
  gapless : r.store.Gapless
  started : r.calls ≠ []
  grown : ∀ call ∈ r.calls, ∀ k ∈ call.store.keys, k ∈ r.store.keys
  paged : ∀ call ∈ r.calls, ∀ event ∈ call.page.events, event ∈ call.store.events
  reading : ∀ cursor, r.cursor = some cursor → ∃ offset : ℕ, cursor = offset ∧
    Offset.Kept (r.Matched query) (r.store.matching query.toEventFilter) offset (r.returned.map SubscriptionEvent.key)
  read : r.cursor = none → (r.returned.map SubscriptionEvent.key).Nodup ∧
    ∀ k, r.Matched query k → k ∈ r.returned.map SubscriptionEvent.key

theorem Sound.returned_known (sound : Sound query r) (done : k ∈ r.returned.map SubscriptionEvent.key) :
    k ∈ r.store.keys := by
  obtain ⟨event, mem, rfl⟩ := mem_map.mp done
  obtain ⟨call, made, mem⟩ := mem_flatMap.mp mem
  exact sound.grown call made _ (mem_map_of_mem (sound.paged call made event mem))

theorem Sound.matched_known (sound : Sound query r) (still : r.Matched query k) : k ∈ r.store.keys := by
  obtain ⟨call, made⟩ := exists_mem_of_ne_nil _ sound.started
  obtain ⟨event, mem, rfl, -⟩ := still call made
  exact sound.grown call made _ (mem_map_of_mem mem)

theorem Sound.of_call {cursor : Option ℤ} {offset : ℕ} (gapless : r.store.Gapless)
    (grown : ∀ call ∈ r.calls, ∀ k ∈ call.store.keys, k ∈ r.store.keys)
    (paged : ∀ call ∈ r.calls, ∀ event ∈ call.page.events, event ∈ call.store.events) (start : cursor.getD 0 = offset)
    (kept : Offset.Kept (r.Matched query) (r.store.matching query.toEventFilter) offset
      (r.returned.map SubscriptionEvent.key)) :
    Sound query (r.call query cursor) := by
  have page : r.store.query { query with cursor } = _ := SubscriptionEventStore.query_page r.store start
  have nodup := SubscriptionEventStore.matching_nodup gapless query.toEventFilter
  have further := (kept.page nodup query.pageSize).weaken fun k still => ((call_matched r cursor).mp still).1
  have length : (r.store.matching query.toEventFilter).length = (r.store.filtered query.toEventFilter).length :=
    length_map ..
  constructor
  · exact gapless
  · exact append_ne_nil_of_right_ne_nil _ (cons_ne_nil _ _)
  · intro call made
    rcases mem_append.mp made with made | made
    · exact grown call made
    · rw [mem_singleton.mp made]
      exact fun k mem => mem
  · intro call made
    rcases mem_append.mp made with made | made
    · exact paged call made
    · rw [mem_singleton.mp made]
      intro event mem
      dsimp only at mem ⊢
      rw [page] at mem
      exact (mem_filter.mp (mem_of_mem_drop (mem_of_mem_take mem))).1
  · intro next more
    change (r.store.query { query with cursor }).nextCursor = some next at more
    rw [page] at more
    dsimp only at more
    split at more
    · refine ⟨offset + query.pageSize, (Option.some.inj more).symm, ?_⟩
      rw [call_returned r start]
      exact further
    · cases more
  · intro last
    change (r.store.query { query with cursor }).nextCursor = none at last
    rw [page] at last
    dsimp only at last
    split at last
    · cases last
    · rename_i beyond
      rw [call_returned r start]
      refine ⟨further.once, fun k still => ?_⟩
      exact further.complete (by omega) ((call_matched r cursor).mp still).2 still

theorem Sound.firstPage {s : SubscriptionEventStore} (gapless : s.Gapless) : Sound query (firstPage query s) :=
  .of_call gapless (fun _ none => absurd none not_mem_nil) (fun _ none => absurd none not_mem_nil) rfl (.start _ _)

theorem Sound.archived {offset : ℕ} {timestamp : ℤ} {now : ℕ} (sound : Sound query r)
    (kept : Offset.Kept (r.Matched query) (r.store.matching query.toEventFilter) offset
      (r.returned.map SubscriptionEvent.key))
    (spares : (∀ event ∈ (r.store.filtered query.toEventFilter).take offset, query.passes (event.archive timestamp now)) ∨
      ∀ event ∈ (r.store.filtered query.toEventFilter).drop offset, r.Matched query event.key →
        ¬query.passes (event.archive timestamp now)) :
    Offset.Kept (r.Matched query) ((r.store.archiveBefore timestamp now).2.matching query.toEventFilter) offset
      (r.returned.map SubscriptionEvent.key) := by
  rw [SubscriptionEventStore.archiveBefore_matching]
  refine kept.retain (SubscriptionEventStore.matching_nodup sound.gapless _) (filter_sublist.map _) ?_
  unfold SubscriptionEventStore.matching
  rw [← map_take, ← map_drop]
  rcases spares with early | none
  · left
    intro k member
    obtain ⟨event, before, rfl⟩ := mem_map.mp member
    exact mem_map_of_mem (mem_filter.mpr ⟨mem_of_mem_take before, early event before⟩)
  · right
    intro k member still left
    obtain ⟨event, late, rfl⟩ := mem_map.mp member
    obtain ⟨other, kept, same⟩ := mem_map.mp left
    obtain ⟨mem, passes⟩ := mem_filter.mp kept
    have one : other = event :=
      inj_on_of_nodup_map sound.gapless.keys_nodup (mem_filter.mp mem).1
        (mem_filter.mp (mem_of_mem_drop late)).1 same
    rw [one] at passes
    exact none event late still passes

theorem Sound.maintained (sound : Sound query r) (work : Maintenance) (spares : r.Spares query (.maintain work)) :
    Sound query { r with store := work.perform r.store } := by
  refine ⟨sound.gapless.perform work, sound.started, fun call made k mem => ?_, sound.paged, fun cursor more => ?_, sound.read⟩
  · have known := sound.grown call made k mem
    cases work with
    | append event now =>
      change k ∈ (r.store.append event now).2.events.map SubscriptionEvent.key
      rw [SubscriptionEventStore.append_events, map_append]
      exact mem_append_left _ known
    | archiveBefore timestamp now =>
      change k ∈ (r.store.archiveBefore timestamp now).2.keys
      rw [SubscriptionEventStore.archiveBefore_keys]
      exact known
  · obtain ⟨offset, rfl, kept⟩ := sound.reading cursor more
    refine ⟨offset, rfl, ?_⟩
    cases work with
    | append event now =>
      have fresh := sound.gapless.append_fresh event now
      have only : ∀ k ∈ ([(r.store.append event now).1].filter query.passes).map SubscriptionEvent.key,
          k = (r.store.append event now).1.key := by
        intro k mem
        obtain ⟨added, passed, rfl⟩ := mem_map.mp mem
        rw [mem_singleton.mp (mem_filter.mp passed).1]
      change Offset.Kept (r.Matched query) ((r.store.append event now).2.matching _) offset (r.returned.map _)
      rw [SubscriptionEventStore.append_matching]
      refine kept.append (fun k mem done => ?_) (fun k mem still => ?_)
      · rw [only k mem] at done
        exact fresh (sound.returned_known done)
      · rw [only k mem] at still
        exact fresh (sound.matched_known still)
    | archiveBefore timestamp now =>
      exact sound.archived kept (spares offset more)

theorem step_nextPage {cursor : ℤ} (more : r.cursor = some cursor) :
    r.step query .nextPage = some (r.call query (some cursor)) := by
  unfold step
  rw [more]
  rfl

theorem Sound.step (sound : Sound query r) {action : Action} (spares : r.Spares query action)
    (stepped : r.step query action = some r') : Sound query r' := by
  cases action with
  | maintain work =>
    cases stepped
    exact sound.maintained work spares
  | nextPage =>
    obtain ⟨cursor, more, rfl⟩ := Option.map_eq_some_iff.mp stepped
    obtain ⟨offset, rfl, kept⟩ := sound.reading cursor more
    exact .of_call sound.gapless sound.grown sound.paged rfl kept

theorem Sound.of_runs {s : SubscriptionEventStore} (gapless : s.Gapless)
    (run : Runs (Reading.step query) (Spares query) (Reading.firstPage query s) r) : Sound query r :=
  run.keeps (Sound query) (.firstPage gapless) fun _ _ _ sound spares stepped => sound.step spares stepped

theorem Sound.count (sound : Sound query r) (last : r.cursor = none) (still : r.Matched query k) :
    (r.returned.map SubscriptionEvent.key).count k = 1 := by
  obtain ⟨once, all⟩ := sound.read last
  exact count_eq_one_of_mem once (all k still)

end Reading

/-- A store that was built by appending and archiving has for every subscription the sequences 1 to n, and archiving
    changes neither a reconstructed state nor a replay, but for the marks; and where every archiving between two pages
    spares the events before the cursor, or leaves nothing to read, a reader who follows the cursors to the end gets every
    event that matched at all queries once. -/
theorem event_store_sound {s : SubscriptionEventStore} (reached : Runs maintain anyAction ∅ s) :
    (∀ id, (s.eventsOf id).map SubscriptionEvent.sequence = List.range' 1 (s.eventsOf id).length) ∧
    (∀ id, id ≠ "" → s.history id = (s.eventsOf id).take MAX_SAFE_INTEGER.toNat) ∧
    (∀ id timestamp now, (s.archiveBefore timestamp now).2.reconstruct id = s.reconstruct id ∧
      ∀ (σ : Type) (handler : σ → SubscriptionEvent → σ) (state : σ),
        (s.archiveBefore timestamp now).2.replay id (fun state event => handler state event.unmarked) state =
          s.replay id (fun state event => handler state event.unmarked) state) ∧
    ∀ (query : SubscriptionEventQuery) (r : Reading),
      Runs (Reading.step query) (Reading.Spares query) (Reading.firstPage query s) r → r.cursor = none →
        ∀ key, r.Matched query key → (r.returned.map SubscriptionEvent.key).count key = 1 := by
  have gapless := SubscriptionEventStore.Gapless.of_runs reached
  refine ⟨fun id => ?_, fun id named => gapless.history named, fun id timestamp now => ⟨?_, fun σ handler state => ?_⟩,
    fun query r run last key still => ?_⟩
  · have length := congrArg List.length (gapless id)
    rw [length_map, length_range'] at length
    rw [gapless, length]
  · exact s.archiveBefore_reconstruct timestamp now id
  · exact s.archiveBefore_replay timestamp now id handler state
  · exact (Reading.Sound.of_runs gapless run).count last still

section Renewals

instance (query : SubscriptionEventQuery) (r : Reading) (key : String × ℕ) : Decidable (r.Matched query key) :=
  inferInstanceAs (Decidable (∀ call ∈ r.calls, ∃ event ∈ call.store.events, event.key = key ∧ query.passes event))

def renewals (times : List ℤ) : SubscriptionEventStore :=
  (times.map fun time => Maintenance.append ⟨"sub_1", .renewed, ∅, some time, none, none⟩ 1000).foldl Maintenance.perform ∅

theorem renewals_reached (times : List ℤ) : Runs maintain anyAction ∅ (renewals times) := by
  have appended (works : List Maintenance) (s : SubscriptionEventStore) :
      Runs maintain anyAction s (works.foldl Maintenance.perform s) := by
    induction works generalizing s with
    | nil => exact .refl _
    | cons work works ih => exact ((Runs.refl s).next work trivial rfl).trans (ih _)
  exact appended _ ∅

def oneByOne : SubscriptionEventQuery := ⟨⟨none, none, none, none, false⟩, some 1, none⟩

def spared : Reading :=
  let first := Reading.firstPage oneByOne (renewals [5, 1, 9])
  { first with store := (Maintenance.archiveBefore 2 1000).perform first.store }

theorem event_store_sound_spared : ((spared.call oneByOne (some 1)).returned.map SubscriptionEvent.key).count ("sub_1", 3) = 1 := by
  have first : spared.cursor = some 1 := by decide +kernel
  refine (event_store_sound (renewals_reached [5, 1, 9])).2.2.2 oneByOne _ ?_ (by decide +kernel) _ (by decide +kernel)
  refine ((Runs.refl _).next (.maintain (.archiveBefore 2 1000)) ?_ rfl).next .nextPage trivial ?_
  · rintro cursor more
    obtain rfl : (1 : ℤ) = cursor := Option.some.inj (first.symm.trans more)
    exact .inl (by decide +kernel)
  · exact Reading.step_nextPage first

theorem not_event_store_sound : Runs maintain anyAction ∅ (renewals [1, 5]) ∧
    ∃ r, Runs (Reading.step oneByOne) anyAction (Reading.firstPage oneByOne (renewals [1, 5])) r ∧ r.cursor = none ∧
      r.Matched oneByOne ("sub_1", 2) ∧ (r.returned.map SubscriptionEvent.key).count ("sub_1", 2) = 0 :=
  ⟨renewals_reached [1, 5], Runs.exists_of_foldlM [.maintain (.archiveBefore 2 1000), .nextPage] (by decide +kernel)⟩

end Renewals

end SubTrackr.EventStore

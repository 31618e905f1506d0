import SubTrackr.Indexer.Passes

namespace SubTrackr.Indexer

open List Lib

structure Chain where
  block : ℤ → Block
  events : ℤ → List BlockEvent
  number : ∀ n, (block n).number = n
  placed : ∀ n, ∀ e ∈ events n, e.blockNumber = n
  distinct : ∀ n, ((events n).map BlockEvent.key).Nodup

def Follows (chain : Chain) (answers : Answers) : Prop :=
  ∀ n k block events, answers.attempt n k = .found block events → block = chain.block n ∧ events = chain.events n

/-- One of the attempts at each block that has events finds it, and those before end with an error message. -/
def Complete (config : IndexerConfig) (chain : Chain) (answers : Answers) (first last : ℤ) : Prop :=
  ∀ n ∈ blockNumbers first last, chain.events n ≠ [] → ∃ k ≤ config.maxRetries,
    answers.attempt n k = .found (chain.block n) (chain.events n) ∧
      ∀ j < k, (process n (answers.attempt n j)).failed = true

def handedOver (config : IndexerConfig) (answers : Answers) (first last : ℤ) : List Delivery :=
  deliveries (tasks config answers (processRange answers first last))

/-- Either the first call of `onEvents` fails, or none does and no block is given up. -/
def Delivers (config : IndexerConfig) (chain : Chain) (answers : Answers) (s : BlockIndexer) : Prop :=
  ∀ last, batchTo config answers s = some last →
    (handedOver config answers s.nextBlock last ≠ [] ∧ answers.accepts 0 = false) ∨
      (∀ i < (handedOver config answers s.nextBlock last).length, answers.accepts i = true) ∧
        Complete config chain answers s.nextBlock last

section Unique

theorem unique_of_nodup {seen : List (ℤ × String × ℕ)} {es : List BlockEvent} (nodup : (es.map BlockEvent.key).Nodup)
    (new : ∀ e ∈ es, e.key ∉ seen) : unique seen es = es := by
  induction es generalizing seen with
  | nil => rfl
  | cons e es ih =>
    rw [map_cons, nodup_cons] at nodup
    unfold unique
    rw [if_neg (new e (.head _)), ih nodup.2]
    intro e' mem old
    rcases mem_cons.mp old with same | old
    · exact nodup.1 (mem_map.mpr ⟨e', mem, same⟩)
    · exact new e' (mem_cons_of_mem _ mem) old

end Unique

section Attempts

variable {config : IndexerConfig} {chain : Chain} {answers : Answers} {n first last : ℤ} {result : WorkerResult}

theorem firstGood_eq_some {attempt remaining : ℕ} (good : firstGood answers n attempt remaining = some result) :
    ∃ k, result = process n (answers.attempt n k) := by
  induction remaining generalizing attempt with
  | zero => cases good
  | succ remaining ih =>
    unfold firstGood at good
    dsimp only at good
    split at good
    · exact ih good
    · cases good
      exact ⟨attempt, rfl⟩

theorem firstGood_of_found {attempt remaining k : ℕ} (from_first : attempt ≤ k) (within : k < attempt + remaining)
    (good : (process n (answers.attempt n k)).failed = false)
    (before : ∀ j < k, (process n (answers.attempt n j)).failed = true) :
    firstGood answers n attempt remaining = some (process n (answers.attempt n k)) := by
  induction remaining generalizing attempt with
  | zero => omega
  | succ remaining ih =>
    unfold firstGood
    dsimp only
    rcases Nat.eq_or_lt_of_le from_first with rfl | later
    · rw [good]
      rfl
    · rw [before attempt later, if_pos rfl]
      exact ih later (by omega)

theorem Follows.process (follows : Follows chain answers) (n : ℤ) (k : ℕ) :
    process n (answers.attempt n k) = ⟨n, (chain.block n).hash, chain.events n, none⟩ ∨
      (process n (answers.attempt n k)).blockNumber = n ∧ (process n (answers.attempt n k)).blockHash = "" ∧
        (process n (answers.attempt n k)).events = [] := by
  cases attempted : answers.attempt n k with
  | notFound => exact .inr ⟨rfl, rfl, rfl⟩
  | failed message => exact .inr ⟨rfl, rfl, rfl⟩
  | found block events =>
    obtain ⟨rfl, rfl⟩ := follows n k block events attempted
    left
    rw [Indexer.process, chain.number]

theorem Follows.settled (follows : Follows chain answers) (known : settled config answers n = some result) :
    result = ⟨n, (chain.block n).hash, chain.events n, none⟩ ∨
      result.blockNumber = n ∧ result.blockHash = "" ∧ result.events = [] := by
  obtain ⟨k, rfl⟩ := firstGood_eq_some known
  exact follows.process n k

theorem Complete.settled (complete : Complete config chain answers first last) (mem : n ∈ blockNumbers first last)
    (given : chain.events n ≠ []) :
    settled config answers n = some ⟨n, (chain.block n).hash, chain.events n, none⟩ := by
  obtain ⟨k, within, found, before⟩ := complete n mem given
  have good : (Indexer.process n (answers.attempt n k)).failed = false := by rw [found]; rfl
  have settled := firstGood_of_found (Nat.zero_le k) (show k < 0 + (config.maxRetries + 1) by omega) good before
  rw [found, Indexer.process, chain.number] at settled
  exact settled

end Attempts

section Events

variable {config : IndexerConfig} {chain : Chain} {answers : Answers} {first last : ℤ}

theorem blockNumbers_nodup : (blockNumbers first last).Nodup := by
  apply List.Nodup.map _ nodup_range
  intro i j same
  simpa using same

theorem Chain.keys_nodup (chain : Chain) {ns : List ℤ} (nodup : ns.Nodup) :
    ((ns.flatMap chain.events).map BlockEvent.key).Nodup := by
  rw [map_flatMap, nodup_flatMap]
  refine ⟨fun n _ => chain.distinct n, nodup.imp ?_⟩
  intro n m different key left right
  obtain ⟨e, mem, rfl⟩ := mem_map.mp left
  obtain ⟨e', mem', same⟩ := mem_map.mp right
  have numbers : e'.blockNumber = e.blockNumber := congrArg Prod.fst same
  rw [chain.placed n e mem, chain.placed m e' mem'] at numbers
  exact different numbers.symm

def eventsOf (config : IndexerConfig) (answers : Answers) (n : ℤ) : List BlockEvent :=
  ((settled config answers n).map (·.events)).getD []

theorem flatMap_settled (ns : List ℤ) :
    (ns.filterMap (settled config answers)).flatMap (·.events) = ns.flatMap (eventsOf config answers) := by
  induction ns with
  | nil => rfl
  | cons n ns ih =>
    rw [filterMap_cons, flatMap_cons, ← ih, eventsOf]
    cases settled config answers n <;> rfl

theorem Follows.eventsOf (follows : Follows chain answers) (n : ℤ) :
    (eventsOf config answers n).Sublist (chain.events n) := by
  unfold Indexer.eventsOf
  cases known : Indexer.settled config answers n with
  | none => exact nil_sublist _
  | some result =>
    rcases follows.settled known with rfl | ⟨-, -, empty⟩
    · exact .refl _
    · rw [Option.map_some, Option.getD_some, empty]
      exact nil_sublist _

theorem Follows.delivered (follows : Follows chain answers) :
    ((handedOver config answers first last).flatMap (·.events)).Perm
      ((blockNumbers first last).flatMap (Indexer.eventsOf config answers)) := by
  have good_events : ((goodResults config answers first last).flatMap (·.events)).Sublist
      ((blockNumbers first last).flatMap chain.events) := by
    unfold goodResults
    rw [flatMap_settled]
    exact (List.Sublist.flatMap_right _ fun n _ => follows.eventsOf n).trans (filter_sublist.flatMap _)
  have nodup := ((good_events.map BlockEvent.key).nodup (chain.keys_nodup blockNumbers_nodup))
  rw [handedOver, deliveries_events, unique_of_nodup nodup (fun _ _ => not_mem_nil), ← flatMap_append,
    ← flatMap_settled]
  exact (perm_append_comm.trans (results_perm config answers first last)).flatMap_right _

theorem Complete.eventsOf (complete : Complete config chain answers first last) (follows : Follows chain answers) :
    (blockNumbers first last).flatMap (Indexer.eventsOf config answers) = (blockNumbers first last).flatMap chain.events := by
  apply flatMap_congr
  intro n mem
  by_cases given : chain.events n = []
  · have nothing : (Indexer.eventsOf config answers n).Sublist (chain.events n) := follows.eventsOf n
    rw [given, sublist_nil] at nothing
    rw [nothing, given]
  · rw [Indexer.eventsOf, complete.settled mem given]
    rfl

end Events

section Runs

variable {config : IndexerConfig} {chain : Chain} {answers : Answers} {first : ℤ} {s : BlockIndexer}

structure Exact (chain : Chain) (first : ℤ) (s : BlockIndexer) : Prop where
  forward : first ≤ s.nextBlock
  delivered : (s.delivered.flatMap (·.events)).Perm ((blockNumbers first (s.nextBlock - 1)).flatMap chain.events)
  recorded : ∀ n hash, s.indexedHashes n = some hash → hash = "" ∨ hash = (chain.block n).hash
  safe : ∀ cp ∈ s.checkpoints, cp.safeBlock < s.nextBlock

section

variable (exact : Exact chain first s) (follows : Follows chain answers)

include exact follows

theorem Exact.detectReorg (from' last : ℤ) : detectReorg s (processRange answers from' last) = none := by
  unfold Indexer.detectReorg processRange
  rw [find?_eq_none]
  intro result mem
  obtain ⟨n, -, rfl⟩ := mem_map.mp mem
  rcases follows.process n 0 with found | ⟨-, empty, -⟩
  · rw [found]
    cases known : s.indexedHashes n with
    | none => simp [conflicts, known]
    | some hash => rcases exact.recorded n hash known with rfl | rfl <;> simp [conflicts, known]
  · simp [conflicts, empty]

theorem Exact.recordAll {from' last : ℤ} {done : List Task}
    (part : done <+: tasks config answers (processRange answers from' last)) (n : ℤ) (hash : String)
    (known : recordAll done s.indexedHashes n = some hash) : hash = "" ∨ hash = (chain.block n).hash := by
  rcases recordAll_eq_some known with before | ⟨result, mem, rfl, rfl⟩
  · exact exact.recorded n hash before
  · obtain ⟨m, -, settled⟩ := record_mem_tasks.mp (part.subset mem)
    rcases follows.settled settled with rfl | ⟨-, empty, -⟩
    · exact .inr rfl
    · exact .inl empty

theorem poll_exact
    (delivers : Delivers config chain answers s) : Exact chain first (poll config answers s).1 := by
  rcases poll_cases config answers s with ⟨-, idle⟩ | ⟨last, far, pass⟩
  · rw [idle]
    exact exact
  have clean := exact.detectReorg follows s.nextBlock last
  have forward := batchTo_ge far
  have allowed := delivers last far
  rcases pass with ⟨result, detected, -⟩ | ⟨-, pass⟩
  · rw [clean] at detected
    cases detected
  rcases pass with ⟨s', run, polled⟩ | ⟨s', run, polled⟩
  · obtain ⟨rfl, accepted⟩ := perform_ok run
    have complete : Complete config chain answers s.nextBlock last := by
      rcases allowed with ⟨handed, fails⟩ | ⟨-, complete⟩
      · have first := accepted 0 (length_pos_iff.mpr handed)
        exact absurd (fails.symm.trans first) (by decide)
      · exact complete
    rw [polled]
    refine ⟨by change first ≤ last + 1; have := exact.forward; omega, ?_, ?_, ?_⟩
    · change ((s.delivered ++ handedOver config answers s.nextBlock last).flatMap (·.events)).Perm
        ((blockNumbers first (last + 1 - 1)).flatMap chain.events)
      rw [flatMap_append, Int.add_sub_cancel, blockNumbers_split exact.forward forward, flatMap_append,
        ← complete.eventsOf follows]
      exact exact.delivered.append follows.delivered
    · exact exact.recordAll follows (prefix_refl _)
    · intro cp saved
      change cp.safeBlock < last + 1
      rcases mem_append.mp saved with before | now
      · have := exact.safe cp before
        omega
      · obtain ⟨result, mem, same⟩ := checkpoint_of_mem now
        obtain ⟨n, known, rfl⟩ := mem_map.mp mem
        have bounded := (mem_blockNumbers.mp known).2
        have number : (process n (answers.attempt n 0)).blockNumber = n := by
          rcases follows.process n 0 with found | ⟨numbered, -⟩
          · rw [found]
          · exact numbered
        omega
  · have performed := perform_cases (s := { s with calls := 0 }) rfl (allowed.imp_right fun accepted => by
      intro i bounded
      rw [Nat.zero_add]
      exact accepted.1 i bounded)
    rw [run] at performed
    rcases performed with ⟨through, -⟩ | ⟨done, calls, part, nothing, same⟩
    · cases through
    · cases same
      rw [polled]
      refine ⟨exact.forward, ?_, exact.recordAll follows part, exact.safe⟩
      change ((s.delivered ++ deliveries done).flatMap (·.events)).Perm _
      rw [nothing, append_nil]
      exact exact.delivered

end

theorem start_fresh (config : IndexerConfig) (startBlock : ℤ) (cp : Option IndexerCheckpoint) (cpBlock : Option Block) :
    (start config startBlock cp cpBlock).indexedHashes = (fun _ => none) ∧
      (start config startBlock cp cpBlock).delivered = [] ∧ (start config startBlock cp cpBlock).checkpoints = [] := by
  unfold start
  split
  · exact ⟨rfl, rfl, rfl⟩
  · dsimp only
    split <;> exact ⟨rfl, rfl, rfl⟩

theorem start_exact (config : IndexerConfig) (startBlock : ℤ) (cp : Option IndexerCheckpoint) (cpBlock : Option Block) :
    Exact chain (start config startBlock cp cpBlock).nextBlock (start config startBlock cp cpBlock) := by
  obtain ⟨hashes, delivered, checkpoints⟩ := start_fresh config startBlock cp cpBlock
  have empty : blockNumbers (start config startBlock cp cpBlock).nextBlock
      ((start config startBlock cp cpBlock).nextBlock - 1) = [] := by
    apply eq_nil_iff_forall_not_mem.mpr
    intro m mem
    have := mem_blockNumbers.mp mem
    omega
  refine ⟨le_rfl, ?_, ?_, ?_⟩
  · rw [delivered, empty]
    exact .refl _
  · intro n hash known
    rw [hashes] at known
    cases known
  · intro cp saved
    rw [checkpoints] at saved
    cases saved

theorem Polled.exact {s₀ : BlockIndexer} (initial : Exact chain first s₀)
    (run : Polled config (fun answers s => Follows chain answers ∧ Delivers config chain answers s) s₀ s) :
    Exact chain first s := by
  induction run with
  | start => exact initial
  | poll answers _ permitted ih => exact poll_exact ih permitted.1 permitted.2

theorem Exact.count_eq_one (exact : Exact chain first s) {cp : IndexerCheckpoint} (saved : cp ∈ s.checkpoints) {n : ℤ}
    (above : first ≤ n) (below : n ≤ cp.safeBlock) {e : BlockEvent} (mem : e ∈ chain.events n) :
    (s.delivered.flatMap (·.events)).count e = 1 := by
  have behind := exact.safe cp saved
  rw [exact.delivered.count_eq]
  apply count_eq_one_of_mem
  · exact (chain.keys_nodup blockNumbers_nodup).of_map _
  · exact mem_flatMap.mpr ⟨n, mem_blockNumbers.mpr (by omega), mem⟩

/-- Whenever a checkpoint is saved, the events of the blocks up to it are handed over exactly once. -/
theorem checkpoint_delivered {startBlock : ℤ} {checkpoint : Option IndexerCheckpoint} {cpBlock : Option Block}
    (run : Polled config (fun answers s => Follows chain answers ∧ Delivers config chain answers s)
      (start config startBlock checkpoint cpBlock) s)
    {cp : IndexerCheckpoint} (saved : cp ∈ s.checkpoints) {n : ℤ}
    (above : (start config startBlock checkpoint cpBlock).nextBlock ≤ n) (below : n ≤ cp.safeBlock) {e : BlockEvent}
    (listed : e ∈ chain.events n) : (s.delivered.flatMap (·.events)).count e = 1 :=
  (run.exact (start_exact ..)).count_eq_one saved above below listed

end Runs

section Sample

def oneEach : Chain where
  block n := ⟨n, "0x1", "0x0"⟩
  events n := [⟨n, "0xa", 0, "charged"⟩]
  number _ := rfl
  placed n e listed := by rw [mem_singleton.mp listed]
  distinct _ := nodup_singleton _

def sampleConfig : IndexerConfig := ⟨2, 0, 3⟩

def answersFrom (found : ℕ) (accepts : ℕ → Bool) : Answers where
  tip := some 1
  attempt n k := if n = 0 ∧ k < found then .failed "timeout" else .found (oneEach.block n) (oneEach.events n)
  accepts := accepts

theorem answersFrom_follows (found : ℕ) (accepts : ℕ → Bool) : Follows oneEach (answersFrom found accepts) := by
  intro n k block events attempted
  change (if n = 0 ∧ k < found then Attempt.failed "timeout" else _) = _ at attempted
  split at attempted
  · cases attempted
  · cases attempted
    exact ⟨rfl, rfl⟩

theorem answersFrom_complete {found : ℕ} (within : found ≤ 3) (accepts : ℕ → Bool) :
    Complete sampleConfig oneEach (answersFrom found accepts) 0 1 := by
  intro n _ _
  refine ⟨if n = 0 then found else 0, ?_, ?_, ?_⟩
  · split
    · exact within
    · exact Nat.zero_le _
  · apply if_neg
    rintro ⟨zero, before⟩
    rw [if_pos zero] at before
    exact lt_irrefl _ before
  · intro j before
    split at before
    · rename_i zero
      change (process n (if n = 0 ∧ j < found then Attempt.failed "timeout" else _)).failed = true
      rw [if_pos ⟨zero, before⟩]
      rfl
    · exact absurd before (Nat.not_lt_zero j)

theorem answersFrom_delivers {s : BlockIndexer} (next : s.nextBlock = 0) (accepted : Bool) :
    Delivers sampleConfig oneEach (answersFrom 1 fun _ => accepted) s := by
  intro last far
  have range : last = 1 := by
    simp [batchTo, answersFrom, sampleConfig, next] at far
    exact far.symm
  rw [next, range]
  cases accepted with
  | false => exact .inl ⟨by decide +kernel, rfl⟩
  | true => exact .inr ⟨fun _ _ => rfl, answersFrom_complete (by decide) _⟩

theorem checkpoint_delivered_retried : let started := start sampleConfig 0 none none
    let refused := (poll sampleConfig (answersFrom 1 fun _ => false) started).1
    let indexed := (poll sampleConfig (answersFrom 1 fun _ => true) refused).1
    (indexed.delivered.flatMap (·.events)).count ⟨0, "0xa", 0, "charged"⟩ = 1 := by
  intro started refused indexed
  have run : Polled sampleConfig (fun answers s => Follows oneEach answers ∧ Delivers sampleConfig oneEach answers s)
      started indexed :=
    .poll _ (.poll _ .start ⟨answersFrom_follows 1 _, answersFrom_delivers rfl false⟩)
      ⟨answersFrom_follows 1 _, answersFrom_delivers (by decide +kernel) true⟩
  have saved : ⟨1, "0x1"⟩ ∈ indexed.checkpoints := by decide +kernel
  exact checkpoint_delivered run saved (show (0 : ℤ) ≤ 0 from le_rfl) (by decide) (.head _)

theorem checkpoint_not_delivered : ¬ ∀ (config : IndexerConfig) (chain : Chain) (startBlock : ℤ) (s : BlockIndexer),
      Polled config (fun answers _ => Follows chain answers) (start config startBlock none none) s →
        ∀ cp ∈ s.checkpoints, ∀ n, startBlock ≤ n → n ≤ cp.safeBlock → ∀ e ∈ chain.events n,
          (s.delivered.flatMap (·.events)).count e = 1 := by
  intro exactly
  have run : Polled sampleConfig (fun answers _ => Follows oneEach answers) (start sampleConfig 0 none none)
      (poll sampleConfig (answersFrom 4 fun _ => true) (start sampleConfig 0 none none)).1 :=
    .poll _ .start (answersFrom_follows 4 _)
  have once := exactly _ _ 0 _ run ⟨1, "0x1"⟩ (by decide +kernel) 0 le_rfl (by decide) ⟨0, "0xa", 0, "charged"⟩ (.head _)
  exact absurd once (by decide +kernel)

end Sample

end SubTrackr.Indexer

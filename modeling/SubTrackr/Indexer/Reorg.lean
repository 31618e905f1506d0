import SubTrackr.Indexer.Delivery

namespace SubTrackr.Indexer

open List Lib

def Numbered (answers : Answers) : Prop :=
  ∀ n k block events, answers.attempt n k = .found block events → block.number = n

def obtainFrom (answers : Answers) (n : ℤ) : (attempt remaining : ℕ) → Option Block
  | _, 0 => none
  | attempt, remaining + 1 =>
    match answers.attempt n attempt with
    | .found block _ => some block
    | .notFound => obtainFrom answers n (attempt + 1) remaining
    | .failed message => if message ≠ "" then obtainFrom answers n (attempt + 1) remaining else none

def obtained (config : IndexerConfig) (answers : Answers) (n : ℤ) : Option Block :=
  obtainFrom answers n 0 (config.maxRetries + 1)

/-- The indexer with the blocks that it regards as indexed (delivered, and not invalidated since), and with what each
    poll that fetched a range has reported: a block and its new hash, or nothing. -/
structure Tracked where
  indexer : BlockIndexer
  indexed : Store ℤ Block
  reports : List (Option (ℤ × String))

def track (config : IndexerConfig) (answers : Answers) (t : Tracked) : Tracked :=
  match poll config answers t.indexer with
  | (s, .idle) => { t with indexer := s }
  | (s, .reorg result) =>
    ⟨s, fun n => if n < result.blockNumber then t.indexed n else none,
      t.reports ++ [some (result.blockNumber, result.blockHash)]⟩
  | (s, .handled) =>
    ⟨s, fun n => if t.indexer.nextBlock ≤ n ∧ n < s.nextBlock then obtained config answers n else t.indexed n,
      t.reports ++ [none]⟩
  | (s, .failed) =>
    let blocks := (s.delivered.drop t.indexer.delivered.length).flatMap (·.blocks)
    ⟨s, fun n => if n ∈ blocks then obtained config answers n else t.indexed n, t.reports ++ [none]⟩

def Watched (config : IndexerConfig) (allowed : Answers → Tracked → Prop) : Tracked → Tracked → Prop :=
  Relation.ReflTransGen fun t t' => ∃ answers, allowed answers t ∧ t' = track config answers t

def watch (s : BlockIndexer) : Tracked := ⟨s, fun _ => none, []⟩

section Conditions

variable (config : IndexerConfig) (answers : Answers)

def previousHash (s : BlockIndexer) (n : ℤ) : Option String :=
  if n ≤ s.nextBlock then s.indexedHashes (n - 1) else (obtained config answers (n - 1)).map (·.hash)

def Linked (first : ℤ) (s : BlockIndexer) (last : ℤ) : Prop :=
  ∀ n ∈ blockNumbers s.nextBlock last, ∃ block, obtained config answers n = some block ∧
    (first < n → previousHash config answers s n = some block.parentHash)

/-- A hash that contradicts the recorded one is met first at the start of the range, and is not the one that the last
    pass reported. Where there is none, the first call of `onEvents` fails, or none does and the blocks link. -/
def Safe (first : ℤ) (t : Tracked) : Prop :=
  ∀ last, batchTo config answers t.indexer = some last →
    match detectReorg t.indexer (processRange answers t.indexer.nextBlock last) with
    | some result =>
      result.blockNumber = t.indexer.nextBlock ∧
        t.reports.getLast? ≠ some (some (result.blockNumber, result.blockHash))
    | none =>
      (handedOver config answers t.indexer.nextBlock last ≠ [] ∧ answers.accepts 0 = false) ∨
        (∀ i < (handedOver config answers t.indexer.nextBlock last).length, answers.accepts i = true) ∧
          Linked config answers first t.indexer last

end Conditions

/-- The indexed blocks are those from the first to the one before the next, and the parent hash of each is the hash
    recorded for the block before it. -/
structure Contiguous (first : ℤ) (t : Tracked) : Prop where
  span : ∀ n, (t.indexed n).isSome ↔ first ≤ n ∧ n < t.indexer.nextBlock
  linked : ∀ n block, t.indexed n = some block → first < n → t.indexer.indexedHashes (n - 1) = some block.parentHash
  recorded : ∀ n block, t.indexed n = some block → t.indexer.indexedHashes n = some block.hash

def ReportedOnce (t : Tracked) : Prop := t.reports.IsChain fun report next => report = none ∨ report ≠ next

section Obtained

variable {config : IndexerConfig} {answers : Answers} {n first last : ℤ} {block : Block} {result : WorkerResult}

theorem firstGood_of_obtain {attempt remaining : ℕ} (obtained : obtainFrom answers n attempt remaining = some block) :
    ∃ events, firstGood answers n attempt remaining = some ⟨block.number, block.hash, events, none⟩ := by
  induction remaining generalizing attempt with
  | zero => cases obtained
  | succ remaining ih =>
    unfold obtainFrom at obtained
    unfold firstGood
    cases attempted : answers.attempt n attempt with
    | found b events =>
      rw [attempted] at obtained
      cases obtained
      exact ⟨events, rfl⟩
    | notFound =>
      rw [attempted] at obtained
      exact ih obtained
    | failed message =>
      simp only [attempted] at obtained
      split at obtained
      · rename_i given
        have failed : (process n (.failed message)).failed = true := decide_eq_true given
        simp only [failed, if_true]
        exact ih obtained
      · cases obtained

theorem settled_of_obtained (known : obtained config answers n = some block) :
    ∃ events, settled config answers n = some ⟨block.number, block.hash, events, none⟩ := firstGood_of_obtain known

section

variable (numbered : Numbered answers)

include numbered

theorem Numbered.process (n : ℤ) (k : ℕ) : (process n (answers.attempt n k)).blockNumber = n := by
  cases attempted : answers.attempt n k with
  | notFound => rfl
  | failed message => rfl
  | found block events => exact numbered n k block events attempted

theorem Numbered.settled (known : settled config answers n = some result) : result.blockNumber = n := by
  obtain ⟨k, rfl⟩ := firstGood_eq_some known
  exact numbered.process n k

theorem Numbered.recordAll_before {done : List Task} {hashes : Store ℤ String}
    (part : done <+: tasks config answers (processRange answers first last)) (before : n < first) :
    recordAll done hashes n = hashes n := by
  apply recordAll_other
  intro result mem same
  obtain ⟨m, inside, settled⟩ := record_mem_tasks.mp (part.subset mem)
  have placed := numbered.settled settled
  have := (mem_blockNumbers.mp inside).1
  omega

theorem Numbered.recordAll_obtained {hashes : Store ℤ String}
    (inside : n ∈ blockNumbers first last) (known : obtained config answers n = some block) :
    recordAll (tasks config answers (processRange answers first last)) hashes n = some block.hash := by
  obtain ⟨events, settled⟩ := settled_of_obtained known
  have placed := numbered.settled settled
  apply recordAll_same
  · intro result mem same
    obtain ⟨m, -, other⟩ := record_mem_tasks.mp mem
    obtain rfl : m = n := (numbered.settled other).symm.trans same
    rw [settled] at other
    cases other
    rfl
  · exact .inr ⟨_, record_mem_tasks.mpr ⟨n, inside, settled⟩, placed⟩

end

end Obtained

section Track

variable {config : IndexerConfig} {answers : Answers} {first : ℤ} {t : Tracked}

theorem reportedOnce_none (once : ReportedOnce t) : (t.reports ++ [none]).IsChain fun report next => report = none ∨ report ≠ next := by
  apply List.IsChain.append once (isChain_singleton _)
  intro report _ next mem
  cases report with
  | none => exact .inl rfl
  | some r =>
    right
    cases mem
    exact Option.some_ne_none r

theorem reportedOnce_some {report : ℤ × String} (once : ReportedOnce t) (new : t.reports.getLast? ≠ some (some report)) :
    (t.reports ++ [some report]).IsChain fun report next => report = none ∨ report ≠ next := by
  apply List.IsChain.append once (isChain_singleton _)
  intro before last next mem
  cases mem
  right
  rintro rfl
  exact new last

theorem contiguous_handled (contiguous : Contiguous first t) (numbered : Numbered answers) {last : ℤ} {s : BlockIndexer}
    (forward : first ≤ t.indexer.nextBlock) (linked : Linked config answers first t.indexer last)
    (range : t.indexer.nextBlock ≤ last + 1) (next : s.nextBlock = last + 1)
    (hashes : s.indexedHashes = recordAll (tasks config answers (processRange answers t.indexer.nextBlock last))
      t.indexer.indexedHashes) (reports : List (Option (ℤ × String))) :
    Contiguous first ⟨s, fun n => if t.indexer.nextBlock ≤ n ∧ n < s.nextBlock then obtained config answers n else t.indexed n,
      reports⟩ := by
  have old {n : ℤ} (before : n < t.indexer.nextBlock) : s.indexedHashes n = t.indexer.indexedHashes n := by
    rw [hashes]
    exact numbered.recordAll_before (prefix_refl _) before
  have new {n : ℤ} {block : Block} (above : t.indexer.nextBlock ≤ n) (below : n < s.nextBlock)
      (known : obtained config answers n = some block) : s.indexedHashes n = some block.hash := by
    rw [hashes]
    exact numbered.recordAll_obtained (mem_blockNumbers.mpr (by omega)) known
  refine ⟨?_, ?_, ?_⟩
  · intro n
    dsimp only
    split
    · rename_i inside
      obtain ⟨block, known, -⟩ := linked n (mem_blockNumbers.mpr (by omega))
      rw [known, Option.isSome_some]
      exact iff_of_true rfl (by omega)
    · rename_i outside
      rw [contiguous.span n]
      omega
  · intro n block known later
    dsimp only at known ⊢
    split at known
    · rename_i inside
      obtain ⟨b, same, parent⟩ := linked n (mem_blockNumbers.mpr (by omega))
      rw [known] at same
      cases same
      have prev := parent later
      unfold previousHash at prev
      split at prev
      · rename_i at_start
        rw [old (by omega)]
        exact prev
      · rename_i inner
        obtain ⟨b', before, equal⟩ := Option.map_eq_some_iff.mp prev
        rw [new (by omega) (by omega) before, equal]
    · rename_i outside
      have placed := (contiguous.span n).mp (by rw [known]; rfl)
      rw [old (by omega)]
      exact contiguous.linked n block known later
  · intro n block known
    dsimp only at known ⊢
    split at known
    · rename_i inside
      exact new inside.1 inside.2 known
    · have placed := (contiguous.span n).mp (by rw [known]; rfl)
      rw [old placed.2]
      exact contiguous.recorded n block known

theorem contiguous_failed (contiguous : Contiguous first t) {s : BlockIndexer} (next : s.nextBlock = t.indexer.nextBlock)
    (old : ∀ n, n < t.indexer.nextBlock → s.indexedHashes n = t.indexer.indexedHashes n)
    (reports : List (Option (ℤ × String))) : Contiguous first ⟨s, t.indexed, reports⟩ := by
  refine ⟨?_, ?_, ?_⟩
  · intro n
    change _ ↔ first ≤ n ∧ n < s.nextBlock
    rw [next]
    exact contiguous.span n
  · intro n block known later
    have placed := (contiguous.span n).mp (by rw [show t.indexed n = some block from known]; rfl)
    change s.indexedHashes (n - 1) = _
    rw [old _ (by omega)]
    exact contiguous.linked n block known later
  · intro n block known
    have placed := (contiguous.span n).mp (by rw [show t.indexed n = some block from known]; rfl)
    change s.indexedHashes n = _
    rw [old _ placed.2]
    exact contiguous.recorded n block known

theorem track_contiguous (contiguous : Contiguous first t) (forward : first ≤ t.indexer.nextBlock) (once : ReportedOnce t)
    (numbered : Numbered answers) (safe : Safe config answers first t) :
    Contiguous first (track config answers t) ∧ first ≤ (track config answers t).indexer.nextBlock ∧
      ReportedOnce (track config answers t) := by
  rcases poll_cases config answers t.indexer with ⟨-, idle⟩ | ⟨last, far, pass⟩
  · unfold track
    rw [idle]
    exact ⟨contiguous, forward, once⟩
  have range := batchTo_ge far
  have allowed := safe last far
  rcases pass with ⟨result, detected, polled⟩ | ⟨clean, pass⟩
  · rw [detected] at allowed
    obtain ⟨start, new⟩ := allowed
    unfold track
    rw [polled]
    refine ⟨?_, start ▸ forward, reportedOnce_some once new⟩
    have kept : (fun n => if n < result.blockNumber then t.indexed n else none) = t.indexed := by
      funext n
      split
      · rfl
      · rename_i above
        cases known : t.indexed n with
        | none => rfl
        | some block =>
          have placed := (contiguous.span n).mp (by rw [known]; rfl)
          omega
    dsimp only
    rw [kept]
    refine contiguous_failed contiguous ?_ ?_ _
    · exact start
    · exact fun _ _ => rfl
  rw [clean] at allowed
  rcases pass with ⟨s', run, polled⟩ | ⟨s', run, polled⟩
  · obtain ⟨rfl, accepted⟩ := perform_ok run
    have linked : Linked config answers first t.indexer last := by
      rcases allowed with ⟨handed, fails⟩ | ⟨-, linked⟩
      · have first := accepted 0 (length_pos_iff.mpr handed)
        exact absurd (fails.symm.trans first) (by decide)
      · exact linked
    unfold track
    rw [polled]
    refine ⟨contiguous_handled contiguous numbered forward linked range rfl rfl _, ?_, reportedOnce_none once⟩
    change first ≤ last + 1
    omega
  · have performed := perform_cases (s := { t.indexer with calls := 0 }) rfl (allowed.imp_right fun accepted => by
      intro i bounded
      rw [Nat.zero_add]
      exact accepted.1 i bounded)
    rw [run] at performed
    rcases performed with ⟨through, -⟩ | ⟨done, calls, part, nothing, same⟩
    · cases through
    · cases same
      unfold track
      rw [polled]
      refine ⟨?_, forward, reportedOnce_none once⟩
      have nothing_new : (t.indexer.delivered ++ deliveries done).drop t.indexer.delivered.length = [] := by
        rw [nothing, append_nil, drop_length]
      simp only [after, nothing_new, flatMap_nil, not_mem_nil, if_false]
      refine contiguous_failed contiguous ?_ ?_ _
      · rfl
      · exact fun n before => numbered.recordAll_before part before

theorem watch_contiguous (s : BlockIndexer) : Contiguous s.nextBlock (watch s) := by
  refine ⟨?_, ?_, ?_⟩
  · intro n
    constructor
    · intro known
      cases known
    · intro placed
      exact absurd placed.1 (not_le.mpr placed.2)
  · intro n block known
    cases known
  · intro n block known
    cases known

/-- A run of polls that are safe where they begin keeps one contiguous chain and reports no reorganisation twice. -/
theorem watched_contiguous {startBlock : ℤ} {checkpoint : Option IndexerCheckpoint} {cpBlock : Option Block}
    (run : Watched config
      (fun answers t => Numbered answers ∧ Safe config answers (start config startBlock checkpoint cpBlock).nextBlock t)
      (watch (start config startBlock checkpoint cpBlock)) t) :
    Contiguous (start config startBlock checkpoint cpBlock).nextBlock t ∧ ReportedOnce t := by
  have kept : Contiguous (start config startBlock checkpoint cpBlock).nextBlock t ∧
      (start config startBlock checkpoint cpBlock).nextBlock ≤ t.indexer.nextBlock ∧ ReportedOnce t := by
    induction run with
    | refl => exact ⟨watch_contiguous _, le_rfl, .nil⟩
    | tail _ step ih =>
      obtain ⟨answers, ⟨numbered, safe⟩, rfl⟩ := step
      exact track_contiguous ih.1 ih.2.1 ih.2.2 numbered safe
  exact ⟨kept.1, kept.2.2⟩

end Track

section Sample

def oneByOne : IndexerConfig := ⟨1, 0, 3⟩

def branch (zero one : String) (tip : ℤ) (accepted : Bool) : Answers where
  tip := some tip
  attempt n _ := .found ⟨n, if n = 0 then zero else one, if n = 0 then "0x0" else zero⟩ [⟨n, "0xa", 0, "charged"⟩]
  accepts _ := accepted

theorem branch_numbered (zero one : String) (tip : ℤ) (accepted : Bool) : Numbered (branch zero one tip accepted) := by
  intro n k block events attempted
  cases attempted
  rfl

def begun : Tracked := watch (start oneByOne 0 none none)

def recordedOnly : Tracked := track oneByOne (branch "0xa0" "0xa1" 0 false) begun

def reported : Tracked := track oneByOne (branch "0xb0" "0xb1" 0 true) recordedOnly

def delivered : Tracked := track oneByOne (branch "0xa0" "0xa1" 0 true) reported

theorem branch_safe_pass {t : Tracked} {zero one : String} {tip : ℤ} {accepted : Bool}
    (far : batchTo oneByOne (branch zero one tip accepted) t.indexer = some t.indexer.nextBlock)
    (clean : detectReorg t.indexer (processRange (branch zero one tip accepted) t.indexer.nextBlock t.indexer.nextBlock) =
      none)
    (handed : handedOver oneByOne (branch zero one tip accepted) t.indexer.nextBlock t.indexer.nextBlock ≠ [])
    (linked : 0 < t.indexer.nextBlock → t.indexer.indexedHashes (t.indexer.nextBlock - 1) =
      some (if t.indexer.nextBlock = 0 then "0x0" else zero)) :
    Safe oneByOne (branch zero one tip accepted) 0 t := by
  intro last range
  rw [far] at range
  cases range
  rw [clean]
  cases accepted with
  | false => exact .inl ⟨handed, rfl⟩
  | true =>
    refine .inr ⟨fun _ _ => rfl, fun n inside => ?_⟩
    obtain rfl : n = t.indexer.nextBlock := by
      have := mem_blockNumbers.mp inside
      omega
    refine ⟨_, rfl, fun later => ?_⟩
    rw [previousHash, if_pos le_rfl]
    exact linked later

theorem watched_contiguous_sample : Contiguous 0 (track oneByOne (branch "0xa0" "0xa1" 1 true) delivered) ∧
      ReportedOnce (track oneByOne (branch "0xa0" "0xa1" 1 true) delivered) := by
  have failing : Safe oneByOne (branch "0xa0" "0xa1" 0 false) 0 begun :=
    branch_safe_pass (by decide +kernel) (by decide +kernel) (by decide +kernel) (by decide +kernel)
  have reporting : Safe oneByOne (branch "0xb0" "0xb1" 0 true) 0 recordedOnly := by
    intro last far
    have range : batchTo oneByOne (branch "0xb0" "0xb1" 0 true) recordedOnly.indexer = some 0 := by decide +kernel
    rw [range] at far
    cases far
    have detected : detectReorg recordedOnly.indexer
        (processRange (branch "0xb0" "0xb1" 0 true) recordedOnly.indexer.nextBlock 0) =
          some ⟨0, "0xb0", [⟨0, "0xa", 0, "charged"⟩], none⟩ := by decide +kernel
    rw [detected]
    exact ⟨by decide +kernel, by decide +kernel⟩
  have delivering : Safe oneByOne (branch "0xa0" "0xa1" 0 true) 0 reported :=
    branch_safe_pass (by decide +kernel) (by decide +kernel) (by decide +kernel) (by decide +kernel)
  have linking : Safe oneByOne (branch "0xa0" "0xa1" 1 true) 0 delivered :=
    branch_safe_pass (by decide +kernel) (by decide +kernel) (by decide +kernel) (by decide +kernel)
  have run : Watched oneByOne (fun answers t => Numbered answers ∧ Safe oneByOne answers 0 t) begun
      (track oneByOne (branch "0xa0" "0xa1" 1 true) delivered) :=
    .tail (.tail (.tail (.tail .refl ⟨_, ⟨branch_numbered _ _ _ _, failing⟩, rfl⟩) ⟨_, ⟨branch_numbered _ _ _ _, reporting⟩, rfl⟩)
      ⟨_, ⟨branch_numbered _ _ _ _, delivering⟩, rfl⟩) ⟨_, ⟨branch_numbered _ _ _ _, linking⟩, rfl⟩
  exact @watched_contiguous oneByOne _ 0 none none run

/-- Where the chain changes below the next block, that block is indexed on another parent; and where a recorded block
    has changed, every pass reports it. -/
theorem reorg_missed : (¬ ∀ (config : IndexerConfig) (startBlock : ℤ) (t : Tracked),
      Watched config (fun answers _ => Numbered answers) (watch (start config startBlock none none)) t →
        Contiguous startBlock t) ∧
    ¬ ∀ (config : IndexerConfig) (startBlock : ℤ) (t : Tracked),
      Watched config (fun answers _ => Numbered answers) (watch (start config startBlock none none)) t →
        ReportedOnce t := by
  constructor
  · intro contiguous
    have run : Watched oneByOne (fun answers _ => Numbered answers) begun
        (track oneByOne (branch "0xb0" "0xb1" 1 true) (track oneByOne (branch "0xa0" "0xa1" 0 true) begun)) :=
      .tail (.tail .refl ⟨_, branch_numbered _ _ _ _, rfl⟩) ⟨_, branch_numbered _ _ _ _, rfl⟩
    have linked := (contiguous oneByOne 0 _ run).linked 1 ⟨1, "0xb1", "0xb0"⟩ (by decide +kernel) (by decide)
    exact absurd linked (by decide +kernel)
  · intro once
    have run : Watched oneByOne (fun answers _ => Numbered answers) begun
        (track oneByOne (branch "0xb0" "0xb1" 0 true) reported) :=
      .tail (.tail (.tail .refl ⟨_, branch_numbered _ _ _ _, rfl⟩) ⟨_, branch_numbered _ _ _ _, rfl⟩)
        ⟨_, branch_numbered _ _ _ _, rfl⟩
    have reports : (track oneByOne (branch "0xb0" "0xb1" 0 true) reported).reports =
        [none, some (0, "0xb0"), some (0, "0xb0")] := by decide +kernel
    have chain := once oneByOne 0 _ run
    rw [ReportedOnce, reports] at chain
    simp at chain

end Sample

end SubTrackr.Indexer

import Cta.Lib.Runs
import Cta.Tape.DiskWrite

/-! The recall of one file, by a thread on the tape side and one on the disk side. -/
namespace Cta.Tape.RecalledFile
open Cta.Tape.TapeRead Cta.Tape.DiskWrite Cta.Lib.Runs Cta.Common.Checksum

/-- The file, the blocks of the memory manager, and whether the session has given up before. -/
structure Recall where
  task : TapeReadTask
  file : DiskFile
  blockIds : List Nat
  cancelled : Bool

/-- The queues between the two, where each of them stands, and what was done so far: the blocks
that were taken and released, and what the reader has returned. -/
structure State where
  freeBlocks : List Nat
  fifo : List (Option MemBlock)
  tape : Pc
  disk : DiskWriteTask
  releasing : Option Nat
  taken : List Nat
  released : List Nat
  read : List (List UInt8)
  endOfFile : Bool

variable (r : Recall) (s : State)

def firstPc : Pc := if r.cancelled then .cancelling else .positioning

def start : State := ⟨r.blockIds, [], firstPc r, DiskWrite.start, none, [], [], [], false⟩

def getFreeBlock (next : Nat → Pc) : Option State :=
  match s.freeBlocks with
  | [] => none
  | id :: freeBlocks =>
    some { s with freeBlocks := freeBlocks, taken := s.taken ++ [id], tape := next id }

def stepTape : Option State :=
  match s.tape with
  | .positioning =>
    some { s with
      tape :=
        match r.task.openFileReader with
        | none => .reading r.task.blocks 0 zeroAdler32
        | some msg => .failing msg }
  | .reading rest fileBlock checksum_adler32 =>
    let filled := fill r.task rest []
    (getFreeBlock s fun id => readBlock r.task id rest fileBlock checksum_adler32).map fun s =>
      { s with
        read := s.read ++ rest.take (rest.length - filled.rest.length)
        endOfFile := filled.stop = .endOfFile }
  | .pushing mb next => some { s with fifo := s.fifo ++ [some mb], tape := next }
  | .failing msg =>
    getFreeBlock s fun id => .pushing ⟨id, (freshContent r.task).markAsFailed msg 666⟩ .signalling
  | .cancelling =>
    getFreeBlock s fun id => .pushing ⟨id, (freshContent r.task).markAsCancelled⟩ .done
  | .signalling => some { s with fifo := s.fifo ++ [none], tape := .done }
  | .done => none

/-- A block is released when it was dealt with. The pop waits while the queue is empty. -/
def stepDisk : Option State :=
  match s.releasing with
  | some id =>
    some { s with
      releasing := none, freeBlocks := s.freeBlocks ++ [id], released := s.released ++ [id] }
  | none =>
    match s.fifo with
    | [] => none
    | item :: fifo =>
      (s.disk.pop r.task.archiveFileID r.file (item.map (·.content))).map fun disk =>
        { s with fifo := fifo, disk := disk, releasing := item.map (·.memoryBlockId) }

def Step (s s' : State) : Prop := stepTape r s = some s' ∨ stepDisk r s = some s'

/-- The tape was read to the end of the file, the checksum is that of the catalogue, and the file on
disk was written and closed. -/
structure Transferred : Prop where
  read : s.read = r.task.blocks
  endOfFile : s.endOfFile = true
  checksum : validate r.task (adler32 zeroAdler32 r.task.blocks.flatten) = .ok ()
  written : VerifyOnly r.task ∨ s.disk.writeFile = some ⟨r.task.blocks.flatten, true⟩

structure Finished : Prop where
  tape : s.tape = .done
  disk : ∃ success, s.disk.stage = .returned success
  fifo : s.fifo = []
  released : s.taken.Perm s.released
  cancelled : r.cancelled = true → s.disk.reports = []
  completed : r.cancelled = false → Transferred r s →
    ∃ size checksum, s.disk.reports = [.completed size checksum]
  failed : r.cancelled = false → ¬ Transferred r s → ∃ msg, s.disk.reports = [.failed msg]

structure Safe : Prop where
  once : s.disk.reports.length ≤ 1
  completed : ∀ size checksum, .completed size checksum ∈ s.disk.reports → Transferred r s
  cancelled : r.cancelled = true → s.disk.reports = []
  released : s.released.Subperm s.taken

structure Right : Prop where
  ends : ¬ ∃ run : Nat → State, run 0 = start r ∧ ∀ i, Step r (run i) (run (i + 1))
  finished : ∀ s, Reachable (· = start r) (Step r) s → (∀ s', ¬ Step r s s') → Finished r s
  safe : ∀ s, Reachable (· = start r) (Step r) s → Safe r s

structure ToBeClosed : Prop where
  cancelled : r.cancelled = false
  written : ¬ VerifyOnly r.task
  positioned : r.task.openFileReader = none
  closes : Closes r.task r.file DiskWrite.start r.task.blocks [] 0 zeroAdler32

structure Condition : Prop where
  blocks : r.blockIds ≠ []
  close : ToBeClosed r → r.file.close = none

def held : Pc → List Nat
  | .pushing mb next => mb.memoryBlockId :: held next
  | _ => []

def waits : Pc → Nat
  | .positioning => 2
  | .reading _ _ _ | .failing _ | .cancelling => 1
  | .pushing _ _ | .signalling | .done => 0

def ReadOk : Pc → List (List UInt8) → Bool → Prop
  | .positioning, read, endOfFile => r.cancelled = false ∧ read = [] ∧ endOfFile = false
  | .reading rest _ _, read, endOfFile =>
    r.cancelled = false ∧ r.task.openFileReader = none ∧ read ++ rest = r.task.blocks ∧
      endOfFile = false
  | .pushing _ next, read, endOfFile => ReadOk next read endOfFile
  | .failing _, _, endOfFile => r.task.openFileReader ≠ none ∧ endOfFile = false
  | .cancelling, _, endOfFile => r.cancelled = true ∧ endOfFile = false
  | .signalling, read, endOfFile | .done, read, endOfFile =>
    (endOfFile = true → read = r.task.blocks) ∧
      (endOfFile = true ↔
        r.cancelled = false ∧ r.task.openFileReader = none ∧ r.task.behind = none)

inductive TapeStep : State → Prop
  | position {next : Pc} : waits s.tape = 2 → waits next = 1 → held next = held s.tape →
    contents r.task next = contents r.task s.tape →
    (ReadOk r s.tape s.read s.endOfFile → ReadOk r next s.read s.endOfFile) →
    TapeStep { s with tape := next }
  | take {id : Nat} {freeBlocks : List Nat} {next : Pc} {read : List (List UInt8)}
      {endOfFile : Bool} : s.freeBlocks = id :: freeBlocks → waits s.tape = 1 → waits next = 0 →
    held next = id :: held s.tape → contents r.task next = contents r.task s.tape →
    (ReadOk r s.tape s.read s.endOfFile → ReadOk r next read endOfFile) →
    TapeStep { s with
      freeBlocks := freeBlocks, taken := s.taken ++ [id], tape := next, read := read,
      endOfFile := endOfFile }
  | push {item : Option MemBlock} {next : Pc} : waits s.tape = 0 →
    held s.tape = (item.map (·.memoryBlockId)).toList ++ held next →
    contents r.task s.tape = item.map (·.content) :: contents r.task next →
    (ReadOk r s.tape s.read s.endOfFile → ReadOk r next s.read s.endOfFile) →
    TapeStep { s with fifo := s.fifo ++ [item], tape := next }

variable {r s} {s' : State}

theorem getFreeBlock_cases {next : Nat → Pc} (h : getFreeBlock s next = some s') :
    ∃ id freeBlocks, s.freeBlocks = id :: freeBlocks ∧
      s' = { s with freeBlocks := freeBlocks, taken := s.taken ++ [id], tape := next id } := by
  unfold getFreeBlock at h
  cases hfree : s.freeBlocks with
  | nil => simp [hfree] at h
  | cons id freeBlocks =>
    rw [hfree] at h
    exact ⟨id, freeBlocks, rfl, (Option.some.inj h).symm⟩

theorem readOk_readBlock {id fileBlock : Nat} {rest read : List (List UInt8)}
    {checksum_adler32 : UInt32} {endOfFile : Bool}
    (h : ReadOk r (.reading rest fileBlock checksum_adler32) read endOfFile) :
    ReadOk r (readBlock r.task id rest fileBlock checksum_adler32)
      (read ++ rest.take (rest.length - (fill r.task rest []).rest.length))
      (decide ((fill r.task rest []).stop = .endOfFile)) := by
  obtain ⟨hcancelled, hopen, hread, -⟩ := h
  obtain ⟨consumed, hrest, hend, hfail⟩ := fill_spec rest (fits_nil (t := r.task))
  have hlen : rest.length - (fill r.task rest []).rest.length = consumed.length := by
    have := congrArg List.length hrest
    rw [List.length_append] at this
    omega
  have htake : rest.take consumed.length = consumed := by
    have hconsumed := congrArg (List.take consumed.length) hrest
    rwa [List.take_left' rfl] at hconsumed
  rw [hlen, htake, readBlock]
  cases hstop : (fill r.task rest []).stop with
  | failed msg =>
    have hbehind := hfail msg hstop
    simp [ReadOk, hbehind]
  | full =>
    refine ⟨hcancelled, hopen, ?_, rfl⟩
    rw [List.append_assoc, ← hrest, hread]
  | endOfFile =>
    obtain ⟨hnil, hbehind⟩ := hend hstop
    rw [hnil, List.append_nil] at hrest
    have hall : read ++ consumed = r.task.blocks := by rw [← hrest, hread]
    dsimp only
    cases validate r.task (adler32 checksum_adler32 (fill r.task rest []).payload) with
    | error e => exact ⟨fun _ => hall, iff_of_true rfl ⟨hcancelled, hopen, hbehind⟩⟩
    | ok u => exact ⟨fun _ => hall, iff_of_true rfl ⟨hcancelled, hopen, hbehind⟩⟩

theorem held_readBlock {id fileBlock : Nat} {rest : List (List UInt8)}
    {checksum_adler32 : UInt32} :
    held (readBlock r.task id rest fileBlock checksum_adler32) = [id] ∧
      waits (readBlock r.task id rest fileBlock checksum_adler32) = 0 := by
  unfold readBlock
  dsimp only
  cases (fill r.task rest []).stop with
  | failed msg => exact ⟨rfl, rfl⟩
  | full => exact ⟨rfl, rfl⟩
  | endOfFile =>
    dsimp only
    split <;> exact ⟨rfl, rfl⟩

theorem tapeStep_of_stepTape (h : stepTape r s = some s') : TapeStep r s s' := by
  unfold stepTape at h
  cases htape : s.tape with
  | positioning =>
    rw [htape] at h
    obtain rfl := Option.some.inj h
    cases hopen : r.task.openFileReader with
    | none =>
      refine .position ?_ rfl ?_ ?_ ?_
      · rw [htape]; rfl
      · rw [htape]; rfl
      · rw [htape, contents, contents, hopen]
      · rw [htape]
        rintro ⟨hcancelled, hread, hend⟩
        exact ⟨hcancelled, hopen, by rw [hread, List.nil_append], hend⟩
    | some msg =>
      refine .position ?_ rfl ?_ ?_ ?_
      · rw [htape]; rfl
      · rw [htape]; rfl
      · rw [htape, contents, contents, hopen]
      · rw [htape]
        rintro ⟨-, -, hend⟩
        exact ⟨by simp [hopen], hend⟩
  | reading rest fileBlock checksum_adler32 =>
    rw [htape] at h
    obtain ⟨s₁, hblock, rfl⟩ := Option.map_eq_some_iff.mp h
    obtain ⟨id, freeBlocks, hfree, rfl⟩ := getFreeBlock_cases hblock
    refine .take hfree ?_ held_readBlock.2 ?_ ?_ ?_
    · rw [htape]; rfl
    · rw [htape]; exact held_readBlock.1
    · rw [htape]; exact contents_readBlock
    · rw [htape]; exact readOk_readBlock
  | pushing mb next =>
    rw [htape] at h
    obtain rfl := Option.some.inj h
    refine .push ?_ ?_ ?_ ?_
    · rw [htape]; rfl
    · rw [htape]; rfl
    · rw [htape]; rfl
    · rw [htape]; exact fun hread => hread
  | failing msg =>
    rw [htape] at h
    obtain ⟨id, freeBlocks, hfree, rfl⟩ := getFreeBlock_cases h
    refine .take hfree ?_ rfl ?_ ?_ ?_
    · rw [htape]; rfl
    · rw [htape]; rfl
    · rw [htape]; rfl
    · rw [htape]
      rintro ⟨hopen, hend⟩
      simp [ReadOk, hopen, hend]
  | cancelling =>
    rw [htape] at h
    obtain ⟨id, freeBlocks, hfree, rfl⟩ := getFreeBlock_cases h
    refine .take hfree ?_ rfl ?_ ?_ ?_
    · rw [htape]; rfl
    · rw [htape]; rfl
    · rw [htape]; rfl
    · rw [htape]
      rintro ⟨hcancelled, hend⟩
      simp [ReadOk, hcancelled, hend]
  | signalling =>
    rw [htape] at h
    obtain rfl := Option.some.inj h
    refine .push ?_ ?_ ?_ ?_
    · rw [htape]; rfl
    · rw [htape]; rfl
    · rw [htape]; rfl
    · rw [htape]; exact fun hread => hread
  | done =>
    rw [htape] at h
    cases h

theorem stepDisk_cases (h : stepDisk r s = some s') :
    (∃ id, s.releasing = some id ∧ s' = { s with
      releasing := none, freeBlocks := s.freeBlocks ++ [id], released := s.released ++ [id] }) ∨
    ∃ item fifo disk, s.releasing = none ∧ s.fifo = item :: fifo ∧
      s.disk.pop r.task.archiveFileID r.file (item.map (·.content)) = some disk ∧
      s' = { s with fifo := fifo, disk := disk, releasing := item.map (·.memoryBlockId) } := by
  unfold stepDisk at h
  cases hreleasing : s.releasing with
  | some id =>
    rw [hreleasing] at h
    exact .inl ⟨id, rfl, (Option.some.inj h).symm⟩
  | none =>
    rw [hreleasing] at h
    cases hfifo : s.fifo with
    | nil => simp [hfifo] at h
    | cons item fifo =>
      rw [hfifo] at h
      obtain ⟨disk, hpop, rfl⟩ := Option.map_eq_some_iff.mp h
      exact .inr ⟨item, fifo, disk, rfl, rfl, hpop, rfl⟩

variable (r s) in
def size : Nat :=
  5 * (contents r.task s.tape).length + waits s.tape + 2 * s.fifo.length +
    s.releasing.toList.length

theorem waits_le (pc : Pc) : waits pc ≤ 2 := by
  cases pc <;> simp [waits]

theorem size_lt (h : Step r s s') : size r s' < size r s := by
  rcases h with htape | hdisk
  · cases tapeStep_of_stepTape htape with
    | position hwaits hnext hheld hcontents hread =>
      simp only [size, hcontents, hwaits, hnext]
      omega
    | take hfree hwaits hnext hheld hcontents hread =>
      simp only [size, hcontents, hwaits, hnext]
      omega
    | push hwaits hheld hcontents hread =>
      rename_i item next
      have hle := waits_le next
      simp only [size, hcontents, hwaits, List.length_cons, List.length_append, List.length_nil]
      omega
  · rcases stepDisk_cases hdisk with ⟨id, hreleasing, rfl⟩ |
      ⟨item, fifo, disk, hreleasing, hfifo, -, rfl⟩
    · simp [size, hreleasing]
    · have hone : (item.map (·.memoryBlockId)).toList.length ≤ 1 := by cases item <;> simp
      simp only [size, hreleasing, hfifo, List.length_cons, Option.toList_none, List.length_nil]
      omega

theorem no_endless_run : ¬ ∃ run : Nat → State, run 0 = start r ∧
    ∀ i, Step r (run i) (run (i + 1)) := by
  rintro ⟨run, -, hstep⟩
  have hsize (n : Nat) : size r (run n) + n ≤ size r (run 0) := by
    induction n with
    | zero => exact Nat.le_refl _
    | succ n ih =>
      have hlt := size_lt (hstep n)
      omega
  have hle := hsize (size r (run 0) + 1)
  omega

theorem exists_stuck (h : Reachable (· = start r) (Step r) s) :
    ∃ t, Reachable (· = start r) (Step r) t ∧ ∀ t', ¬ Step r t t' := by
  induction hn : size r s using Nat.strong_induction_on generalizing s with
  | _ n ih =>
    by_cases hstuck : ∀ s', ¬ Step r s s'
    · exact ⟨s, h, hstuck⟩
    · push Not at hstuck
      obtain ⟨s', hstep⟩ := hstuck
      exact ih (size r s') (hn ▸ size_lt hstep) (h.step hstep) rfl

variable (s) in
def inUse : List Nat :=
  s.fifo.filterMap (·.map (·.memoryBlockId)) ++ held s.tape ++ s.releasing.toList

variable (r s) in
/-- The disk side will come to the same result, whatever was done so far. -/
structure Inv : Prop where
  outcome : s.disk.popAll r.task.archiveFileID r.file
    (s.fifo.map (·.map (·.content)) ++ contents r.task s.tape) =
      DiskWrite.start.popAll r.task.archiveFileID r.file (contents r.task (firstPc r))
  blocks : ∀ id, r.blockIds.count id = s.freeBlocks.count id + (inUse s).count id
  taken : ∀ id, s.taken.count id = s.released.count id + (inUse s).count id
  read : ReadOk r s.tape s.read s.endOfFile
  reports : (∃ success, s.disk.stage = .returned success) ∨ s.disk.reports = []

theorem inv_start : Inv r (start r) where
  outcome := rfl
  blocks := by
    intro id
    have hnone : inUse (start r) = [] := by
      cases hc : r.cancelled <;> simp [inUse, start, firstPc, hc, held]
    rw [hnone]
    rfl
  taken := by
    intro id
    have hnone : inUse (start r) = [] := by
      cases hc : r.cancelled <;> simp [inUse, start, firstPc, hc, held]
    rw [hnone]
    rfl
  read := by
    cases hc : r.cancelled <;> simp [start, firstPc, hc, ReadOk]
  reports := .inr rfl

theorem Inv.stepTape (h : Inv r s) (hstep : TapeStep r s s') : Inv r s' := by
  obtain ⟨houtcome, hblocks, htaken, hread, hreports⟩ := h
  cases hstep with
  | position hwaits hnext hheld hcontents hkeep =>
    refine ⟨?_, ?_, ?_, hkeep hread, hreports⟩
    · rw [← houtcome, hcontents]
    · intro id
      rw [hblocks id, inUse, inUse, hheld]
    · intro id
      rw [htaken id, inUse, inUse, hheld]
  | take hfree hwaits hnext hheld hcontents hkeep =>
    refine ⟨?_, ?_, ?_, hkeep hread, hreports⟩
    · rw [← houtcome, hcontents]
    · intro id
      rw [hblocks id, inUse, inUse, hheld, hfree]
      simp only [List.count_append, List.count_cons]
      omega
    · intro id
      have hcount := htaken id
      rw [inUse] at hcount ⊢
      rw [hheld]
      simp only [List.count_append, List.count_cons, List.count_nil] at hcount ⊢
      omega
  | push hwaits hheld hcontents hkeep =>
    rename_i item next
    have hids : (s.fifo ++ [item]).filterMap (·.map (·.memoryBlockId)) =
        s.fifo.filterMap (·.map (·.memoryBlockId)) ++
          (item.map (·.memoryBlockId)).toList := by
      cases item <;> simp
    refine ⟨?_, ?_, ?_, hkeep hread, hreports⟩
    · rw [← houtcome, hcontents, List.map_append, List.append_assoc]
      rfl
    · intro id
      rw [hblocks id, inUse, inUse, hids, hheld]
      simp only [List.count_append]
      omega
    · intro id
      rw [htaken id, inUse, inUse, hids, hheld]
      simp only [List.count_append]
      omega

theorem Inv.stepDisk (h : Inv r s) (hstep : stepDisk r s = some s') : Inv r s' := by
  obtain ⟨houtcome, hblocks, htaken, hread, hreports⟩ := h
  rcases stepDisk_cases hstep with ⟨id, hreleasing, rfl⟩ |
    ⟨item, fifo, disk, hreleasing, hfifo, hpop, rfl⟩
  · refine ⟨houtcome, ?_, ?_, hread, hreports⟩
    · intro id'
      rw [hblocks id', inUse, inUse, hreleasing]
      simp only [List.count_append, Option.toList_some, Option.toList_none, List.count_nil]
      omega
    · intro id'
      rw [htaken id', inUse, inUse, hreleasing]
      simp only [List.count_append, Option.toList_some, Option.toList_none, List.count_nil]
      omega
  · have hids : (item :: fifo).filterMap (·.map (·.memoryBlockId)) =
        (item.map (·.memoryBlockId)).toList ++ fifo.filterMap (·.map (·.memoryBlockId)) := by
      cases item <;> simp
    refine ⟨?_, ?_, ?_, hread, ?_⟩
    · rw [← houtcome, hfifo, List.map_cons, List.cons_append, popAll_cons, hpop]
      rfl
    · intro id
      rw [hblocks id, inUse, inUse, hfifo, hids, hreleasing]
      simp only [List.count_append, Option.toList_none, List.count_nil]
      omega
    · intro id
      rw [htaken id, inUse, inUse, hfifo, hids, hreleasing]
      simp only [List.count_append, Option.toList_none, List.count_nil]
      omega
    · rcases hreports with ⟨success, hreturned⟩ | hnone
      · simp [DiskWriteTask.pop, hreturned] at hpop
      · exact pop_reports hpop hnone

theorem inv_of_reachable (h : Reachable (· = start r) (Step r) s) : Inv r s := by
  refine h.invariant (fun s hs => hs ▸ inv_start) fun s t hinv hstep => ?_
  rcases hstep with htape | hdisk
  · exact hinv.stepTape (tapeStep_of_stepTape htape)
  · exact hinv.stepDisk hdisk

variable (r) in
def Succeeds : Prop :=
  r.task.openFileReader = none ∧ Ends r.task r.task.blocks [] zeroAdler32 ∧
    (VerifyOnly r.task ∨
      Closes r.task r.file DiskWrite.start r.task.blocks [] 0 zeroAdler32)

variable (r) in
structure Result (d : DiskWriteTask) : Prop where
  cancelled : r.cancelled = true → d.stage = .returned true ∧ d.reports = []
  completed : r.cancelled = false → Succeeds r → Completed d ∧
    (VerifyOnly r.task ∨ d.writeFile = some ⟨r.task.blocks.flatten, true⟩)
  failed : r.cancelled = false → ¬ Succeeds r → Failed d

theorem writing_start : Writing DiskWrite.start 0 [] := ⟨rfl, rfl, rfl, rfl, .inl ⟨rfl, rfl⟩⟩

theorem popAll_verified (hcancelled : r.cancelled = false)
    (hopen : r.task.openFileReader = none) (hverify : VerifyOnly r.task) :
    ∃ d, DiskWrite.start.popAll r.task.archiveFileID r.file (contents r.task (firstPc r)) =
      some d ∧ Result r d := by
  obtain ⟨d, hrun, hcompleted, hfailed⟩ := popAll_verifyOnly (d := DiskWrite.start)
    r.file r.task.blocks [] 0 zeroAdler32 hverify rfl rfl rfl
  refine ⟨d, ?_, ?_, ?_, ?_⟩
  · simpa [firstPc, hcancelled, contents, hopen] using hrun
  · intro hyes
    rw [hcancelled] at hyes
    cases hyes
  · exact fun _ hsucceeds => ⟨hcompleted hsucceeds.2.1, .inl hverify⟩
  · exact fun _ hnot => hfailed fun hends => hnot ⟨hopen, hends, .inl hverify⟩

theorem popAll_transferred (hcancelled : r.cancelled = false)
    (hopen : r.task.openFileReader = none) (hwritten : ¬ VerifyOnly r.task) :
    ∃ d, DiskWrite.start.popAll r.task.archiveFileID r.file (contents r.task (firstPc r)) =
      some d ∧ Outcome r.file
        (Closes r.task r.file DiskWrite.start r.task.blocks [] 0 zeroAdler32)
        r.task.blocks.flatten d := by
  obtain ⟨d, hrun, houtcome⟩ := popAll_written r.file r.task.blocks [] zeroAdler32 hwritten
    writing_start
  rw [List.append_nil, List.nil_append] at houtcome
  exact ⟨d, by simpa [firstPc, hcancelled, contents, hopen] using hrun, houtcome⟩

theorem exists_result (hclose : ToBeClosed r → r.file.close = none) :
    ∃ d, DiskWrite.start.popAll r.task.archiveFileID r.file (contents r.task (firstPc r)) =
      some d ∧ Result r d := by
  cases hcancelled : r.cancelled with
  | true =>
    refine ⟨{ DiskWrite.start with stage := .returned true }, ?_, fun _ => ⟨rfl, rfl⟩, ?_, ?_⟩
    · simp only [firstPc, hcancelled, if_true, contents]
      rfl
    · intro hno
      rw [hcancelled] at hno
      cases hno
    · intro hno
      rw [hcancelled] at hno
      cases hno
  | false =>
    cases hopen : r.task.openFileReader with
    | some msg =>
      obtain ⟨d, hrun, hfailed⟩ := popAll_failed (d := DiskWrite.start) r.task r.file
        (freshContent r.task) msg 666 rfl rfl (by simp [DiskWrite.start])
      refine ⟨d, ?_, ?_, ?_, fun _ _ => hfailed⟩
      · simpa [firstPc, hcancelled, contents, hopen] using hrun
      · intro hyes
        rw [hcancelled] at hyes
        cases hyes
      · intro _ hsucceeds
        rw [hsucceeds.1] at hopen
        cases hopen
    | none =>
      by_cases hverify : VerifyOnly r.task
      · exact popAll_verified hcancelled hopen hverify
      · obtain ⟨d, hrun, houtcome⟩ := popAll_transferred hcancelled hopen hverify
        refine ⟨d, hrun, ?_, fun _ hsucceeds => ?_, fun _ hnot => ?_⟩
        · intro hyes
          rw [hcancelled] at hyes
          cases hyes
        · have hcloses := hsucceeds.2.2.resolve_left hverify
          have hnone := hclose ⟨hcancelled, hverify, hopen, hcloses⟩
          exact ⟨(houtcome.closed hcloses hnone).1, .inr (houtcome.closed hcloses hnone).2⟩
        · exact houtcome.failed fun hcloses => hnot ⟨hopen, hcloses.1, .inr hcloses⟩

/-- When the disk side has returned nothing is left to be done. -/
structure Through (r : Recall) (s : State) (d : DiskWriteTask) : Prop where
  fifo : s.fifo = []
  tape : s.tape = .done
  disk : s.disk = d

theorem Inv.through {d : DiskWriteTask} (h : Inv r s)
    (hd : DiskWrite.start.popAll r.task.archiveFileID r.file (contents r.task (firstPc r)) =
      some d) (hend : s.fifo = [] ∧ s.tape = .done ∨ ∃ success, s.disk.stage = .returned success) :
    Through r s d := by
  have houtcome := h.outcome.trans hd
  have hnil : s.fifo = [] ∧ s.tape = .done := by
    rcases hend with hnil | ⟨success, hreturned⟩
    · exact hnil
    · cases hitems : s.fifo.map (·.map (·.content)) ++ contents r.task s.tape with
      | nil =>
        obtain ⟨hfifo, hcontents⟩ := List.append_eq_nil_iff.mp hitems
        exact ⟨List.map_eq_nil_iff.mp hfifo, eq_done_of_contents hcontents⟩
      | cons item items =>
        rw [hitems, popAll_cons] at houtcome
        simp [DiskWriteTask.pop, hreturned] at houtcome
  rw [hnil.1, hnil.2] at houtcome
  exact ⟨hnil.1, hnil.2, Option.some.inj houtcome⟩

theorem Through.transferred_iff {d : DiskWriteTask} (h : Through r s d) (hinv : Inv r s)
    (hd : Result r d) (hcancelled : r.cancelled = false) : Transferred r s ↔ Succeeds r := by
  have hread := hinv.read
  rw [h.tape] at hread
  obtain ⟨hall, hend⟩ := hread
  constructor
  · intro ht
    by_contra hnot
    obtain ⟨-, hopen, hbehind⟩ := hend.mp ht.endOfFile
    have hends : Ends r.task r.task.blocks [] zeroAdler32 := ⟨hbehind, ht.checksum⟩
    have hfailed := hd.failed hcancelled hnot
    rcases ht.written with hverify | hfile
    · exact hnot ⟨hopen, hends, .inl hverify⟩
    · rw [h.disk] at hfile
      have hclosed := hfailed.closed _ hfile
      cases hclosed
  · intro hs
    have hend' := hend.mpr ⟨hcancelled, hs.1, hs.2.1.1⟩
    refine ⟨hall hend', hend', hs.2.1.2, ?_⟩
    rw [h.disk]
    exact (hd.completed hcancelled hs).2

theorem Inv.safe {d : DiskWriteTask} (h : Inv r s)
    (hrun : DiskWrite.start.popAll r.task.archiveFileID r.file (contents r.task (firstPc r)) =
      some d) (hd : Result r d) : Safe r s := by
  have hreleased : s.released.Subperm s.taken := by
    rw [List.subperm_iff_count]
    intro id
    have hcount := h.taken id
    omega
  rcases h.reports with hreturned | hnone
  · have hthrough := h.through hrun (.inr hreturned)
    cases hcancelled : r.cancelled with
    | true =>
      have hnone : s.disk.reports = [] := by
        rw [hthrough.disk]
        exact (hd.cancelled hcancelled).2
      exact ⟨by simp [hnone], by simp [hnone], fun _ => hnone, hreleased⟩
    | false =>
      have hno : ¬ r.cancelled = true := by simp [hcancelled]
      by_cases hs : Succeeds r
      · obtain ⟨size, checksum, hreports⟩ := (hd.completed hcancelled hs).1.reports
        rw [← hthrough.disk] at hreports
        exact ⟨by simp [hreports], fun _ _ _ => (hthrough.transferred_iff h hd hcancelled).mpr hs,
          fun hyes => absurd hyes hno, hreleased⟩
      · obtain ⟨msg, hreports⟩ := (hd.failed hcancelled hs).reports
        rw [← hthrough.disk] at hreports
        exact ⟨by simp [hreports], by simp [hreports], fun hyes => absurd hyes hno, hreleased⟩
  · exact ⟨by simp [hnone], by simp [hnone], fun _ => hnone, hreleased⟩

theorem waiting_of_stepTape (h : RecalledFile.stepTape r s = none) :
    s.tape = .done ∨ s.freeBlocks = [] ∧ held s.tape = [] := by
  have hfree {next : Nat → Pc} (hnone : getFreeBlock s next = none) : s.freeBlocks = [] := by
    unfold getFreeBlock at hnone
    cases hblocks : s.freeBlocks with
    | nil => rfl
    | cons id freeBlocks => simp [hblocks] at hnone
  unfold RecalledFile.stepTape at h
  cases htape : s.tape with
  | positioning => simp [htape] at h
  | reading rest fileBlock checksum_adler32 =>
    rw [htape] at h
    exact .inr ⟨hfree (Option.map_eq_none_iff.mp h), rfl⟩
  | pushing mb next => simp [htape] at h
  | failing msg =>
    rw [htape] at h
    exact .inr ⟨hfree h, rfl⟩
  | cancelling =>
    rw [htape] at h
    exact .inr ⟨hfree h, rfl⟩
  | signalling => simp [htape] at h
  | done => exact .inl rfl

/-- A disk side that can do no step has nothing to release, and finds the queue empty unless it has
returned. -/
theorem waiting_of_stepDisk (h : RecalledFile.stepDisk r s = none) : s.releasing = none ∧
    (s.fifo = [] ∨ ∃ item fifo, s.fifo = item :: fifo ∧
      s.disk.pop r.task.archiveFileID r.file (item.map (·.content)) = none) := by
  unfold RecalledFile.stepDisk at h
  cases hreleasing : s.releasing with
  | some id => simp [hreleasing] at h
  | none =>
    rw [hreleasing] at h
    cases hfifo : s.fifo with
    | nil => exact ⟨rfl, .inl rfl⟩
    | cons item fifo =>
      rw [hfifo] at h
      exact ⟨rfl, .inr ⟨item, fifo, rfl, Option.map_eq_none_iff.mp h⟩⟩

theorem Inv.through_of_stuck {d : DiskWriteTask} (h : Inv r s) (hblocks : r.blockIds ≠ [])
    (hrun : DiskWrite.start.popAll r.task.archiveFileID r.file (contents r.task (firstPc r)) =
      some d) (hstuck : ∀ s', ¬ Step r s s') : Through r s d ∧ s.releasing = none := by
  have htape : RecalledFile.stepTape r s = none :=
    Option.eq_none_iff_forall_ne_some.mpr fun s' hs' => hstuck s' (.inl hs')
  have hdisk : RecalledFile.stepDisk r s = none :=
    Option.eq_none_iff_forall_ne_some.mpr fun s' hs' => hstuck s' (.inr hs')
  obtain ⟨hreleasing, hqueue⟩ := waiting_of_stepDisk hdisk
  have hfifo : s.fifo = [] := by
    rcases hqueue with hnil | ⟨item, fifo, hfifo, hpop⟩
    · exact hnil
    · have houtcome := h.outcome.trans hrun
      rw [hfifo, List.map_cons, List.cons_append, popAll_cons, hpop] at houtcome
      cases houtcome
  refine ⟨h.through hrun (.inl ⟨hfifo, ?_⟩), hreleasing⟩
  rcases waiting_of_stepTape htape with hdone | ⟨hfree, hheld⟩
  · exact hdone
  · obtain ⟨id, ids, hids⟩ := List.exists_cons_of_ne_nil hblocks
    have hcount := h.blocks id
    rw [inUse, hfifo, hheld, hreleasing, hfree, hids] at hcount
    simp at hcount

theorem right_of_condition (h : Condition r) : Right r := by
  obtain ⟨d, hrun, hd⟩ := exists_result h.close
  refine ⟨no_endless_run, fun s hs hstuck => ?_, fun s hs => (inv_of_reachable hs).safe hrun hd⟩
  have hinv := inv_of_reachable hs
  obtain ⟨hthrough, hreleasing⟩ := hinv.through_of_stuck h.blocks hrun hstuck
  have hreleased : s.taken.Perm s.released := by
    rw [List.perm_iff_count]
    intro id
    have hcount := hinv.taken id
    rwa [inUse, hthrough.fifo, hthrough.tape, hreleasing] at hcount
  refine ⟨hthrough.tape, ?_, hthrough.fifo, hreleased, fun hyes => ?_, fun hno ht => ?_,
    fun hno ht => ?_⟩
  · rw [hthrough.disk]
    cases hcancelled : r.cancelled with
    | true => exact ⟨true, (hd.cancelled hcancelled).1⟩
    | false =>
      by_cases hs : Succeeds r
      · exact ⟨true, (hd.completed hcancelled hs).1.stage⟩
      · exact ⟨false, (hd.failed hcancelled hs).stage⟩
  · rw [hthrough.disk]
    exact (hd.cancelled hyes).2
  · rw [hthrough.disk]
    exact (hd.completed hno ((hthrough.transferred_iff hinv hd hno).mp ht)).1.reports
  · rw [hthrough.disk]
    have hnot := (hthrough.transferred_iff hinv hd hno).not.mp ht
    exact (hd.failed hno hnot).reports

structure Starved (s : State) : Prop where
  freeBlocks : s.freeBlocks = []
  fifo : s.fifo = []
  releasing : s.releasing = none
  tape : 0 < waits s.tape

theorem Starved.step (h : Starved s) (hstep : Step r s s') : Starved s' := by
  rcases hstep with htape | hdisk
  · cases tapeStep_of_stepTape htape with
    | position hwaits hnext => exact ⟨h.freeBlocks, h.fifo, h.releasing, hnext ▸ Nat.one_pos⟩
    | take hfree => rw [h.freeBlocks] at hfree; cases hfree
    | push hwaits =>
      have hpos := h.tape
      omega
  · rcases stepDisk_cases hdisk with ⟨id, hreleasing, -⟩ | ⟨item, fifo, disk, -, hfifo, -⟩
    · rw [h.releasing] at hreleasing
      cases hreleasing
    · rw [h.fifo] at hfifo
      cases hfifo

theorem starved_of_reachable (hblocks : r.blockIds = [])
    (h : Reachable (· = start r) (Step r) s) : Starved s := by
  refine h.invariant (fun s hs => ?_) fun s t hstarved hstep => hstarved.step hstep
  subst hs
  refine ⟨hblocks, rfl, rfl, ?_⟩
  cases hc : r.cancelled <;> simp [start, firstPc, hc, waits]

theorem condition_of_right (h : Right r) : Condition r := by
  obtain ⟨s, hs, hstuck⟩ := exists_stuck (Reachable.init (rfl : start r = start r))
  have hfinished := h.finished s hs hstuck
  refine ⟨fun hblocks => ?_, fun hclosing => ?_⟩
  · have hwaits := (starved_of_reachable hblocks hs).tape
    rw [hfinished.tape] at hwaits
    exact Nat.lt_irrefl 0 hwaits
  · by_contra hclose
    obtain ⟨d, hrun, houtcome⟩ := popAll_transferred hclosing.cancelled hclosing.positioned
      hclosing.written
    obtain ⟨msg, hdraining⟩ := houtcome.blocked hclosing.closes hclose
    have hthrough := (inv_of_reachable hs).through hrun (.inl ⟨hfinished.fifo, hfinished.tape⟩)
    obtain ⟨success, hreturned⟩ := hfinished.disk
    rw [hthrough.disk, hdraining] at hreturned
    cases hreturned

/-- All goes well exactly when there is a memory block, and the closing of the file on disk does not
fail where it is come to. -/
theorem recall_right_iff (r : Recall) : Right r ↔ Condition r :=
  ⟨condition_of_right, right_of_condition⟩

def oneByte (close : Option String) : Recall where
  task := ⟨4, false, false, ChecksumBlob.set {} .ADLER32 [98, 0, 98, 0], 8, 4, none, [[97]], none,
    by decide, by decide⟩
  file := ⟨none, fun _ => none, close⟩
  blockIds := [0, 1]
  cancelled := false

example : Right (oneByte none) := right_of_condition ⟨by simp [oneByte], fun _ => rfl⟩

theorem validate_oneByte (close : Option String) :
    validate (oneByte close).task (adler32 zeroAdler32 [97]) = .ok () := by
  have hsum : adler32 zeroAdler32 [97] = 0x00620062 := by decide
  have hvalid : (ChecksumBlob.set {} .ADLER32 [98, 0, 98, 0]).validate
      (ChecksumBlob.set {} .ADLER32 [98, 0, 98, 0]) = .ok () := validate_ok.mpr fun _ => rfl
  rw [hsum, validate]
  exact hvalid

theorem toBeClosed_oneByte (close : Option String) : ToBeClosed (oneByte close) where
  cancelled := rfl
  written := by simp [VerifyOnly, oneByte]
  positioned := rfl
  closes := ⟨⟨rfl, validate_oneByte close⟩, fun _ => rfl, fun _ => rfl, trivial⟩

/-- Where the file cannot be closed the disk side waits for a signal that never comes. -/
theorem oneByte_never_reported : ¬ Right (oneByte (some "Failed to close")) := by
  intro h
  have hclose := (condition_of_right h).close (toBeClosed_oneByte _)
  cases hclose

end Cta.Tape.RecalledFile

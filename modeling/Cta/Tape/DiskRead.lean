import Cta.Tape.DataPipeline

/-! The disk side of the migration of one file. -/
namespace Cta.Tape.DiskRead
open Cta.Tape.DataPipeline

/-- A task with all that its run depends on: what `checkMigrationFailing` sees each time it is
called, how the file is opened (with its real size) and what each read returns. -/
structure DiskReadTask where
  archiveFileID : Nat
  fileSize : Nat
  capacity : Nat
  migrationFailing : Nat → Bool
  createReadFile : Except String Nat
  read : Nat → Except String Nat
  fileSize_pos : 0 < fileSize
  fileSize_lt : fileSize < 2 ^ 64
  capacity_pos : 0 < capacity
  capacity_lt : capacity < 2 ^ 64
  read_le : ∀ i n, read i = .ok n → n ≤ capacity

def DiskReadTask.numberOfBlock (t : DiskReadTask) : Nat :=
  howManyBlocksNeeded t.fileSize t.capacity

def DiskReadTask.blocksNeeded (t : DiskReadTask) : Int := toInt t.numberOfBlock

inductive Ending where
  | ended
  /-- "DataFifo overflow on data blocks" leaves the function. -/
  | overflow
  /-- `getFreeBlock` waits for a block that never comes. -/
  | blocked
  deriving DecidableEq, Repr

structure Run where
  pushed : List MemBlock
  free : List Nat
  ending : Ending
  deriving DecidableEq

def Run.push (r : Run) (mb : MemBlock) : Run := { r with pushed := mb :: r.pushed }

variable (t : DiskReadTask)

def circulateAllBlocks : (count pushed : Nat) → (free : List Nat) → Run
  | 0, _, free => ⟨[], free, .ended⟩
  | _ + 1, _, [] => ⟨[], [], .blocked⟩
  | count + 1, pushed, id :: free =>
    if overflows t.blocksNeeded pushed then ⟨[], free, .overflow⟩
    else
      (circulateAllBlocks count (pushed + 1) free).push
        { MemBlock.fresh id with fileid := t.archiveFileID }.markAsCancelled

def failBlock (msg : String) (mb : MemBlock) (blockId pushed : Nat) (free : List Nat) : Run :=
  if overflows t.blocksNeeded pushed then ⟨[], free, .overflow⟩
  else
    (circulateAllBlocks t (t.numberOfBlock - blockId) (pushed + 1) free).push
      (mb.markAsFailed msg 666)

def failNext (msg : String) (blockId pushed : Nat) : List Nat → Run
  | [] => ⟨[], [], .blocked⟩
  | id :: free => failBlock t msg (MemBlock.fresh id) (blockId + 1) pushed free

def readLoop (blockId migratingFileSize : Nat) : List Nat → Run
  | [] =>
    if migratingFileSize = 0 then ⟨[], [], .ended⟩
    else if t.migrationFailing (blockId + 1) then
      circulateAllBlocks t (t.numberOfBlock - blockId) blockId []
    else ⟨[], [], .blocked⟩
  | id :: free =>
    if migratingFileSize = 0 then ⟨[], id :: free, .ended⟩
    else if t.migrationFailing (blockId + 1) then
      circulateAllBlocks t (t.numberOfBlock - blockId) blockId (id :: free)
    else
      let mb := { MemBlock.fresh id with fileid := t.archiveFileID, fileBlock := blockId }
      match t.read blockId with
      | .error msg => failBlock t msg mb (blockId + 1) blockId free
      | .ok n =>
        let mb := { mb with payloadSize := n }
        -- an unsigned 64-bit number: more bytes than announced wrap around
        let migratingFileSize := (migratingFileSize + 2 ^ 64 - n) % 2 ^ 64
        if overflows t.blocksNeeded blockId then
          failBlock t "DataFifo overflow on data blocks" mb (blockId + 1) blockId free
        else if n ≠ t.capacity ∧ 0 < migratingFileSize then
          let msg := "Error while reading a file: memory block not filled up, but the file is " ++
            "not fully read yet"
          let failed := mb.markAsFailed msg 666
          -- the block was pushed and is still at hand when the exception is caught
          (failBlock t msg failed (blockId + 1) (blockId + 1) free).push failed
        else (readLoop (blockId + 1) migratingFileSize free).push mb

def execute (free : List Nat) : Run :=
  if t.migrationFailing 0 then circulateAllBlocks t t.numberOfBlock 0 free
  else
    match t.createReadFile with
    | .error msg => failNext t msg 0 0 free
    | .ok size =>
      if t.fileSize ≠ size then
        failNext t "Mismatch between size given by the client and the real one" 0 0 free
      else readLoop t 0 t.fileSize free

structure ProvidedBlocks where
  ids : List Nat
  all : ids.length = t.blocksNeeded.toNat

/-- The task takes as many blocks as the file needs, pushes each of them once, and the pipeline
is finished when every one of them was popped, not before. -/
structure Meets (free : List Nat) (r : Run) : Prop where
  ended : r.ending = .ended
  taken : r.free.length + t.numberOfBlock = free.length ∧ r.free = free.drop t.numberOfBlock
  once : r.pushed.map (·.memoryBlockId) = free.take t.numberOfBlock
  finished : ∀ popped ≤ r.pushed.length,
    DataPipeline.finished t.blocksNeeded popped = true ↔ popped = r.pushed.length

/-- The reads of the last `count` blocks, of which `remaining` bytes are announced, return what
was announced, as far as they are made. More bytes than announced make no harm where the error
flag is up after the last block. -/
def ReadsOk : (count blockId remaining : Nat) → Prop
  | 0, _, _ => True
  | count + 1, blockId, remaining =>
    t.migrationFailing (blockId + 1) = true ∨
      match t.read blockId with
      | .error _ => True
      | .ok n =>
        if count = 0 then
          n = remaining ∨
            (remaining < n ∧ n = t.capacity ∧ t.migrationFailing (blockId + 2) = true)
        else n = t.capacity ∧ ReadsOk count (blockId + 1) (remaining - t.capacity)

def Opened : Prop := t.migrationFailing 0 = false ∧ t.createReadFile = .ok t.fileSize

structure Good (free : List Nat) (r : Run) : Prop where
  ended : r.ending = .ended
  left : r.free = []
  once : r.pushed.map (·.memoryBlockId) = free

variable {t}

theorem push_ending (r : Run) (mb : MemBlock) : (r.push mb).ending = r.ending := rfl

theorem good_push {r : Run} {mb : MemBlock} {id : Nat} {free : List Nat}
    (hid : mb.memoryBlockId = id) : Good (id :: free) (r.push mb) ↔ Good free r := by
  constructor
  · intro h
    refine ⟨h.ended, h.left, ?_⟩
    have := h.once
    simp only [Run.push, List.map_cons] at this
    exact (List.cons.inj this).2
  · intro h
    refine ⟨h.ended, h.left, ?_⟩
    simp [Run.push, hid, h.once]

theorem overflows_eq (hn : t.blocksNeeded = t.numberOfBlock) (pushed : Nat) :
    overflows t.blocksNeeded pushed = decide (t.numberOfBlock ≤ pushed) := by
  simp [overflows, hn]

theorem circulateAllBlocks_good (hn : t.blocksNeeded = t.numberOfBlock) (count pushed : Nat)
    (free : List Nat) (hf : free.length = count) (hp : pushed + count ≤ t.numberOfBlock) :
    Good free (circulateAllBlocks t count pushed free) := by
  induction count generalizing pushed free with
  | zero =>
    have hnil : free = [] := List.length_eq_zero_iff.mp hf
    subst hnil
    exact ⟨rfl, rfl, rfl⟩
  | succ count ih =>
    cases free with
    | nil => cases hf
    | cons id free =>
      have hroom : ¬t.numberOfBlock ≤ pushed := by omega
      simp only [circulateAllBlocks, overflows_eq hn, hroom, decide_false, Bool.false_eq_true,
        if_false]
      refine (good_push ?_).mpr (ih (pushed + 1) free (Nat.succ.inj hf) (by omega))
      rfl

theorem circulateAllBlocks_bad (hn : t.blocksNeeded = t.numberOfBlock) (count pushed : Nat)
    (free : List Nat) (hp : pushed ≤ t.numberOfBlock) (hmany : t.numberOfBlock < pushed + count) :
    (circulateAllBlocks t count pushed free).ending ≠ .ended := by
  induction count generalizing pushed free with
  | zero => omega
  | succ count ih =>
    cases free with
    | nil => simp [circulateAllBlocks]
    | cons id free =>
      rw [circulateAllBlocks]
      split
      · simp
      · next hroom =>
        simp only [overflows_eq hn, decide_eq_true_eq] at hroom
        exact ih (pushed + 1) free (by omega) (by omega)

theorem failBlock_good (hn : t.blocksNeeded = t.numberOfBlock) {msg : String} {mb : MemBlock}
    {id blockId : Nat} {free : List Nat} (hid : mb.memoryBlockId = id)
    (hf : blockId + 1 + free.length = t.numberOfBlock) :
    Good (id :: free) (failBlock t msg mb (blockId + 1) blockId free) := by
  have hroom : ¬t.numberOfBlock ≤ blockId := by omega
  simp only [failBlock, overflows_eq hn, hroom, decide_false, Bool.false_eq_true, if_false]
  refine (good_push (by simpa [MemBlock.markAsFailed] using hid)).mpr ?_
  exact circulateAllBlocks_good hn _ _ _ (by omega) (by omega)

theorem failBlock_again_bad (hn : t.blocksNeeded = t.numberOfBlock) {msg : String} {mb : MemBlock}
    {blockId : Nat} {free : List Nat} :
    (failBlock t msg mb (blockId + 1) (blockId + 1) free).ending ≠ .ended := by
  unfold failBlock
  split
  · simp
  · next hroom =>
    simp only [overflows_eq hn, decide_eq_true_eq] at hroom
    exact circulateAllBlocks_bad hn _ _ _ (by omega) (by omega)

theorem readLoop_zero (blockId : Nat) (free : List Nat) :
    readLoop t blockId 0 free = ⟨[], free, .ended⟩ := by
  cases free with
  | nil => simp [readLoop]
  | cons id free => simp [readLoop]

theorem remaining_of_le {remaining n : Nat} (hr : remaining < 2 ^ 64) (hn : n ≤ remaining) :
    (remaining + 2 ^ 64 - n) % 2 ^ 64 = remaining - n := by
  omega

theorem remaining_of_lt {remaining n : Nat} (hlt : remaining < n) (hn : n < 2 ^ 64) :
    0 < (remaining + 2 ^ 64 - n) % 2 ^ 64 := by
  omega

theorem readLoop_nil {blockId remaining : Nat} (hr : 0 < remaining)
    (hb : blockId = t.numberOfBlock) :
    Good [] (readLoop t blockId remaining []) ↔ t.migrationFailing (blockId + 1) = true := by
  have hne : remaining ≠ 0 := Nat.pos_iff_ne_zero.mp hr
  simp only [readLoop, if_neg hne]
  cases hf : t.migrationFailing (blockId + 1) with
  | true =>
    have hzero : t.numberOfBlock - blockId = 0 := by omega
    rw [if_pos rfl, hzero]
    exact ⟨fun _ => rfl, fun _ => ⟨rfl, rfl, rfl⟩⟩
  | false => exact ⟨fun h => absurd h.ended (by simp), nofun⟩

/-- A block that was read: it is full, or nothing is left, and the rest of the loop is good. -/
theorem read_good_iff (hn : t.blocksNeeded = t.numberOfBlock) {mb failed : MemBlock} {msg : String}
    {id blockId n left : Nat} {free : List Nat} (hid : mb.memoryBlockId = id) :
    Good (id :: free)
        (if n ≠ t.capacity ∧ 0 < left then
          (failBlock t msg failed (blockId + 1) (blockId + 1) free).push failed
        else (readLoop t (blockId + 1) left free).push mb) ↔
      (n = t.capacity ∨ left = 0) ∧ Good free (readLoop t (blockId + 1) left free) := by
  by_cases hcond : n ≠ t.capacity ∧ 0 < left
  · rw [if_pos hcond]
    constructor
    · intro h
      have hended := h.ended
      rw [push_ending] at hended
      exact absurd hended (failBlock_again_bad hn)
    · intro h
      omega
  · rw [if_neg hcond, good_push hid]
    exact ⟨fun h => ⟨by omega, h⟩, fun h => h.2⟩

/-- The last block: no free block is left, and the loop goes on if it read too much. -/
theorem lastRead_good_iff {blockId n remaining : Nat} (hb : blockId + 1 = t.numberOfBlock)
    (hle : n ≤ t.capacity) (hlast : remaining ≤ t.capacity) (hr : remaining < 2 ^ 64) :
    ((n = t.capacity ∨ (remaining + 2 ^ 64 - n) % 2 ^ 64 = 0) ∧
        Good [] (readLoop t (blockId + 1) ((remaining + 2 ^ 64 - n) % 2 ^ 64) [])) ↔
      n = remaining ∨
        (remaining < n ∧ n = t.capacity ∧ t.migrationFailing (blockId + 2) = true) := by
  have hcap := t.capacity_lt
  cases Nat.lt_trichotomy n remaining with
  | inl hless =>
    rw [remaining_of_le hr (Nat.le_of_lt hless)]
    omega
  | inr hge =>
    cases hge with
    | inl heq =>
      rw [remaining_of_le hr (Nat.le_of_eq heq), heq, Nat.sub_self, readLoop_zero]
      exact ⟨fun _ => .inl rfl, fun _ => ⟨.inr rfl, rfl, rfl, rfl⟩⟩
    | inr hgreater =>
      have hleft := remaining_of_lt hgreater (by omega)
      rw [readLoop_nil hleft hb]
      constructor
      · exact fun h => .inr ⟨hgreater, by omega, h.2⟩
      · intro h
        cases h with
        | inl h => omega
        | inr h => exact ⟨.inl h.2.1, h.2.2⟩

theorem readLoop_good_iff (hn : t.blocksNeeded = t.numberOfBlock) (count blockId remaining : Nat)
    (free : List Nat) (hf : free.length = count) (hb : blockId + count = t.numberOfBlock)
    (hcount : howManyBlocksNeeded remaining t.capacity = count) (hr : remaining < 2 ^ 64) :
    Good free (readLoop t blockId remaining free) ↔ ReadsOk t count blockId remaining := by
  have hcap := t.capacity_pos
  induction count generalizing blockId remaining free with
  | zero =>
    have hzero : remaining = 0 := by
      by_contra hne
      have := howManyBlocksNeeded_pos hcap (Nat.pos_of_ne_zero hne)
      omega
    have hnil : free = [] := List.length_eq_zero_iff.mp hf
    rw [hzero, hnil, readLoop_zero]
    exact ⟨fun _ => trivial, fun _ => ⟨rfl, rfl, rfl⟩⟩
  | succ count ih =>
    have hpos : remaining ≠ 0 := by
      intro hzero
      rw [hzero, howManyBlocksNeeded_zero] at hcount
      cases hcount
    cases free with
    | nil => cases hf
    | cons id free =>
      have hlen : free.length = count := Nat.succ.inj hf
      simp only [readLoop, if_neg hpos, ReadsOk]
      cases hfail : t.migrationFailing (blockId + 1) with
      | true =>
        simp only [if_true, true_or, iff_true]
        exact circulateAllBlocks_good hn _ _ _ (by omega) (by omega)
      | false =>
        simp only [Bool.false_eq_true, if_false, false_or]
        cases hread : t.read blockId with
        | error msg =>
          simp only [iff_true]
          exact failBlock_good hn rfl (by omega)
        | ok n =>
          have hle := t.read_le blockId n hread
          have hroom : ¬t.numberOfBlock ≤ blockId := by omega
          simp only [overflows_eq hn, hroom, decide_false, Bool.false_eq_true, if_false]
          refine (read_good_iff hn ?_).trans ?_
          · rfl
          cases Nat.lt_or_ge t.capacity remaining with
          | inl hmore =>
            -- not the last block: it has to be full
            have hstep := howManyBlocksNeeded_step hcap hmore
            have hrest := howManyBlocksNeeded_pos hcap (Nat.sub_pos_of_lt hmore)
            have hne : count ≠ 0 := by omega
            rw [remaining_of_le hr (Nat.le_trans hle (Nat.le_of_lt hmore)), if_neg hne]
            have hfull : n = t.capacity ∨ remaining - n = 0 ↔ n = t.capacity := by omega
            rw [hfull]
            refine and_congr_right fun hfull => ?_
            rw [hfull]
            exact ih (blockId + 1) (remaining - t.capacity) free hlen (by omega) (by omega)
              (by omega)
          | inr hlast =>
            have hone := howManyBlocksNeeded_last (Nat.pos_of_ne_zero hpos) hlast
            have hzero : count = 0 := by omega
            have hnil : free = [] := List.length_eq_zero_iff.mp (by omega)
            rw [if_pos hzero, hnil]
            exact lastRead_good_iff (by omega) hle hlast hr

theorem failNext_good (hn : t.blocksNeeded = t.numberOfBlock) (msg : String) {free : List Nat}
    (hf : free.length = t.numberOfBlock) : Good free (failNext t msg 0 0 free) := by
  have hpos : 0 < t.numberOfBlock := howManyBlocksNeeded_pos t.capacity_pos t.fileSize_pos
  cases free with
  | nil =>
    have hzero : 0 = t.numberOfBlock := hf
    omega
  | cons id free =>
    have hlen : free.length + 1 = t.numberOfBlock := hf
    exact failBlock_good hn rfl (by omega)

theorem execute_good_iff (hn : t.blocksNeeded = t.numberOfBlock) {free : List Nat}
    (hf : free.length = t.numberOfBlock) :
    Good free (execute t free) ↔ (Opened t → ReadsOk t t.numberOfBlock 0 t.fileSize) := by
  unfold execute
  cases hfail : t.migrationFailing 0 with
  | true =>
    have hgood := circulateAllBlocks_good hn t.numberOfBlock 0 free hf (by omega)
    simp [Opened, hfail, hgood]
  | false =>
    cases hopen : t.createReadFile with
    | error msg => simp [Opened, hopen, failNext_good hn msg hf]
    | ok size =>
      by_cases hsize : t.fileSize = size
      · have hloop := readLoop_good_iff hn t.numberOfBlock 0 t.fileSize free hf (by omega) rfl
          t.fileSize_lt
        simpa [Opened, hfail, hopen, hsize] using hloop
      · have hgood := failNext_good hn
          "Mismatch between size given by the client and the real one" hf
        simp [Opened, hopen, hsize, Ne.symm hsize, hgood]

variable (t)

/-- With as many blocks as the pipeline accepts, the task meets its contract exactly if the number
of blocks is an `int` and the reads that are made return what was announced. -/
theorem blocks_taken_iff (b : ProvidedBlocks t) :
    Meets t b.ids (execute t b.ids) ↔
      t.numberOfBlock < 2 ^ 31 ∧ (Opened t → ReadsOk t t.numberOfBlock 0 t.fileSize) := by
  have hall := b.all
  cases Nat.lt_or_ge t.numberOfBlock (2 ^ 31) with
  | inl hsmall =>
    have hn : t.blocksNeeded = t.numberOfBlock := toInt_of_lt hsmall
    have hf : b.ids.length = t.numberOfBlock := by
      rw [hall, hn]
      rfl
    rw [← execute_good_iff hn hf]
    have htake : b.ids.take t.numberOfBlock = b.ids := List.take_of_length_le (by omega)
    have hdrop : b.ids.drop t.numberOfBlock = [] := List.drop_of_length_le (by omega)
    constructor
    · intro h
      exact ⟨hsmall, h.ended, by rw [h.taken.2, hdrop], by rw [h.once, htake]⟩
    · intro h
      have hg := h.2
      have hpushed : (execute t b.ids).pushed.length = t.numberOfBlock := by
        have := congrArg List.length hg.once
        rwa [List.length_map, hf] at this
      refine ⟨hg.ended, ⟨by simp [hg.left, hf], by rw [hg.left, hdrop]⟩, by rw [hg.once, htake], ?_⟩
      intro popped hle
      simp only [DataPipeline.finished, hn, decide_eq_true_eq]
      omega
  | inr hlarge =>
    have hlt : t.blocksNeeded < t.numberOfBlock := toInt_lt_of_le hlarge
    constructor
    · intro h
      have := h.taken.1
      omega
    · intro h
      omega

def shortRead : DiskReadTask where
  archiveFileID := 1
  fileSize := 10
  capacity := 4
  migrationFailing := fun _ => false
  createReadFile := .ok 10
  read := fun i => .ok (if i = 0 then 3 else 4)
  fileSize_pos := by decide
  fileSize_lt := by decide
  capacity_pos := by decide
  capacity_lt := by decide
  read_le := by
    intro i n h
    have := Except.ok.inj h
    split at this <;> omega

/-- The short block is pushed twice, and the pipeline has no room for the third block. -/
theorem shortRead_overflows :
    ∃ b : ProvidedBlocks shortRead, (execute shortRead b.ids).ending = .overflow ∧
      ¬Meets shortRead b.ids (execute shortRead b.ids) := by
  refine ⟨⟨[0, 1, 2], by decide⟩, by decide, ?_⟩
  intro h
  have := h.ended
  exact absurd this (by decide)

end Cta.Tape.DiskRead

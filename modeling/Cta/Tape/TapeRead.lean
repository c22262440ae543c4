import Cta.Tape.DataPipeline
import Cta.Common.ChecksumBlob

/-! The tape side of the recall of one file. -/
namespace Cta.Tape.TapeRead
open Cta.Tape.DataPipeline (AlterationContext toInt)
open Cta.Common.Checksum

def adler32 (adler : UInt32) (buf : List UInt8) : UInt32 :=
  buf.foldl (fun adler c =>
    let a := (adler.toNat % 65536 + c.toNat) % 65521
    let b := (adler.toNat / 65536 + a) % 65521
    UInt32.ofNat (b * 65536 + a)) adler

def zeroAdler32 : UInt32 := 1

theorem adler32_append (adler : UInt32) (buf buf' : List UInt8) :
    adler32 adler (buf ++ buf') = adler32 (adler32 adler buf) buf' := List.foldl_append

/-- What a memory block carries. The numbers of the file and of the block are -1 where they are not
set. -/
structure Content where
  fileid : Int
  fileBlock : Int
  payload : List UInt8
  context : Option AlterationContext
  deriving DecidableEq, Repr

namespace Content

def isFailed (c : Content) : Bool :=
  match c.context with
  | some (.failed _ _) => true
  | _ => false

def isCanceled (c : Content) : Bool :=
  match c.context with
  | some .cancelled => true
  | _ => false

def isVerifyOnly (c : Content) : Bool :=
  match c.context with
  | some .verifyOnly => true
  | _ => false

def markAsFailed (c : Content) (msg : String) (errCode : Int) : Content :=
  { c with context := some (.failed msg errCode), fileBlock := -1 }

def markAsCancelled (c : Content) : Content :=
  { c with context := some .cancelled, fileBlock := -1 }

def markAsVerifyOnly (c : Content) : Content := { c with context := some .verifyOnly }

end Content

structure MemBlock where
  memoryBlockId : Nat
  content : Content
  deriving DecidableEq, Repr

/-- A task, with what the reader makes of the file on tape: what it throws when it is opened, the
blocks it returns, each of them no longer than the block size, and what it throws behind them if
that is not the end of the file. A memory block holds at least a block of the tape. -/
structure TapeReadTask where
  archiveFileID : Nat
  isRepack : Bool
  isVerifyOnly : Bool
  checksumBlob : ChecksumBlob
  capacity : Nat
  blockSize : Nat
  openFileReader : Option String
  blocks : List (List UInt8)
  behind : Option String
  blockSize_le : blockSize ≤ capacity
  length_le : ∀ block ∈ blocks, block.length ≤ blockSize

inductive Stop where
  | full
  | endOfFile
  | failed (msg : String)
  deriving DecidableEq, Repr

/-- What the loop on `append` has put into a memory block, and what is left on tape. -/
structure Filled where
  payload : List UInt8
  rest : List (List UInt8)
  stop : Stop
  deriving DecidableEq, Repr

variable (t : TapeReadTask)

def remainingFreeSpace (payload : List UInt8) : Nat := t.capacity - payload.length

def tooLittleSpace (payload : List UInt8) : String :=
  "Trying to read a tape file block with too little space left: BlockSize=" ++
    toString t.blockSize ++ " remainingFreeSpace=" ++ toString (remainingFreeSpace t payload) ++
    " (totalSize=" ++ toString t.capacity ++ ")"

def atEnd : Stop :=
  match t.behind with
  | none => .endOfFile
  | some msg => .failed msg

/-- The calls of `append` until there is no more space or one of them throws. -/
def fill : List (List UInt8) → List UInt8 → Filled
  | [], payload =>
    if t.blockSize > remainingFreeSpace t payload then
      ⟨payload, [], .failed (tooLittleSpace t payload)⟩
    else ⟨payload, [], atEnd t⟩
  | block :: rest, payload =>
    if t.blockSize > remainingFreeSpace t payload then
      ⟨payload, block :: rest, .failed (tooLittleSpace t payload)⟩
    else if t.blockSize ≤ remainingFreeSpace t (payload ++ block) then fill rest (payload ++ block)
    else ⟨payload ++ block, rest, .full⟩

def message : Failure → String
  | .checksumValueMismatch msg | .checksumTypeMismatch msg | .checksumBlobSizeMismatch msg => msg

def validate (checksum_adler32 : UInt32) : Except Failure Unit := do
  let tapeReadChecksum ← ChecksumBlob.insertInteger {} .ADLER32 checksum_adler32
  t.checksumBlob.validate tapeReadChecksum

def freshContent : Content := ⟨t.archiveFileID, -1, [], none⟩

def fileContent (fileBlock : Nat) (payload : List UInt8) : Content :=
  let c : Content := { freshContent t with fileBlock := toInt fileBlock, payload := payload }
  if t.isRepack then c else if t.isVerifyOnly then c.markAsVerifyOnly else c

inductive Pc where
  | positioning
  /-- The loop waits for a free block, with what is left on tape and the counters so far. -/
  | reading (rest : List (List UInt8)) (fileBlock : Nat) (checksum_adler32 : UInt32)
  | pushing (mb : MemBlock) (next : Pc)
  /-- `reportErrorToDiskTask` waits for a free block. -/
  | failing (msg : String)
  /-- `reportCancellationToDiskTask` waits for a free block. -/
  | cancelling
  /-- The signal of the end is to be pushed. -/
  | signalling
  | done
  deriving DecidableEq, Repr

def readBlock (memoryBlockId : Nat) (rest : List (List UInt8)) (fileBlock : Nat)
    (checksum_adler32 : UInt32) : Pc :=
  let filled := fill t rest []
  let c := fileContent t fileBlock filled.payload
  let checksum_adler32 := adler32 checksum_adler32 filled.payload
  match filled.stop with
  | .failed msg => .pushing ⟨memoryBlockId, c.markAsFailed msg 666⟩ .signalling
  | .full => .pushing ⟨memoryBlockId, c⟩ (.reading filled.rest (fileBlock + 1) checksum_adler32)
  | .endOfFile =>
    match validate t checksum_adler32 with
    | .error f => .pushing ⟨memoryBlockId, c.markAsFailed (message f) 666⟩ .signalling
    | .ok () => .pushing ⟨memoryBlockId, c⟩ .signalling

/-- The blocks of the loop and the signal, from a part of a memory block on. -/
def contentsFrom : List (List UInt8) → List UInt8 → Nat → UInt32 → List (Option Content)
  | [], payload, fileBlock, checksum_adler32 =>
    let c := fileContent t fileBlock payload
    match t.behind with
    | some msg => [some (c.markAsFailed msg 666), none]
    | none =>
      match validate t (adler32 checksum_adler32 payload) with
      | .error f => [some (c.markAsFailed (message f) 666), none]
      | .ok () => [some c, none]
  | block :: rest, payload, fileBlock, checksum_adler32 =>
    let payload := payload ++ block
    if t.blockSize ≤ remainingFreeSpace t payload then
      contentsFrom rest payload fileBlock checksum_adler32
    else
      some (fileContent t fileBlock payload) ::
        contentsFrom rest [] (fileBlock + 1) (adler32 checksum_adler32 payload)

def contents : Pc → List (Option Content)
  | .positioning =>
    match t.openFileReader with
    | none => contentsFrom t t.blocks [] 0 zeroAdler32
    | some msg => [some ((freshContent t).markAsFailed msg 666), none]
  | .reading rest fileBlock checksum_adler32 => contentsFrom t rest [] fileBlock checksum_adler32
  | .pushing mb next => some mb.content :: contents next
  | .failing msg => [some ((freshContent t).markAsFailed msg 666), none]
  | .cancelling => [some (freshContent t).markAsCancelled]
  | .signalling => [none]
  | .done => []

variable {t} {rest : List (List UInt8)} {payload : List UInt8} {fileBlock id : Nat}
  {checksum_adler32 : UInt32}

theorem fits_nil : ¬ t.blockSize > remainingFreeSpace t [] := by
  have := t.blockSize_le
  simpa [remainingFreeSpace] using this

theorem contents_fill (hfits : ¬ t.blockSize > remainingFreeSpace t payload) :
    contentsFrom t rest payload fileBlock checksum_adler32 =
      let filled := fill t rest payload
      let c := fileContent t fileBlock filled.payload
      let checksum_adler32 := adler32 checksum_adler32 filled.payload
      match filled.stop with
      | .failed msg => [some (c.markAsFailed msg 666), none]
      | .full => some c :: contentsFrom t filled.rest [] (fileBlock + 1) checksum_adler32
      | .endOfFile =>
        match validate t checksum_adler32 with
        | .error f => [some (c.markAsFailed (message f) 666), none]
        | .ok () => [some c, none] := by
  induction rest generalizing payload with
  | nil =>
    simp only [contentsFrom, fill, if_neg hfits, atEnd]
    cases t.behind with
    | some msg => rfl
    | none => rfl
  | cons block rest ih =>
    rw [contentsFrom, fill, if_neg hfits]
    by_cases hmore : t.blockSize ≤ remainingFreeSpace t (payload ++ block)
    · simp only [if_pos hmore]
      exact ih (Nat.not_lt.mpr hmore)
    · simp only [if_neg hmore]

variable (rest) in
theorem fill_spec (hfits : ¬ t.blockSize > remainingFreeSpace t payload) :
    ∃ read, rest = read ++ (fill t rest payload).rest ∧
      ((fill t rest payload).stop = .endOfFile →
        (fill t rest payload).rest = [] ∧ t.behind = none) ∧
      ∀ msg, (fill t rest payload).stop = .failed msg → t.behind = some msg := by
  induction rest generalizing payload with
  | nil =>
    refine ⟨[], ?_⟩
    rw [fill, if_neg hfits, atEnd]
    cases t.behind with
    | none => simp
    | some msg => simp
  | cons block rest ih =>
    rw [fill, if_neg hfits]
    by_cases hmore : t.blockSize ≤ remainingFreeSpace t (payload ++ block)
    · rw [if_pos hmore]
      obtain ⟨read, hread, hstop⟩ := ih (Nat.not_lt.mpr hmore)
      exact ⟨block :: read, congrArg (block :: ·) hread, hstop⟩
    · rw [if_neg hmore]
      exact ⟨[block], rfl, by simp⟩

theorem contents_readBlock : contents t (readBlock t id rest fileBlock checksum_adler32) =
    contents t (.reading rest fileBlock checksum_adler32) := by
  rw [contents, contents_fill fits_nil, readBlock]
  dsimp only
  cases (fill t rest []).stop with
  | failed msg => rfl
  | full => rfl
  | endOfFile =>
    cases validate t (adler32 checksum_adler32 (fill t rest []).payload) with
    | error e => rfl
    | ok u => rfl

variable (t rest payload fileBlock checksum_adler32) in
theorem exists_contentsFrom : ∃ cs : List Content,
    contentsFrom t rest payload fileBlock checksum_adler32 = cs.map some ++ [none] := by
  induction rest generalizing payload fileBlock checksum_adler32 with
  | nil =>
    simp only [contentsFrom]
    cases t.behind with
    | some msg => exact ⟨[_], rfl⟩
    | none =>
      dsimp only
      split
      · exact ⟨[_], rfl⟩
      · exact ⟨[_], rfl⟩
  | cons block rest ih =>
    simp only [contentsFrom]
    split
    · exact ih _ _ _
    · obtain ⟨cs, hcs⟩ := ih [] (fileBlock + 1) (adler32 checksum_adler32 (payload ++ block))
      exact ⟨_ :: cs, by rw [hcs]; rfl⟩

theorem eq_done_of_contents {pc : Pc} (h : contents t pc = []) : pc = .done := by
  cases pc with
  | positioning =>
    rw [contents] at h
    split at h
    · obtain ⟨cs, hcs⟩ := exists_contentsFrom t t.blocks [] 0 zeroAdler32
      simp [hcs] at h
    · cases h
  | reading rest fileBlock checksum_adler32 =>
    obtain ⟨cs, hcs⟩ := exists_contentsFrom t rest [] fileBlock checksum_adler32
    simp [contents, hcs] at h
  | pushing mb next => cases h
  | failing msg => cases h
  | cancelling => cases h
  | signalling => cases h
  | done => rfl

end Cta.Tape.TapeRead

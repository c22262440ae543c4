import Cta.Tape.TapeRead

/-! The disk side of the recall of one file. -/
namespace Cta.Tape.DiskWrite
open Cta.Tape.TapeRead
open Cta.Tape.DataPipeline (toInt)

inductive Report where
  | completed (transferredSize : Nat) (transferredChecksumValue : UInt32)
  | failed (msg : String)
  deriving DecidableEq, Repr

structure WriteFile where
  content : List UInt8
  closed : Bool
  deriving DecidableEq, Repr

/-- What the calls on the disk file throw: to create it, to write the data of a block, and to set
the checksum and close it. -/
structure DiskFile where
  createWriteFile : Option String
  write : Nat → Option String
  close : Option String

inductive Stage where
  | popping
  /-- `releaseAllBlock`, after an exception. -/
  | draining (msg : String)
  | returned (success : Bool)
  /-- There is no file to close. -/
  | nullPointer
  deriving DecidableEq, Repr

structure DiskWriteTask where
  stage : Stage
  isVerifyOnly : Bool
  blockId : Nat
  checksum : UInt32
  dataVolume : Nat
  writeFile : Option WriteFile
  reports : List Report
  deriving DecidableEq, Repr

def start : DiskWriteTask := ⟨.popping, false, 0, zeroAdler32, 0, none, []⟩

namespace DiskWriteTask
variable (archiveFileID : Nat) (f : DiskFile) (d : DiskWriteTask)

def thrown (msg : String) : DiskWriteTask := { d with stage := .draining msg }

def checkErrors (c : Content) : Option String :=
  if (archiveFileID : Int) ≠ c.fileid ∨ toInt d.blockId ≠ c.fileBlock ∨ c.isFailed = true then
    match c.context with
    | some (.failed errorMsg _) => some errorMsg
    | _ => some "Mismatch between expected and received fileid or blockid"
  else none

def writeData (file : WriteFile) (payload : List UInt8) : DiskWriteTask :=
  let d := { d with writeFile := some file, dataVolume := d.dataVolume + payload.length }
  match if payload = [] then none else f.write d.blockId with
  | some msg => d.thrown msg
  | none =>
    { d with
      writeFile := some { file with content := file.content ++ payload }
      checksum := adler32 d.checksum payload
      blockId := d.blockId + 1 }

def popBlock (c : Content) : DiskWriteTask :=
  if c.isVerifyOnly then { d with isVerifyOnly := true }
  else if c.isCanceled then { d with stage := .returned true }
  else
    match d.checkErrors archiveFileID c with
    | some msg => d.thrown msg
    | none =>
      match d.writeFile with
      | some file => d.writeData f file c.payload
      | none =>
        match f.createWriteFile with
        | some msg => d.thrown msg
        | none => d.writeData f ⟨[], false⟩ c.payload

def complete : DiskWriteTask :=
  { d with
    stage := .returned true
    reports := d.reports ++ [.completed d.dataVolume d.checksum] }

def popSignal : DiskWriteTask :=
  if d.isVerifyOnly then d.complete
  else
    match d.writeFile with
    | none => { d with stage := .nullPointer }
    | some file =>
      match f.close with
      -- the signal is popped already when the blocks in front of one are released
      | some msg => d.thrown msg
      | none => { d with writeFile := some { file with closed := true } }.complete

/-- What the task does with what it pops. `none`: it does not pop any more. -/
def pop (item : Option Content) : Option DiskWriteTask :=
  match d.stage with
  | .popping =>
    match item with
    | some c => some (d.popBlock archiveFileID f c)
    | none => some (d.popSignal f)
  | .draining msg =>
    match item with
    | some _ => some d
    | none => some { d with stage := .returned false, reports := d.reports ++ [.failed msg] }
  | .returned _ | .nullPointer => none

def popAll (items : List (Option Content)) : Option DiskWriteTask :=
  items.foldlM (pop archiveFileID f) d

end DiskWriteTask

/-- The reader comes to the end of the file, and the checksum is that of the catalogue. -/
def Ends (t : TapeReadTask) (rest : List (List UInt8)) (payload : List UInt8)
    (checksum_adler32 : UInt32) : Prop :=
  t.behind = none ∧ validate t (adler32 checksum_adler32 (payload ++ rest.flatten)) = .ok ()

def payloadsFrom (t : TapeReadTask) : List (List UInt8) → List UInt8 → List (List UInt8)
  | [], payload => [payload]
  | block :: rest, payload =>
    if t.blockSize ≤ remainingFreeSpace t (payload ++ block) then
      payloadsFrom t rest (payload ++ block)
    else (payload ++ block) :: payloadsFrom t rest []

/-- The data of the blocks, from a number on, is written. -/
def WritesOk (f : DiskFile) : Nat → List (List UInt8) → Prop
  | _, [] => True
  | blockId, payload :: payloads =>
    (payload ≠ [] → f.write blockId = none) ∧ WritesOk f (blockId + 1) payloads

def VerifyOnly (t : TapeReadTask) : Prop := t.isRepack = false ∧ t.isVerifyOnly = true

structure Failed (d : DiskWriteTask) : Prop where
  stage : d.stage = .returned false
  reports : ∃ msg, d.reports = [.failed msg]
  closed : ∀ file ∈ d.writeFile, file.closed = false

structure Completed (d : DiskWriteTask) : Prop where
  stage : d.stage = .returned true
  reports : ∃ size checksum, d.reports = [.completed size checksum]

section Outcome
variable {t : TapeReadTask} {f : DiskFile} {d : DiskWriteTask} {rest : List (List UInt8)}
  {payload : List UInt8} {fileBlock : Nat} {checksum_adler32 : UInt32}

theorem ends_cons {block : List UInt8} : Ends t (block :: rest) payload checksum_adler32 ↔
    Ends t rest [] (adler32 checksum_adler32 (payload ++ block)) := by
  rw [Ends, Ends, List.nil_append, ← adler32_append, List.flatten_cons, List.append_assoc]

theorem ends_append {block : List UInt8} : Ends t (block :: rest) payload checksum_adler32 ↔
    Ends t rest (payload ++ block) checksum_adler32 := by
  rw [Ends, Ends, List.flatten_cons, List.append_assoc]

theorem validate_of_ends (h : Ends t [] payload checksum_adler32) :
    validate t (adler32 checksum_adler32 payload) = .ok () := by
  have hvalid := h.2
  rwa [List.flatten_nil, List.append_nil] at hvalid

theorem popAll_cons (item : Option Content) (items : List (Option Content)) :
    d.popAll t.archiveFileID f (item :: items) =
      (d.pop t.archiveFileID f item).bind fun d' => d'.popAll t.archiveFileID f items :=
  List.foldlM_cons

theorem pop_block (h : d.stage = .popping) (c : Content) :
    d.pop t.archiveFileID f (some c) = some (d.popBlock t.archiveFileID f c) := by
  simp only [DiskWriteTask.pop, h]

theorem pop_signal (h : d.stage = .popping) :
    d.pop t.archiveFileID f none = some (d.popSignal f) := by
  simp only [DiskWriteTask.pop, h]

theorem writeData_reports (file : WriteFile) :
    (d.writeData f file payload).reports = d.reports := by
  unfold DiskWriteTask.writeData
  dsimp only
  split <;> rfl

theorem popBlock_reports (c : Content) : (d.popBlock t.archiveFileID f c).reports = d.reports := by
  unfold DiskWriteTask.popBlock
  split
  · rfl
  · split
    · rfl
    · split
      · rfl
      · split
        · exact writeData_reports _
        · split
          · rfl
          · exact writeData_reports _

theorem pop_reports {d' : DiskWriteTask} {item : Option Content}
    (hpop : d.pop t.archiveFileID f item = some d') (hreports : d.reports = []) :
    (∃ success, d'.stage = .returned success) ∨ d'.reports = [] := by
  cases hstage : d.stage with
  | popping =>
    cases item with
    | some c =>
      rw [pop_block hstage] at hpop
      obtain rfl := Option.some.inj hpop
      exact .inr ((popBlock_reports c).trans hreports)
    | none =>
      rw [pop_signal hstage] at hpop
      obtain rfl := Option.some.inj hpop
      unfold DiskWriteTask.popSignal
      split
      · exact .inl ⟨true, rfl⟩
      · split
        · exact .inr hreports
        · split
          · exact .inr hreports
          · exact .inl ⟨true, rfl⟩
  | draining msg =>
    cases item with
    | some c =>
      simp only [DiskWriteTask.pop, hstage, Option.some.injEq] at hpop
      exact .inr (hpop ▸ hreports)
    | none =>
      simp only [DiskWriteTask.pop, hstage, Option.some.injEq] at hpop
      exact .inl ⟨false, hpop ▸ rfl⟩
  | returned success => simp [DiskWriteTask.pop, hstage] at hpop
  | nullPointer => simp [DiskWriteTask.pop, hstage] at hpop

/-- After an exception everything up to the signal is released. -/
theorem popAll_draining {msg : String} (hstage : d.stage = .draining msg)
    (hreports : d.reports = []) (hclosed : ∀ file ∈ d.writeFile, file.closed = false)
    (cs : List Content) : ∃ d', d.popAll t.archiveFileID f (cs.map some ++ [none]) = some d' ∧
      Failed d' := by
  induction cs with
  | nil =>
    refine ⟨{ d with stage := .returned false, reports := d.reports ++ [.failed msg] }, ?_,
      rfl, ⟨msg, ?_⟩, hclosed⟩
    · rw [List.map_nil, List.nil_append, popAll_cons]
      simp only [DiskWriteTask.pop, hstage]
      rfl
    · rw [hreports, List.nil_append]
  | cons c cs ih =>
    rw [List.map_cons, List.cons_append, popAll_cons]
    simp only [DiskWriteTask.pop, hstage]
    exact ih

variable (t f) in
theorem popAll_failed (c : Content) (msg : String) (code : Int) (hstage : d.stage = .popping)
    (hreports : d.reports = []) (hclosed : ∀ file ∈ d.writeFile, file.closed = false) :
    ∃ d', d.popAll t.archiveFileID f [some (c.markAsFailed msg code), none] = some d' ∧
      Failed d' := by
  have hpop : d.popBlock t.archiveFileID f (c.markAsFailed msg code) = d.thrown msg := by
    simp [DiskWriteTask.popBlock, Content.markAsFailed, Content.isVerifyOnly, Content.isCanceled,
      DiskWriteTask.checkErrors, Content.isFailed]
  rw [popAll_cons, pop_block hstage, hpop]
  exact popAll_draining (d := d.thrown msg) rfl hreports hclosed []

theorem popBlock_verifyOnly (ht : VerifyOnly t) (fileBlock : Nat) (payload : List UInt8) :
    d.popBlock t.archiveFileID f (fileContent t fileBlock payload) =
      { d with isVerifyOnly := true } := by
  simp [DiskWriteTask.popBlock, fileContent, ht.1, ht.2, Content.markAsVerifyOnly,
    Content.isVerifyOnly]

variable (f rest payload fileBlock checksum_adler32) in
theorem popAll_verifyOnly (ht : VerifyOnly t) (hstage : d.stage = .popping)
    (hreports : d.reports = []) (hfile : d.writeFile = none) :
    ∃ d', d.popAll t.archiveFileID f (contentsFrom t rest payload fileBlock checksum_adler32) =
      some d' ∧ (Ends t rest payload checksum_adler32 → Completed d') ∧
        (¬ Ends t rest payload checksum_adler32 → Failed d') := by
  have hclosed : ∀ file ∈ d.writeFile, file.closed = false := by simp [hfile]
  induction rest generalizing d payload fileBlock checksum_adler32 with
  | nil =>
    simp only [contentsFrom]
    cases hbehind : t.behind with
    | some msg =>
      obtain ⟨d', hrun, hfailed⟩ := popAll_failed t f _ _ _ hstage hreports hclosed
      refine ⟨d', hrun, fun h => ?_, fun _ => hfailed⟩
      rw [h.1] at hbehind
      cases hbehind
    | none =>
      dsimp only
      cases hvalid : validate t (adler32 checksum_adler32 payload) with
      | error e =>
        obtain ⟨d', hrun, hfailed⟩ := popAll_failed t f _ _ _ hstage hreports hclosed
        refine ⟨d', hrun, fun h => ?_, fun _ => hfailed⟩
        rw [validate_of_ends h] at hvalid
        cases hvalid
      | ok u =>
        have hsignal := pop_signal (t := t) (f := f) (d := { d with isVerifyOnly := true }) hstage
        refine ⟨{ d with isVerifyOnly := true }.complete, ?_, fun _ => ?_, fun h => ?_⟩
        · rw [popAll_cons, pop_block hstage, popBlock_verifyOnly ht, Option.bind_some, popAll_cons,
            hsignal]
          rfl
        · exact ⟨rfl, _, _, congrArg (· ++ [_]) hreports⟩
        · exact absurd ⟨hbehind, by rw [List.flatten_nil, List.append_nil, hvalid]⟩ h
  | cons block rest ih =>
    simp only [contentsFrom]
    split
    · rw [ends_append]
      exact ih _ _ _ hstage hreports hfile hclosed
    · rw [popAll_cons, pop_block hstage, popBlock_verifyOnly ht, Option.bind_some, ends_cons]
      exact ih (d := { d with isVerifyOnly := true }) _ _ _ hstage hreports hfile hclosed

/-- The blocks before this one are written. -/
structure Writing (d : DiskWriteTask) (fileBlock : Nat) (content : List UInt8) : Prop where
  stage : d.stage = .popping
  isVerifyOnly : d.isVerifyOnly = false
  blockId : d.blockId = fileBlock
  reports : d.reports = []
  file : d.writeFile = none ∧ content = [] ∨ d.writeFile = some ⟨content, false⟩

def OpenOk (f : DiskFile) (d : DiskWriteTask) : Prop :=
  d.writeFile = none → f.createWriteFile = none

theorem Writing.closed {content : List UInt8} (h : Writing d fileBlock content) :
    ∀ file ∈ d.writeFile, file.closed = false := by
  rcases h.file with ⟨hnone, -⟩ | hsome
  · simp [hnone]
  · simp [hsome]

theorem fileContent_eq (ht : ¬ VerifyOnly t) (fileBlock : Nat) (payload : List UInt8) :
    fileContent t fileBlock payload = ⟨t.archiveFileID, toInt fileBlock, payload, none⟩ := by
  unfold fileContent
  by_cases hrepack : t.isRepack
  · simp [hrepack, freshContent]
  · have hverify : t.isVerifyOnly = false := by
      by_contra hverify
      exact ht ⟨by simpa using hrepack, by simpa using hverify⟩
    simp [hrepack, hverify, freshContent]

theorem popBlock_file (ht : ¬ VerifyOnly t) {content : List UInt8}
    (h : Writing d fileBlock content) :
    d.popBlock t.archiveFileID f (fileContent t fileBlock payload) =
      match d.writeFile with
      | some file => d.writeData f file payload
      | none =>
        match f.createWriteFile with
        | some msg => d.thrown msg
        | none => d.writeData f ⟨[], false⟩ payload := by
  rw [fileContent_eq ht]
  simp [DiskWriteTask.popBlock, Content.isVerifyOnly, Content.isCanceled,
    DiskWriteTask.checkErrors, Content.isFailed, h.blockId]

theorem writeData_ok {content : List UInt8} (h : Writing d fileBlock content)
    (hwrite : payload ≠ [] → f.write fileBlock = none) :
    Writing (d.writeData f ⟨content, false⟩ payload) (fileBlock + 1) (content ++ payload) ∧
      (d.writeData f ⟨content, false⟩ payload).writeFile = some ⟨content ++ payload, false⟩ := by
  have hnone : (if payload = [] then none else f.write d.blockId) = none := by
    split
    · rfl
    · next hne => exact h.blockId ▸ hwrite hne
  unfold DiskWriteTask.writeData
  simp only [hnone]
  exact ⟨⟨h.stage, h.isVerifyOnly, congrArg (· + 1) h.blockId, h.reports, .inr rfl⟩, trivial⟩

/-- What the first exception leaves. -/
structure Thrown (d : DiskWriteTask) : Prop where
  stage : ∃ msg, d.stage = .draining msg
  reports : d.reports = []
  closed : ∀ file ∈ d.writeFile, file.closed = false

theorem Writing.thrown {content : List UInt8} (h : Writing d fileBlock content) (msg : String) :
    Thrown (d.thrown msg) := ⟨⟨msg, rfl⟩, h.reports, h.closed⟩

theorem writeData_thrown {content : List UInt8} (h : Writing d fileBlock content)
    (hwrite : ¬ (payload ≠ [] → f.write fileBlock = none)) :
    Thrown (d.writeData f ⟨content, false⟩ payload) := by
  obtain ⟨hne, hsome⟩ := Classical.not_imp.mp hwrite
  obtain ⟨msg, hmsg⟩ := Option.ne_none_iff_exists'.mp hsome
  have hthrows : (if payload = [] then none else f.write d.blockId) = some msg := by
    rw [if_neg hne, h.blockId, hmsg]
  unfold DiskWriteTask.writeData
  simp only [hthrows]
  exact ⟨⟨msg, rfl⟩, h.reports, by simp [DiskWriteTask.thrown]⟩

variable (f payload) in
theorem popBlock_written (ht : ¬ VerifyOnly t) {content : List UInt8}
    (h : Writing d fileBlock content) :
    let d' := d.popBlock t.archiveFileID f (fileContent t fileBlock payload)
    (OpenOk f d ∧ (payload ≠ [] → f.write fileBlock = none) →
      Writing d' (fileBlock + 1) (content ++ payload) ∧
        d'.writeFile = some ⟨content ++ payload, false⟩) ∧
    (¬ (OpenOk f d ∧ (payload ≠ [] → f.write fileBlock = none)) → Thrown d') := by
  intro d'
  have hd' : d' = _ := popBlock_file ht h
  rw [hd']
  rcases h.file with ⟨hnone, rfl⟩ | hsome
  · simp only [hnone]
    cases hcreate : f.createWriteFile with
    | some msg =>
      refine ⟨fun hok => ?_, fun _ => h.thrown msg⟩
      rw [hok.1 hnone] at hcreate
      cases hcreate
    | none =>
      have hopen : OpenOk f d := fun _ => hcreate
      exact ⟨fun hok => writeData_ok h hok.2, fun hbad => writeData_thrown h fun hwrite =>
        hbad ⟨hopen, hwrite⟩⟩
  · simp only [hsome]
    have hopen : OpenOk f d := fun hnone => by rw [hnone] at hsome; cases hsome
    exact ⟨fun hok => writeData_ok h hok.2, fun hbad => writeData_thrown h fun hwrite =>
      hbad ⟨hopen, hwrite⟩⟩

variable (t f) in
theorem popAll_thrown (cs : List Content) (h : Thrown d) :
    ∃ d', d.popAll t.archiveFileID f (cs.map some ++ [none]) = some d' ∧ Failed d' := by
  obtain ⟨msg, hstage⟩ := h.stage
  exact popAll_draining hstage h.reports h.closed cs

def Closes (t : TapeReadTask) (f : DiskFile) (d : DiskWriteTask) (rest : List (List UInt8))
    (payload : List UInt8) (fileBlock : Nat) (checksum_adler32 : UInt32) : Prop :=
  Ends t rest payload checksum_adler32 ∧ OpenOk f d ∧
    WritesOk f fileBlock (payloadsFrom t rest payload)

theorem closes_full {block : List UInt8}
    (hfull : ¬ t.blockSize ≤ remainingFreeSpace t (payload ++ block)) :
    Closes t f d (block :: rest) payload fileBlock checksum_adler32 ↔
      (OpenOk f d ∧ (payload ++ block ≠ [] → f.write fileBlock = none)) ∧
        Ends t rest [] (adler32 checksum_adler32 (payload ++ block)) ∧
          WritesOk f (fileBlock + 1) (payloadsFrom t rest []) := by
  rw [Closes, ends_cons, payloadsFrom, if_neg hfull, WritesOk]
  tauto

theorem popSignal_file {content : List UInt8} (h : Writing d fileBlock content)
    (hfile : d.writeFile = some ⟨content, false⟩) :
    (f.close = none →
      Completed (d.popSignal f) ∧ (d.popSignal f).writeFile = some ⟨content, true⟩) ∧
    (f.close ≠ none → ∃ msg, (d.popSignal f).stage = .draining msg) := by
  rw [DiskWriteTask.popSignal, if_neg (by simp [h.isVerifyOnly]), hfile]
  dsimp only
  cases hclose : f.close with
  | some msg => exact ⟨fun hnone => absurd hnone (Option.some_ne_none msg), fun _ => ⟨msg, rfl⟩⟩
  | none =>
    have hreports : d.reports ++ [.completed d.dataVolume d.checksum] =
        [.completed d.dataVolume d.checksum] := by rw [h.reports, List.nil_append]
    exact ⟨fun _ => ⟨⟨rfl, _, _, hreports⟩, rfl⟩, fun hsome => absurd rfl hsome⟩

/-- What becomes of the file that is written. -/
structure Outcome (f : DiskFile) (closes : Prop) (content : List UInt8) (d' : DiskWriteTask) :
    Prop where
  closed : closes → f.close = none → Completed d' ∧ d'.writeFile = some ⟨content, true⟩
  blocked : closes → f.close ≠ none → ∃ msg, d'.stage = .draining msg
  failed : ¬ closes → Failed d'

theorem Failed.outcome {closes : Prop} {content : List UInt8} {d' : DiskWriteTask}
    (h : Failed d') (hnot : ¬ closes) : Outcome f closes content d' :=
  ⟨fun hcloses => absurd hcloses hnot, fun hcloses => absurd hcloses hnot, fun _ => h⟩

variable (f rest payload checksum_adler32) in
theorem popAll_written (ht : ¬ VerifyOnly t) {content : List UInt8}
    (h : Writing d fileBlock content) :
    ∃ d', d.popAll t.archiveFileID f (contentsFrom t rest payload fileBlock checksum_adler32) =
      some d' ∧ Outcome f (Closes t f d rest payload fileBlock checksum_adler32)
        (content ++ payload ++ rest.flatten) d' := by
  induction rest generalizing d content payload fileBlock checksum_adler32 with
  | nil =>
    simp only [contentsFrom]
    cases hbehind : t.behind with
    | some msg =>
      obtain ⟨d', hrun, hfailed⟩ := popAll_failed t f _ _ _ h.stage h.reports h.closed
      refine ⟨d', hrun, hfailed.outcome fun hcloses => ?_⟩
      rw [hcloses.1.1] at hbehind
      cases hbehind
    | none =>
      dsimp only
      cases hvalid : validate t (adler32 checksum_adler32 payload) with
      | error e =>
        obtain ⟨d', hrun, hfailed⟩ := popAll_failed t f _ _ _ h.stage h.reports h.closed
        refine ⟨d', hrun, hfailed.outcome fun hcloses => ?_⟩
        rw [validate_of_ends hcloses.1] at hvalid
        cases hvalid
      | ok u =>
        have hends : Ends t [] payload checksum_adler32 :=
          ⟨hbehind, by rw [List.flatten_nil, List.append_nil, hvalid]⟩
        have hcloses : Closes t f d [] payload fileBlock checksum_adler32 ↔
            OpenOk f d ∧ (payload ≠ [] → f.write fileBlock = none) := by
          simp [Closes, hends, payloadsFrom, WritesOk]
        obtain ⟨hwritten, hthrown⟩ := popBlock_written f payload ht h
        rw [popAll_cons, pop_block h.stage, Option.bind_some, List.flatten_nil, List.append_nil,
          hcloses]
        by_cases hok : OpenOk f d ∧ (payload ≠ [] → f.write fileBlock = none)
        · obtain ⟨hwriting, hfile⟩ := hwritten hok
          obtain ⟨hclosed, hblocked⟩ := popSignal_file (f := f) hwriting hfile
          rw [popAll_cons, pop_signal hwriting.stage, Option.bind_some]
          exact ⟨_, rfl, fun _ => hclosed, fun _ => hblocked, fun hnot => absurd hok hnot⟩
        · obtain ⟨d', hrun, hfailed⟩ := popAll_thrown t f [] (hthrown hok)
          exact ⟨d', hrun, hfailed.outcome hok⟩
  | cons block rest ih =>
    simp only [contentsFrom]
    split
    · next hmore =>
      obtain ⟨d', hrun, houtcome⟩ := ih (payload ++ block) checksum_adler32 h
      refine ⟨d', hrun, ?_⟩
      rw [Closes, ends_append, payloadsFrom, if_pos hmore, List.flatten_cons, List.append_assoc]
      rw [Closes, List.append_assoc, List.append_assoc] at houtcome
      exact houtcome
    · next hfull =>
      rw [popAll_cons, pop_block h.stage, Option.bind_some]
      obtain ⟨hwritten, hthrown⟩ := popBlock_written f (payload ++ block) ht h
      by_cases hok : OpenOk f d ∧ (payload ++ block ≠ [] → f.write fileBlock = none)
      · obtain ⟨hwriting, hfile⟩ := hwritten hok
        obtain ⟨d', hrun, houtcome⟩ := ih [] (adler32 checksum_adler32 (payload ++ block)) hwriting
        refine ⟨d', hrun, ?_⟩
        rw [closes_full hfull, and_iff_right hok]
        rw [List.append_nil] at houtcome
        rw [List.flatten_cons, ← List.append_assoc, List.append_assoc content]
        have hopen : OpenOk f (d.popBlock t.archiveFileID f
            (fileContent t fileBlock (payload ++ block))) := fun hnone => by
          rw [hnone] at hfile
          cases hfile
        rwa [Closes, and_iff_right hopen] at houtcome
      · obtain ⟨cs, hcs⟩ := exists_contentsFrom t rest [] (fileBlock + 1)
          (adler32 checksum_adler32 (payload ++ block))
        rw [hcs]
        obtain ⟨d', hrun, hfailed⟩ := popAll_thrown t f cs (hthrown hok)
        exact ⟨d', hrun, hfailed.outcome fun hcloses => hok ((closes_full hfull).mp hcloses).1⟩

end Outcome

end Cta.Tape.DiskWrite

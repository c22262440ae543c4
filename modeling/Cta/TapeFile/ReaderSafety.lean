import Cta.TapeFile.ReaderCalls

/-! A reader does not deliver the data of another file, whatever is on the tape. -/
namespace Cta.TapeFile.ReaderSafety
open Cta.Lib.FixedWidth Cta.Lib.Triples
open Cta.TapeFile.Structures Cta.TapeFile.HeaderChecker Cta.TapeFile.Drive
open Cta.TapeFile.LabelSession Cta.TapeFile.CtaFileReader Cta.TapeFile.RoundTrip
open Cta.Tape.DriveGeneric (LbpToUse)
variable {tape before : List Object} {vid : Text} {ws : List Nat}
variable {code : PositioningMethod} {part : PartOfFile} {fseq : Nat}

def IsLabel (o : Object) (r : Record Char ws) : Prop := ∃ b, o = .block b ∧ b.data = r.pack

inductive Accepted (vid : Text) (job : RetrieveJob) : List Object → Prop where
  | labels {o₁ o₂ o₃ : Object} {hdr1 : HDR1EOF1} {hdr2 : HDR2EOF2} {uhl1 : UHL1UTL1}
      (isHdr1 : IsLabel o₁ hdr1) (isHdr2 : IsLabel o₂ hdr2) (isUhl1 : IsLabel o₃ uhl1)
      (hdr1_verify : HDR1.verify hdr1 = none) (hdr2_verify : HDR2.verify hdr2 = none)
      (uhl1_verify : UHL1.verify uhl1 = none)
      (fileId : extractNumber 16 hdr1.fileId = job.archiveFileID) (VSN : hdr1.VSN = vid)
      (fSeq : extractNumber 10 uhl1.actualfSeq = job.fSeq) : Accepted vid job [o₁, o₂, o₃]

theorem Reads.isLabel {o : Object} {r : Record Char ws} (h : Reads o r)
    (hspaces : r.pack ≠ List.replicate ws.sum ' ') : IsLabel o r := by
  obtain ⟨b, rfl, -, hdata⟩ := h
  cases hdata with
  | inl hdata => exact ⟨b, rfl, hdata⟩
  | inr hblank => exact absurd hblank hspaces

def spaces (ws : List Nat) : Record Char ws :=
  Record.unpack (List.replicate ws.sum ' ') List.length_replicate

theorem not_spaces {r : Record Char ws} {verify : Record Char ws → Option String}
    (hspaces : verify (spaces ws) ≠ none) (h : verify r = none) :
    r.pack ≠ List.replicate ws.sum ' ' := by
  intro hpack
  have hr : r = spaces ws := Record.pack_injective (by rw [hpack, spaces, Record.pack_unpack])
  exact hspaces (hr ▸ h)

theorem or_none {a b : Option String} (h : a.or b = none) : a = none ∧ b = none := by
  cases a with
  | none => exact ⟨rfl, h⟩
  | some what => cases h

theorem checkHeaders_spec (job : RetrieveJob) :
    Triple (At tape vid code .headerProcessing fseq before) (FileReader.checkHeaders job)
      (fun _ r => ∃ header, Accepted vid job header ∧
        At tape vid code .payload (job.fSeq % 2 ^ 32) (.fileMark :: header.reverse ++ before) r)
      fun _ => Failed tape vid code := by
  have hprocessing : PartOfFile.headerProcessing ≠ .header := by decide
  have hpayload : PartOfFile.payload ≠ .header := by decide
  unfold FileReader.checkHeaders
  refine (setCurrentFseq_at job.fSeq).bind fun _ => ?_
  refine (readLabel_at hprocessing _ _).bind fun hdr1 => ?_
  refine Triple.exists_pre fun o₁ => Triple.and_pre fun h₁ => ?_
  refine (readLabel_at hprocessing _ _).bind fun hdr2 => ?_
  refine Triple.exists_pre fun o₂ => Triple.and_pre fun h₂ => ?_
  refine (readLabel_at hprocessing _ _).bind fun uhl1 => ?_
  refine Triple.exists_pre fun o₃ => Triple.and_pre fun h₃ => ?_
  refine (readFileMark_at hprocessing _).bind fun _ => ?_
  refine (setCurrentFilePart_at .payload).bind fun _ => ?_
  refine Triple.bind ((verified_spec _).consequence (fun _ hr => hr) (fun _ _ hr => hr)
    fun _ _ hr => hr.2.failed hpayload) fun _ => ?_
  refine Triple.and_pre fun hverified => ?_
  refine Triple.get.bind fun r => ?_
  refine Triple.bind ((verified_spec _).consequence (fun _ hr => hr) (fun _ _ hr => hr)
    fun _ _ hr => hr.2.2.failed hpayload) fun _ => ?_
  refine Triple.and_pre fun hhdr1 => ?_
  refine Triple.of_pre (fun s hs => (hs.1 ▸ hs.2.2.vid : r.session.vid = vid)) fun hvid => ?_
  refine Triple.bind ((verified_spec _).consequence (fun _ hr => hr.2) (fun _ _ hr => hr)
    fun _ _ hr => hr.2.failed hpayload) fun _ => ?_
  refine Triple.and_pre fun huhl1 => ?_
  obtain ⟨hverify1, hverified⟩ := or_none hverified
  obtain ⟨hverify2, hverify3⟩ := or_none hverified
  have hspaces1 : HDR1.verify (spaces _) ≠ none := by decide +kernel
  have hspaces2 : HDR2.verify (spaces _) ≠ none := by decide +kernel
  have hspaces3 : UHL1.verify (spaces _) ≠ none := by decide +kernel
  obtain ⟨hid, hvsn⟩ := checkHDR1_none.mp hhdr1
  have haccepted : Accepted vid job [o₁, o₂, o₃] :=
    .labels (h₁.isLabel (not_spaces hspaces1 hverify1)) (h₂.isLabel (not_spaces hspaces2 hverify2))
      (h₃.isLabel (not_spaces hspaces3 hverify3)) hverify1 hverify2 hverify3 hid
      (hvsn.trans hvid) (checkUHL1_none.mp huhl1)
  exact (setBlockSize_at hpayload uhl1).consequence (fun _ hr => hr)
    (fun _ _ hr => ⟨[o₁, o₂, o₃], haccepted, hr⟩) fun _ _ hr => hr

/-- A reader behind the headers of the file that is asked for, and some of its blocks. -/
def Reading (tape : List Object) (vid : Text) (code : PositioningMethod) (job : RetrieveJob)
    (data : List Block) (r : FileReader) : Prop :=
  ∃ header earlier, Accepted vid job header ∧ At tape vid code .payload (job.fSeq % 2 ^ 32)
    ((data.map Object.block).reverse ++ .fileMark :: header.reverse ++ earlier) r

theorem checkHeaders_anywhere (job : RetrieveJob) :
    Triple (fun r => Holds tape r.session.drive ∧ Frame vid code .headerProcessing fseq r)
      (FileReader.checkHeaders job) (fun _ => Reading tape vid code job [])
      fun _ => Failed tape vid code := by
  intro r hr
  have hat : At tape vid code .headerProcessing fseq r.session.drive.before r :=
    ⟨⟨hr.1, rfl⟩, hr.2⟩
  exact (checkHeaders_spec job).consequence (fun _ h => h)
    (fun _ _ ⟨header, haccepted, hat⟩ => ⟨header, _, haccepted, hat⟩) (fun _ _ h => h) r hat

theorem setProcessing_spec {E : Failure → FileReader → Prop} :
    Triple (fun r => Holds tape r.session.drive ∧ Frame vid code part fseq r)
      (FileReader.setCurrentFilePart .headerProcessing)
      (fun _ r => Holds tape r.session.drive ∧ Frame vid code .headerProcessing fseq r) E :=
  Triple.modify fun _ ⟨hd, hr⟩ => ⟨hd, hr.vid, hr.locked, hr.corrupted, rfl, hr.fseq, hr.code⟩

theorem positionByBlockID_spec (job : RetrieveJob) :
    Triple (fun r => Holds tape r.session.drive ∧ Frame vid code part fseq r)
      (FileReader.positionByBlockID job) (fun _ => Reading tape vid code job [])
      fun _ => Failed tape vid code := by
  have hprocessing : PartOfFile.headerProcessing ≠ .header := by decide
  refine setProcessing_spec.bind fun _ => ?_
  refine (onDrive_spec hprocessing (keepsTape_positionToLogicalObject _ tape)).bind fun _ => ?_
  exact checkHeaders_anywhere job

theorem positionByFseq_spec (job : RetrieveJob) :
    Triple (fun r => Holds tape r.session.drive ∧ Frame vid code part fseq r)
      (FileReader.positionByFseq job) (fun _ => Reading tape vid code job [])
      fun _ => Failed tape vid code := by
  have hprocessing : PartOfFile.headerProcessing ≠ .header := by decide
  refine Triple.get.bind fun r => ?_
  have hrefused : Triple
      (fun s => r = s ∧ Holds tape s.session.drive ∧ Frame vid code part fseq s)
      (FileReader.corruptIf (r.session.currentFilePart ≠ .header) .sessionCorrupted)
      (fun _ s => Holds tape s.session.drive ∧ Frame vid code part fseq s)
      fun _ => Failed tape vid code := by
    unfold FileReader.corruptIf
    by_cases hpart : r.session.currentFilePart ≠ .header
    · rw [if_pos hpart]
      intro s hs
      exact ⟨hs.2.1, hs.2.2.vid, hs.2.2.locked, hs.1 ▸ hpart, hs.2.2.code⟩
    · rw [if_neg hpart]
      exact Triple.pure fun _ hs => hs.2
  refine hrefused.bind fun _ => ?_
  refine setProcessing_spec.bind fun _ => ?_
  refine Triple.bind ((throwIf_spec _).consequence (fun _ hr => hr) (fun _ _ hr => hr.2)
    fun _ _ hr => hr.2.failed hprocessing hr.1) fun _ => ?_
  have hmove : KeepsTape (if job.fSeq = 1 then FileReader.moveToFirstHeaderBlock
      else FileReader.moveReaderByFSeqDelta
        (FileReader.toInt64 job.fSeq - r.session.fseq)) := by
    by_cases h1 : job.fSeq = 1
    · rw [if_pos h1]
      exact keepsTape_moveToFirstHeaderBlock
    · rw [if_neg h1]
      exact keepsTape_moveReaderByFSeqDelta _
  refine (onDrive_spec hprocessing (hmove tape)).bind fun _ => ?_
  exact checkHeaders_anywhere job

/-- Three records where the trailer of a file should be, and what their check complains about. -/
inductive Trailer (verdict : Option String) : List Object → Prop where
  | labels {o₁ o₂ o₃ : Object} {eof1 : HDR1EOF1} {eof2 : HDR2EOF2} {utl1 : UHL1UTL1}
      (eof1_reads : Reads o₁ eof1) (eof2_reads : Reads o₂ eof2) (utl1_reads : Reads o₃ utl1)
      (verify : (EOF1.verify eof1).or ((EOF2.verify eof2).or (UTL1.verify utl1)) = verdict) :
      Trailer verdict [o₁, o₂, o₃]

def ending : Option String → Failure
  | none => .endOfFile
  | some what => .tapeFormatError what

def AtNext (tape : List Object) (vid : Text) (code : PositioningMethod) (fseq : Nat)
    (before : List Object) (verdict : Option String) (r : FileReader) : Prop :=
  ∃ trailer, Trailer verdict trailer ∧
    At tape vid code .header ((fseq + 1) % 2 ^ 32) (.fileMark :: trailer.reverse ++ before) r

theorem checkTrailers_spec :
    Triple (At tape vid code part fseq before) FileReader.checkTrailers
      (fun _ => AtNext tape vid code fseq before none)
      fun e r => Failed tape vid code r ∨
        ∃ what, e = ending (some what) ∧ AtNext tape vid code fseq before (some what) r := by
  have htrailer : PartOfFile.trailer ≠ .header := by decide
  refine (setCurrentFilePart_at .trailer).bind fun _ => ?_
  refine Triple.bind ((readLabel_at htrailer _ _).consequence (fun _ hr => hr) (fun _ _ hr => hr)
    fun _ _ => Or.inl) fun eof1 => ?_
  refine Triple.exists_pre fun o₁ => Triple.and_pre fun h₁ => ?_
  refine Triple.bind ((readLabel_at htrailer _ _).consequence (fun _ hr => hr) (fun _ _ hr => hr)
    fun _ _ => Or.inl) fun eof2 => ?_
  refine Triple.exists_pre fun o₂ => Triple.and_pre fun h₂ => ?_
  refine Triple.bind ((readLabel_at htrailer _ _).consequence (fun _ hr => hr) (fun _ _ hr => hr)
    fun _ _ => Or.inl) fun utl1 => ?_
  refine Triple.exists_pre fun o₃ => Triple.and_pre fun h₃ => ?_
  refine Triple.bind ((readFileMark_at htrailer _).consequence (fun _ hr => hr) (fun _ _ hr => hr)
    fun _ _ => Or.inl) fun _ => ?_
  refine Triple.get.bind fun r => ?_
  refine Triple.of_pre (fun s hs => (hs.1 ▸ hs.2.2.fseq : r.session.fseq = fseq)) fun hfseq => ?_
  rw [hfseq]
  refine Triple.pre ?_ fun _ hs => hs.2
  refine (setCurrentFseq_at _).bind fun _ => ?_
  refine (setCurrentFilePart_at .header).bind fun _ => ?_
  refine (verified_spec _).consequence (fun _ hr => hr)
    (fun _ _ hr => ⟨[o₁, o₂, o₃], .labels h₁ h₂ h₃ hr.1, hr.2⟩) fun e r hr => ?_
  obtain ⟨⟨what, hwhat, he⟩, hr⟩ := hr
  exact Or.inr ⟨what, he, [o₁, o₂, o₃], .labels h₁ h₂ h₃ hwhat, hr⟩

theorem readNextDataBlock_spec (size : Nat) :
    Triple (At tape vid code .payload fseq before) (FileReader.readNextDataBlock size)
      (fun data r => ∃ b : Block, b.data = data ∧
        At tape vid code .payload fseq (.block b :: before) r)
      fun e r => Failed tape vid code r ∨
        ∃ verdict, e = ending verdict ∧
          AtNext tape vid code fseq (.fileMark :: before) verdict r := by
  have hpayload : PartOfFile.payload ≠ .header := by decide
  refine Triple.get.bind fun r => ?_
  refine Triple.bind ((throwIf_spec _).consequence (fun _ hr => hr.2) (fun _ _ hr => hr.2)
    fun _ _ hr => Or.inl (hr.failed hpayload)) fun _ => ?_
  refine Triple.bind ((onDrive_spec hpayload (readBlock_spec size)).consequence (fun _ hr => hr)
    (fun _ _ hr => hr) fun _ _ => Or.inl) fun data => ?_
  refine Triple.ite (fun hdata => ?_) fun hdata => ?_
  · have htrailers : Triple (At tape vid code .payload fseq (.fileMark :: before))
        FileReader.checkTrailers (fun _ => AtNext tape vid code fseq (.fileMark :: before) none)
        fun e r => Failed tape vid code r ∨ ∃ verdict, e = ending verdict ∧
          AtNext tape vid code fseq (.fileMark :: before) verdict r := by
      refine checkTrailers_spec.consequence (fun _ h => h) (fun _ _ h => h) fun e r hr => ?_
      cases hr with
      | inl hfailed => exact Or.inl hfailed
      | inr hbad =>
        obtain ⟨what, he, hnext⟩ := hbad
        exact Or.inr ⟨some what, he, hnext⟩
    refine Triple.bind (htrailers.pre fun s hs => ?_) fun _ => Triple.throw fun _ hr =>
      Or.inr ⟨none, rfl, hr⟩
    obtain ⟨hmark | ⟨b, hb, -⟩, hframe⟩ := hs
    · exact ⟨hmark.2, hframe⟩
    · exact absurd (hb.trans hdata) b.nonempty
  · refine Triple.pure fun s hs => ?_
    obtain ⟨hmark | ⟨b, hb, hd⟩, hframe⟩ := hs
    · exact absurd hmark.1 hdata
    · exact ⟨b, hb, hd, hframe⟩

/-- What is before a head that is directly behind a file: headers that were accepted for this job,
blocks of data, and a trailer, each with its file mark. -/
inductive Behind (vid : Text) (job : RetrieveJob) (verdict : Option String) :
    List Object → Prop where
  | file {header trailer earlier : List Object} {data : List Block}
      (accepted : Accepted vid job header) (trailed : Trailer verdict trailer) :
      Behind vid job verdict (.fileMark :: trailer.reverse ++ .fileMark ::
        ((data.map Object.block).reverse ++ .fileMark :: header.reverse ++ earlier))

/-- These blocks are on the tape, directly behind headers that were accepted for this job. -/
def Delivered (tape : List Object) (vid : Text) (job : RetrieveJob) (blocks : List Text) : Prop :=
  ∃ (earlier header later : List Object) (data : List Block), Accepted vid job header ∧
    tape = earlier ++ header ++ .fileMark :: data.map Object.block ++ later ∧
    data.map Block.data = blocks

/-- What a recall leaves of its session: it is in the middle of a file, or behind its trailer. -/
structure Ended (tape : List Object) (vid : Text) (job : RetrieveJob) (thrown : Option Failure)
    (s : ReadSession) : Prop where
  holds : Holds tape s.drive
  volume : s.vid = vid
  locked : s.locked = false
  place : (s.currentFilePart ≠ .header ∧ (job.positioningMethod = .byFSeq → s.corrupted = true)) ∨
    ∃ verdict, thrown = some (ending verdict) ∧ s.currentFilePart = .header ∧
      Behind vid job verdict s.drive.before ∧ s.fseq = (job.fSeq + 1) % 2 ^ 32

theorem destroy_locked {r : FileReader} (h : r.session.locked = true) :
    r.destroy.drive = r.session.drive ∧ r.destroy.vid = r.session.vid ∧
      r.destroy.locked = false ∧ r.destroy.fseq = r.session.fseq ∧
      r.destroy.currentFilePart = r.session.currentFilePart ∧
      r.destroy.corrupted = (r.session.corrupted || (r.positionCommandCode = .byFSeq ∧
        r.session.currentFilePart ≠ .header)) := by
  simp [FileReader.destroy, ReadSession.release, h]

variable {job : RetrieveJob}

theorem Failed.ended {r : FileReader} (h : Failed tape vid job.positioningMethod r)
    (thrown : Option Failure) : Ended tape vid job thrown r.destroy := by
  obtain ⟨hdrive, hvid, hlocked, -, hpart, hcorrupted⟩ := destroy_locked h.locked
  refine ⟨hdrive ▸ h.holds, hvid.trans h.vid, hlocked, Or.inl ⟨hpart ▸ h.part, fun hcode => ?_⟩⟩
  rw [hcorrupted, h.code, hcode]
  simp [h.part]

theorem AtNext.ended {r : FileReader} {header earlier : List Object} {data : List Block}
    {verdict : Option String} (haccepted : Accepted vid job header)
    (h : AtNext tape vid job.positioningMethod (job.fSeq % 2 ^ 32) (.fileMark ::
      ((data.map Object.block).reverse ++ .fileMark :: header.reverse ++ earlier)) verdict r) :
    Ended tape vid job (some (ending verdict)) r.destroy := by
  obtain ⟨trailer, htrailer, hat, hframe⟩ := h
  obtain ⟨hdrive, hvid, hlocked, hfseq, hpart, -⟩ := destroy_locked hframe.locked
  refine ⟨hdrive ▸ hat.objects, hvid.trans hframe.vid, hlocked, Or.inr ⟨verdict, rfl,
    hpart.trans hframe.part, ?_, ?_⟩⟩
  · rw [hdrive, hat.before]
    exact .file haccepted htrailer
  · rw [hfseq, hframe.fseq, Nat.mod_add_mod]

theorem readBlocks_spec (sizes : List (Nat → Nat)) {data : List Block} {r : FileReader}
    (h : Reading tape vid job.positioningMethod job data r) :
    ∃ data' : List Block, (readBlocks sizes r).blocks = data'.map Block.data ∧
      Delivered tape vid job ((data ++ data').map Block.data) ∧
      Ended tape vid job (readBlocks sizes r).thrown (readBlocks sizes r).session := by
  have hpayload : PartOfFile.payload ≠ .header := by decide
  induction sizes generalizing r data with
  | nil =>
    obtain ⟨header, earlier, haccepted, hat⟩ := h
    refine ⟨[], rfl, ?_, (hat.failed hpayload).ended none⟩
    refine ⟨earlier.reverse, header, r.session.drive.next, data, haccepted, ?_, by simp⟩
    rw [← hat.1.objects, TapeDrive.objects, hat.1.before]
    simp
  | cons size sizes ih =>
    obtain ⟨header, earlier, haccepted, hat⟩ := h
    have hdelivered : Delivered tape vid job ((data ++ []).map Block.data) := by
      refine ⟨earlier.reverse, header, r.session.drive.next, data, haccepted, ?_, by simp⟩
      rw [← hat.1.objects, TapeDrive.objects, hat.1.before]
      simp
    have hread := readNextDataBlock_spec (size r.currentBlockSize) r hat
    cases hx : FileReader.readNextDataBlock (size r.currentBlockSize) r with
    | error e r' =>
      rw [hx] at hread
      simp only [readBlocks, hx]
      refine ⟨[], rfl, hdelivered, ?_⟩
      cases hread with
      | inl hfailed => exact hfailed.ended (some e)
      | inr hnext =>
        obtain ⟨verdict, he, hnext⟩ := hnext
        subst he
        exact hnext.ended haccepted
    | ok block r' =>
      rw [hx] at hread
      obtain ⟨b, hb, hat'⟩ := hread
      have hreading : Reading tape vid job.positioningMethod job (data ++ [b]) r' := by
        refine ⟨header, earlier, haccepted, ?_⟩
        simpa using hat'
      obtain ⟨data', hblocks, hdelivered', hended⟩ := ih hreading
      simp only [readBlocks, hx]
      refine ⟨b :: data', ?_, ?_, hended⟩
      · rw [hblocks, List.map_cons, hb]
      · simpa using hdelivered'

/-- The recall comes through its positioning, up to the headers that are accepted. -/
def positions (job : RetrieveJob) (s : ReadSession) : Bool :=
  match FileReader.construct job s with
  | .error _ => false
  | .ok r =>
    match FileReader.position job r with
    | .error .. => false
    | .ok .. => true

/-- The last one of these recalls that was positioned, or the one before them. -/
def lastPositioned : List (RetrieveJob × List (Nat → Nat)) → ReadSession → Option RetrieveJob →
    Option RetrieveJob
  | [], _, last => last
  | (job, sizes) :: rest, s, last => lastPositioned rest (recallFile job sizes s).session
      (if positions job s then some job else last)

/-- Where the head is by the last recall that was positioned: behind the label of the volume, with
the first file next, or behind the file of that recall, with the number that follows next. -/
def AtHeader (vid : Text) (s : ReadSession) : Option RetrieveJob → Prop
  | none => s.fseq = 1 ∧ ∃ (o : Object) (vol1 : VOL1), s.drive.before = [o] ∧ IsLabel o vol1 ∧
      vol1.VSN = vid
  | some job => ∃ verdict, Behind vid job verdict s.drive.before ∧
      s.fseq = (job.fSeq + 1) % 2 ^ 32

structure Idle (tape : List Object) (vid : Text) (last : Option RetrieveJob) (s : ReadSession) :
    Prop where
  holds : Holds tape s.drive
  volume : s.vid = vid
  locked : s.locked = false
  place : s.currentFilePart = .header → AtHeader vid s last

variable {last : Option RetrieveJob} {s : ReadSession}

theorem Ended.idle {thrown : Option Failure} (h : Ended tape vid job thrown s) :
    Idle tape vid (some job) s := by
  refine ⟨h.holds, h.volume, h.locked, fun hpart => ?_⟩
  cases h.place with
  | inl hmiddle => exact absurd hpart hmiddle.1
  | inr hbehind =>
    obtain ⟨verdict, -, -, hbehind, hfseq⟩ := hbehind
    exact ⟨verdict, hbehind, hfseq⟩

theorem not_positions_of_corrupted (hs : s.corrupted = true) (job : RetrieveJob) :
    positions job s = false := by
  simp [positions, FileReader.construct, hs]

theorem recall_refused (hs : s.corrupted = true) (job : RetrieveJob) (sizes : List (Nat → Nat)) :
    recallFile job sizes s = ⟨[], some .sessionCorrupted, s⟩ := by
  simp [recallFile, FileReader.construct, hs]

theorem recall_ended (hs : Idle tape vid last s) (hcorrupted : s.corrupted = false)
    (hmethod : job.positioningMethod ≠ .other) (sizes : List (Nat → Nat)) :
    Ended tape vid job (recallFile job sizes s).thrown (recallFile job sizes s).session ∧
      ((recallFile job sizes s).blocks ≠ [] →
        Delivered tape vid job (recallFile job sizes s).blocks) ∧
      (positions job s = false → (recallFile job sizes s).session.currentFilePart ≠ .header) := by
  let r : FileReader := ⟨{ s with locked := true }, 0, job.positioningMethod⟩
  have hconstruct : FileReader.construct job s = .ok r := by
    simp [FileReader.construct, ReadSession.lock, hcorrupted, hs.locked, r]
  have hframe : Frame vid job.positioningMethod s.currentFilePart s.fseq r :=
    ⟨hs.volume, rfl, hcorrupted, rfl, rfl, rfl⟩
  have hposition : Triple (fun r' => r' = r) (FileReader.position job)
      (fun _ => Reading tape vid job.positioningMethod job [])
      fun _ => Failed tape vid job.positioningMethod := by
    refine Triple.get.bind fun r' => ?_
    refine Triple.of_pre (fun _ h => h.1.trans h.2) fun hr' => ?_
    subst hr'
    have hcode : r.positionCommandCode = job.positioningMethod := rfl
    have hstart : ∀ s', r = s' ∧ s' = r → Holds tape s'.session.drive ∧
        Frame vid job.positioningMethod s.currentFilePart s.fseq s' := by
      intro s' h
      rw [h.2]
      exact ⟨hs.holds, hframe⟩
    rw [hcode]
    generalize job.positioningMethod = code at hstart hmethod ⊢
    cases code with
    | byBlock => exact (positionByBlockID_spec job).pre hstart
    | byFSeq => exact (positionByFseq_spec job).pre hstart
    | other => exact absurd rfl hmethod
  unfold recallFile positions
  rw [hconstruct]
  cases hx : FileReader.position job r with
  | error e r' =>
    simp only [hx]
    have hfailed := hposition.of_error rfl hx
    refine ⟨hfailed.ended (some e), fun hne => absurd rfl hne, fun _ => ?_⟩
    rw [(destroy_locked hfailed.locked).2.2.2.2.1]
    exact hfailed.part
  | ok a r' =>
    simp only [hx]
    obtain ⟨data, hblocks, hdelivered, hended⟩ :=
      readBlocks_spec sizes (hposition.of_ok rfl hx)
    exact ⟨hended, fun _ => hblocks ▸ hdelivered, fun h => by cases h⟩

theorem recall_idle (hs : Idle tape vid last s) (job : RetrieveJob) (sizes : List (Nat → Nat)) :
    Idle tape vid (if positions job s then some job else last) (recallFile job sizes s).session ∧
      ((recallFile job sizes s).blocks ≠ [] →
        Delivered tape vid job (recallFile job sizes s).blocks) := by
  by_cases hcorrupted : s.corrupted = true
  · rw [recall_refused hcorrupted, not_positions_of_corrupted hcorrupted]
    exact ⟨hs, fun hne => absurd rfl hne⟩
  · have hcorrupted := Bool.eq_false_iff.mpr hcorrupted
    by_cases hmethod : job.positioningMethod = .other
    · have hunsupported : recallFile job sizes s = ⟨[], some .unsupportedPositioningMode, s⟩ ∧
          positions job s = false := by
        obtain ⟨drive, vid', useLbp, corrupted, locked, fseq, part, detected⟩ := s
        obtain ⟨-, -, hlocked, -⟩ := hs
        simp only at hcorrupted hlocked
        subst hcorrupted hlocked
        simp only [recallFile, positions, FileReader.construct, ReadSession.lock, hmethod,
          Bool.false_eq_true, if_false]
        exact ⟨rfl, rfl⟩
      rw [hunsupported.1, hunsupported.2]
      exact ⟨hs, fun hne => absurd rfl hne⟩
    · obtain ⟨hended, hdelivered, hfailed⟩ := recall_ended hs hcorrupted hmethod sizes
      refine ⟨?_, hdelivered⟩
      cases hpositions : positions job s with
      | true => exact hended.idle
      | false =>
        exact ⟨hended.holds, hended.volume, hended.locked, fun hpart =>
          absurd hpart (hfailed hpositions)⟩

theorem keepsTape_setLogicalBlockProtection (l : LbpToUse) :
    KeepsTape (setLogicalBlockProtection l) := by
  intro tape d hd
  have hcall : KeepsTape (attempt "Failed SG_IO ioctl" fun d => .ok () d) :=
    KeepsTape.attempt _ fun _ _ hd => hd
  exact hcall tape { d with lbpToUse := l } hd

theorem keepsTape_isTapeBlank : KeepsTape isTapeBlank := by
  intro tape d hd
  unfold isTapeBlank
  cases d.faults with
  | nil => exact (objects_moveTo 0 d).trans hd
  | cons fault faults =>
    cases fault with
    | none => exact (objects_moveTo 0 _).trans hd
    | some n => exact (objects_moveTo n _).trans hd

theorem keepsTape_throwIf (c : Prop) [Decidable c] (e : Failure) :
    KeepsTape (throwIf c e) := fun _ =>
  (throwIf_spec e).consequence (fun _ hd => hd) (fun _ _ hd => hd.2) fun _ _ hd => hd

theorem keepsTape_detectLbp {session : String} {onCRC32C : DriveM Unit} (hon : KeepsTape onCRC32C)
    (vol1 : VOL1) : KeepsTape (detectLbp session onCRC32C vol1) := by
  unfold detectLbp
  split
  · exact keepsTape_throw _
  · exact hon.bind fun _ => keepsTape_pure _
  · exact keepsTape_throw _
  · exact (keepsTape_setLogicalBlockProtection _).bind fun _ => keepsTape_pure _
  · exact keepsTape_throw _

theorem rewind_spec :
    Triple (Holds tape) rewind (fun _ => DriveAt tape []) fun _ => Holds tape := by
  refine attempt_spec _ (fun _ hd => hd) (fun _ _ hd => hd) fun d hd => ?_
  exact ⟨(objects_moveTo 0 d).trans hd, rfl⟩

theorem openTape_spec {session : String} {onCRC32C : DriveM Unit} (hon : KeepsTape onCRC32C) :
    Triple (Holds tape) (openTape session onCRC32C vid)
      (fun _ d => ∃ (o : Object) (vol1 : VOL1), IsLabel o vol1 ∧ vol1.VSN = vid ∧
        DriveAt tape [o] d) fun _ => Holds tape := by
  unfold openTape
  refine (keepsTape_throwIf _ _ tape).bind fun _ => ?_
  refine (keepsTape_isTapeBlank tape).bind fun blank => ?_
  refine (keepsTape_throwIf _ _ tape).bind fun _ => ?_
  refine (keepsTape_rewind tape).bind fun _ => ?_
  refine (keepsTape_setLogicalBlockProtection _ tape).bind fun _ => ?_
  refine (keepsTape_readLabel _ _ tape).bind fun vol1 => ?_
  refine (keepsTape_detectLbp hon vol1 tape).bind fun detectedLbp => ?_
  refine rewind_spec.bind fun _ => ?_
  refine (readLabel_spec _ _).bind fun vol1 => ?_
  refine Triple.exists_pre fun o => Triple.and_pre fun hreads => ?_
  refine Triple.bind ((verified_spec _).consequence (fun _ hd => hd) (fun _ _ hd => hd)
    fun _ _ hd => hd.2.objects) fun _ => ?_
  refine Triple.and_pre fun hverify => ?_
  refine Triple.bind ((verified_spec _).consequence (fun _ hd => hd) (fun _ _ hd => hd)
    fun _ _ hd => hd.2.objects) fun _ => ?_
  refine Triple.and_pre fun hvolume => ?_
  have hspaces : VOL1.verify (spaces _) ≠ none := by decide +kernel
  exact Triple.pure fun _ hd =>
    ⟨o, vol1, hreads.isLabel (not_spaces hspaces hverify), checkVOL1_none.mp hvolume, hd⟩

theorem construct_idle {d d' : TapeDrive} {useLbp : Bool}
    (h : ReadSession.construct vid useLbp d = .ok s d') : Idle d.objects vid none s := by
  have hon : KeepsTape (ReadSession.enable useLbp) := by
    cases useLbp with
    | false => exact keepsTape_setLogicalBlockProtection _
    | true => exact keepsTape_setLogicalBlockProtection _
  unfold ReadSession.construct at h
  cases hopen : openTape "ReadSession" (ReadSession.enable useLbp) vid d with
  | error e d'' =>
    rw [hopen] at h
    cases h
  | ok detectedLbp d'' =>
    rw [hopen] at h
    cases h
    obtain ⟨o, vol1, hlabel, hvsn, hd⟩ := (openTape_spec hon).of_ok rfl hopen
    exact ⟨hd.objects, rfl, rfl, fun _ => ⟨rfl, o, vol1, hd.before, hlabel, hvsn⟩⟩

def after : List (RetrieveJob × List (Nat → Nat)) → ReadSession → ReadSession
  | [], s => s
  | (job, sizes) :: rest, s => after rest (recallFile job sizes s).session

theorem after_idle (asked : List (RetrieveJob × List (Nat → Nat))) (hs : Idle tape vid last s) :
    Idle tape vid (lastPositioned asked s last) (after asked s) := by
  induction asked generalizing last s with
  | nil => exact hs
  | cons request asked ih => exact ih (recall_idle hs request.1 request.2).1

theorem after_refused (hs : s.corrupted = true) (later : List (RetrieveJob × List (Nat → Nat))) :
    after later s = s := by
  induction later with
  | nil => rfl
  | cons request later ih => rw [after, recall_refused hs, ih]

def BadTrailer (vid : Text) (job : RetrieveJob) (o : Outcome) : Prop :=
  ∃ what, o.thrown = some (.tapeFormatError what) ∧ o.session.currentFilePart = .header ∧
    Behind vid job (some what) o.session.drive.before

def Refused (s : ReadSession) : Prop :=
  ∀ later job sizes, recallFile job sizes (after later s) = ⟨[], some .sessionCorrupted, s⟩

theorem refused_of_corrupted (hs : s.corrupted = true) : Refused s := fun later job sizes => by
  rw [after_refused hs, recall_refused hs]

/-- Whatever was recalled before, and whatever failed: where the header of a file is expected the
head is behind the file of the last recall that was positioned, no block of another file is handed
over, and after a failure in a positioning by number everything is refused, unless it is the
trailer that does not pass its check. -/
theorem reader_safe {d d' : TapeDrive} {useLbp : Bool} {s₀ : ReadSession}
    (h : ReadSession.construct vid useLbp d = .ok s₀ d')
    (asked : List (RetrieveJob × List (Nat → Nat))) :
    ((after asked s₀).currentFilePart = .header →
        AtHeader vid (after asked s₀) (lastPositioned asked s₀ none)) ∧
      ∀ job sizes,
        ((recallFile job sizes (after asked s₀)).blocks ≠ [] →
          Delivered d.objects vid job (recallFile job sizes (after asked s₀)).blocks) ∧
        (job.positioningMethod = .byFSeq →
          (recallFile job sizes (after asked s₀)).thrown ≠ some .endOfFile →
          BadTrailer vid job (recallFile job sizes (after asked s₀)) ∨
            Refused (recallFile job sizes (after asked s₀)).session) := by
  have hidle := after_idle asked (construct_idle h)
  refine ⟨hidle.place, fun job sizes => ⟨(recall_idle hidle job sizes).2, fun hmethod hend => ?_⟩⟩
  by_cases hcorrupted : (after asked s₀).corrupted = true
  · rw [recall_refused hcorrupted]
    exact Or.inr (refused_of_corrupted hcorrupted)
  · have hnotOther : job.positioningMethod ≠ .other := by
      rw [hmethod]
      decide
    have hended := (recall_ended hidle (Bool.eq_false_iff.mpr hcorrupted) hnotOther sizes).1
    cases hended.place with
    | inl hmiddle => exact Or.inr (refused_of_corrupted (hmiddle.2 hmethod))
    | inr hbehind =>
      obtain ⟨verdict, hthrown, hpart, hbehind, -⟩ := hbehind
      cases verdict with
      | none => exact absurd hthrown hend
      | some what => exact Or.inl ⟨what, hthrown, hpart, hbehind⟩

def twoFiles : List Object :=
  Layout.fileObjects "V00001".toList (setupOf "IBM") 1 smallFile ++
    Layout.fileObjects "V00001".toList (setupOf "IBM") 2 otherFile

/-- The first file is read to its end, then the second one, or something else in its place. -/
theorem reader_safe_two_files : ∃ s₀ d', ReadSession.construct "V00001".toList false
      ⟨[], volumeLabel "V00001".toList false :: twoFiles, .disabled, []⟩ = .ok s₀ d' ∧
    let s₁ := after [(⟨1, 1, 0, .byFSeq⟩, [id, id])] s₀
    AtHeader "V00001".toList s₁ (some ⟨1, 1, 0, .byFSeq⟩) ∧
      (recallFile ⟨2, 2, 0, .byFSeq⟩ [id, id] s₁).blocks = ["more".toList, "text".toList] ∧
      Delivered (volumeLabel "V00001".toList false :: twoFiles) "V00001".toList
        ⟨2, 2, 0, .byFSeq⟩ ["more".toList, "text".toList] ∧
      Refused (recallFile ⟨3, 2, 0, .byFSeq⟩ [id, id] s₁).session := by
  obtain ⟨l, hconstruct⟩ := construct_labelled (by decide) (by decide)
    (d := ⟨[], volumeLabel "V00001".toList false :: twoFiles, .disabled, []⟩) rfl rfl false
  obtain ⟨hheader, hnext⟩ := reader_safe hconstruct [(⟨1, 1, 0, .byFSeq⟩, [id, id])]
  have hrun : ∀ s₀ : ReadSession,
      s₀ = waiting ⟨[volumeLabel "V00001".toList false], twoFiles, l, []⟩
        "V00001".toList false false 0 →
      let s₁ := after [(⟨1, 1, 0, .byFSeq⟩, [id, id])] s₀
      s₁.currentFilePart = .header ∧
        lastPositioned [(⟨1, 1, 0, .byFSeq⟩, [id, id])] s₀ none = some ⟨1, 1, 0, .byFSeq⟩ ∧
        (recallFile ⟨2, 2, 0, .byFSeq⟩ [id, id] s₁).blocks = ["more".toList, "text".toList] ∧
        (recallFile ⟨3, 2, 0, .byFSeq⟩ [id, id] s₁).thrown ≠ some .endOfFile ∧
        (recallFile ⟨3, 2, 0, .byFSeq⟩ [id, id] s₁).session.currentFilePart ≠ .header := by
    rintro s₀ rfl
    cases l with
    | disabled => decide +kernel
    | crc32cReadWrite => decide +kernel
    | crc32cReadOnly => decide +kernel
  obtain ⟨hpart, hlast, hblocks, hthrown, hmiddle⟩ := hrun _ rfl
  refine ⟨_, _, hconstruct, hlast ▸ hheader hpart, hblocks, ?_, ?_⟩
  · have hdelivered := (hnext ⟨2, 2, 0, .byFSeq⟩ [id, id]).1
    rw [hblocks] at hdelivered
    exact hdelivered (by simp)
  · rcases (hnext ⟨3, 2, 0, .byFSeq⟩ [id, id]).2 rfl hthrown with ⟨what, -, hheader, -⟩ | hrefused
    · exact absurd hheader hmiddle
    · exact hrefused

/-- Two files, of which the first one has its headers again in the place of its trailer. -/
def headersAsTrailer : List Object :=
  Layout.header "V00001".toList (setupOf "IBM") 1 smallFile ++
    .fileMark :: Layout.data smallFile ++
    .fileMark :: Layout.header "V00001".toList (setupOf "IBM") 1 smallFile ++
    .fileMark :: Layout.fileObjects "V00001".toList (setupOf "IBM") 2 smallFile

theorem bad_trailer_not_refused : ¬∀ (vid : Text) (d d' : TapeDrive) (useLbp : Bool)
    (s₀ : ReadSession), ReadSession.construct vid useLbp d = .ok s₀ d' →
    ∀ asked job sizes, job.positioningMethod = .byFSeq →
      (recallFile job sizes (after asked s₀)).thrown ≠ none →
      (recallFile job sizes (after asked s₀)).thrown ≠ some .endOfFile →
      Refused (recallFile job sizes (after asked s₀)).session := by
  intro h
  obtain ⟨l, hconstruct⟩ := construct_labelled (by decide) (by decide)
    (d := ⟨[], volumeLabel "V00001".toList false :: headersAsTrailer, .disabled, []⟩) rfl rfl false
  have hone := h _ _ _ _ _ hconstruct [] ⟨1, 1, 0, .byFSeq⟩ [id, id] rfl
  have hrefused : (recallFile ⟨1, 1, 0, .byFSeq⟩ [id, id] (waiting
      ⟨[volumeLabel "V00001".toList false], headersAsTrailer, l, []⟩ "V00001".toList false false
      0)).thrown ≠ none ∧ (recallFile ⟨1, 1, 0, .byFSeq⟩ [id, id] (waiting
      ⟨[volumeLabel "V00001".toList false], headersAsTrailer, l, []⟩ "V00001".toList false false
      0)).thrown ≠ some .endOfFile ∧ (recallFile ⟨1, 2, 0, .byFSeq⟩ [id, id]
      (recallFile ⟨1, 1, 0, .byFSeq⟩ [id, id] (waiting
      ⟨[volumeLabel "V00001".toList false], headersAsTrailer, l, []⟩ "V00001".toList false false
      0)).session).thrown = some .endOfFile := by
    cases l with
    | disabled => decide +kernel
    | crc32cReadWrite => decide +kernel
    | crc32cReadOnly => decide +kernel
  have hsecond := hone hrefused.1 hrefused.2.1 [] ⟨1, 2, 0, .byFSeq⟩ [id, id]
  have hthrown := hrefused.2.2
  simp only [after] at hsecond
  rw [hsecond] at hthrown
  cases hthrown

end Cta.TapeFile.ReaderSafety

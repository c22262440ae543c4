import Cta.TapeFile.Layout

/-! What sessions leave on a tape. -/
namespace Cta.TapeFile.WrittenTape
open Cta.Lib.FixedWidth Cta.Lib.Triples
open Cta.TapeFile.Structures Cta.TapeFile.HeaderChecker Cta.TapeFile.Drive
open Cta.TapeFile.LabelSession Cta.TapeFile.Writing Cta.TapeFile.Layout
open Cta.Tape.DataPipeline (toInt toInt_of_lt)
open Cta.Tape.DriveGeneric (LbpToUse)

variable {vid : Text} {lbp : Bool} {before next : List Object} {l : LbpToUse}

theorem writeImmediateFileMarks_run :
    writeImmediateFileMarks 1 ⟨before, next, l, []⟩ = .ok () ⟨.fileMark :: before, [], l, []⟩ :=
  rfl

theorem writeBlock_blockObject (hl : l ≠ .crc32cReadOnly) (data : Text) :
    writeBlock data ⟨before, [], l, []⟩ =
      .ok () ⟨(blockObject data).reverse ++ before, [], l, []⟩ := by
  unfold writeBlock blockObject
  rw [if_neg hl, attempt_run]
  by_cases h : data = []
  · simp [h]
  · simp [h, TapeDrive.append]

theorem writeLabels_run {ws₁ ws₂ ws₃ : List Nat} (before next : List Object)
    (hl : l ≠ .crc32cReadOnly)
    (r₁ : Record Char ws₁) (r₂ : Record Char ws₂) (r₃ : Record Char ws₃) (h₁ : 0 < ws₁.sum)
    (h₂ : 0 < ws₂.sum) (h₃ : 0 < ws₃.sum) :
    FileWriter.writeLabels [r₁.pack, r₂.pack, r₃.pack] ⟨before, next, l, []⟩ =
      .ok () ⟨.fileMark :: [labelBlock r₁ h₁, labelBlock r₂ h₂, labelBlock r₃ h₃].reverse ++ before,
        [], l, []⟩ := by
  simp only [FileWriter.writeLabels]
  rw [bind_ok (writeBlock_run hl r₁ h₁), bind_ok (writeBlock_run hl r₂ h₂),
    bind_ok (writeBlock_run hl r₃ h₃)]
  rfl

/-- A session that can write, with its head behind all that is on the tape. -/
structure Ready (vid : Text) (setup : Setup) (s : WriteSession) : Prop where
  corrupted : s.corrupted = false
  locked : s.locked = false
  vid : s.vid = vid
  compression : s.compressionEnabled = setup.compression
  site : s.siteName = setup.siteName
  host : s.hostName = setup.hostName
  device : s.deviceInfo = setup.deviceInfo

theorem sessionDrive_run {α : Type} {x : DriveM α} {s : WriteSession} {a : α} {d : TapeDrive}
    (h : x s.drive = .ok a d) : WriteSession.onDrive x s = .ok a { s with drive := d } :=
  onPart_ok h

theorem lock_run {s : WriteSession} (hl : s.locked = false) (hc : s.corrupted = false) :
    WriteSession.lock s = .ok () { s with locked := true } := by
  change (throwIf s.locked _ >>= _) s = _
  rw [bind_ok (throwIf_run (by simp [hl]) _ _), bind_ok (throwIf_run (by simp [hc]) _ _)]
  rfl

variable {setup : Setup} {s : WriteSession} {fSeq : Nat} {f : FileToWrite}

theorem openFile_run (hs : Ready vid setup s) (hdrive : s.drive = ⟨before, next, l, []⟩)
    (hl : l ≠ .crc32cReadOnly) (hid : f.archiveFileID ≠ 0) (hfSeq : 1 ≤ fSeq) :
    FileWriter.openFile ⟨f.archiveFileID, fSeq⟩ f.blockSize f.opened s =
      if fSeq = 1 ∨ before.length < 2 ^ 32 then
        .ok (if fSeq = 1 then 0 else before.length) { s with
          locked := true
          drive := ⟨.fileMark :: (header vid setup fSeq f).reverse ++ before, [], l, []⟩ }
      else .error (.exception "An overflow has occurred in getPostitionInfo")
        { s with locked := true } := by
  have hvalid : ¬(f.archiveFileID = 0 ∨ fSeq < 1) := by omega
  have hlabels := writeLabels_run before next hl
    (FileWriter.hdr1 s ⟨f.archiveFileID, fSeq⟩ f.opened) (FileWriter.hdr2 s f.blockSize)
    (FileWriter.uhl1 s ⟨f.archiveFileID, fSeq⟩ f.blockSize) (by decide) (by decide) (by decide)
  have hheader : [labelBlock (FileWriter.hdr1 s ⟨f.archiveFileID, fSeq⟩ f.opened) (by decide),
      labelBlock (FileWriter.hdr2 s f.blockSize) (by decide),
      labelBlock (FileWriter.uhl1 s ⟨f.archiveFileID, fSeq⟩ f.blockSize) (by decide)] =
      header vid setup fSeq f := by
    rw [header, FileWriter.hdr1, FileWriter.hdr2, FileWriter.uhl1, hs.vid, hs.compression, hs.site,
      hs.host, hs.device]
  rw [hheader] at hlabels
  unfold FileWriter.openFile
  rw [bind_ok (throwIf_run hvalid _ _)]
  change (throwIf s.corrupted _ >>= _) s = _
  rw [bind_ok (throwIf_run (by simp [hs.corrupted]) _ _), bind_ok (lock_run hs.locked hs.corrupted)]
  have hwrite : WriteSession.onDrive (FileWriter.writeLabels
      [(FileWriter.hdr1 s ⟨f.archiveFileID, fSeq⟩ f.opened).pack,
        (FileWriter.hdr2 s f.blockSize).pack,
        (FileWriter.uhl1 s ⟨f.archiveFileID, fSeq⟩ f.blockSize).pack])
      { s with locked := true } = .ok () { s with
        locked := true
        drive := ⟨.fileMark :: (header vid setup fSeq f).reverse ++ before, [], l, []⟩ } :=
    sessionDrive_run (by rw [hdrive]; exact hlabels)
  by_cases h1 : fSeq = 1
  · rw [if_pos h1, if_pos (Or.inl h1), if_pos h1, bind_ok (pure_run _ _), bind_ok hwrite]
    rfl
  · rw [if_neg h1]
    by_cases hfits : before.length < 2 ^ 32
    · have hposition : WriteSession.onDrive getPositionInfo { s with locked := true } =
          .ok before.length { s with locked := true } := by
        have hinfo : getPositionInfo s.drive = .ok before.length s.drive := by
          rw [hdrive]
          exact if_pos hfits
        exact sessionDrive_run hinfo
      rw [if_pos (Or.inr hfits), if_neg h1, bind_ok hposition, bind_ok hwrite]
      rfl
    · have hposition : WriteSession.onDrive getPositionInfo { s with locked := true } =
          .error (.exception "An overflow has occurred in getPostitionInfo")
            { s with locked := true } := by
        have hinfo : getPositionInfo s.drive =
            .error (.exception "An overflow has occurred in getPostitionInfo") s.drive := by
          rw [hdrive]
          exact if_neg hfits
        unfold WriteSession.onDrive onPart
        rw [hinfo]
      rw [if_neg (by omega), bind_error hposition]

theorem writerDrive_run {α : Type} {x : DriveM α} {w : FileWriter} {a : α} {d : TapeDrive}
    (h : x w.session.drive = .ok a d) :
    FileWriter.onDrive x w = .ok a { w with session := { w.session with drive := d } } :=
  onPart_ok (sessionDrive_run h)

def wrote (blocks : List Text) (d : TapeDrive) (w : FileWriter) : FileWriter :=
  { w with
    session := { w.session with drive := d }
    nonzeroFileWritten := w.nonzeroFileWritten || !blocks.isEmpty
    numberOfBlocks := w.numberOfBlocks + (blocks.flatMap blockObject).length }

theorem write_run (hl : l ≠ .crc32cReadOnly) {w : FileWriter} {t : Text} (ht : t ≠ [])
    (hdrive : w.session.drive = ⟨before, [], l, []⟩) :
    FileWriter.write t w =
      .ok () (wrote [t] ⟨(blockObject t).reverse ++ before, [], l, []⟩ w) := by
  have hpos : 0 < t.length := List.length_pos_of_ne_nil ht
  have hwrite := writerDrive_run (w := w) (x := writeBlock t) (by
    rw [hdrive]
    exact writeBlock_blockObject hl t)
  have hlength : (blockObject t).length = 1 := by simp [blockObject, ht]
  unfold FileWriter.write
  rw [bind_ok hwrite]
  change EStateM.Result.ok _ (ite _ _ _) = _
  rw [if_pos hpos]
  simp [wrote, hlength]

theorem writeAll_run (hl : l ≠ .crc32cReadOnly) {blocks : List Text} {w : FileWriter}
    (hblocks : ∀ b ∈ blocks, b ≠ []) (hdrive : w.session.drive = ⟨before, [], l, []⟩) :
    FileWriter.writeAll blocks w =
      .ok () (wrote blocks ⟨(blocks.flatMap blockObject).reverse ++ before, [], l, []⟩ w) := by
  induction blocks generalizing w before with
  | nil =>
    simp only [wrote, List.flatMap_nil, List.reverse_nil, List.nil_append, ← hdrive,
      List.isEmpty_nil, Bool.not_true, Bool.or_false, List.length_nil, Nat.add_zero]
    rfl
  | cons b blocks ih =>
    have hb := hblocks b List.mem_cons_self
    have hrest := @ih ((blockObject b).reverse ++ before)
      (wrote [b] ⟨(blockObject b).reverse ++ before, [], l, []⟩ w)
      (fun b' hb' => hblocks b' (List.mem_cons_of_mem b hb')) rfl
    rw [FileWriter.writeAll, bind_ok (write_run hl hb hdrive), hrest]
    simp [wrote, Nat.add_assoc]

theorem close_run (hl : l ≠ .crc32cReadOnly) {w : FileWriter} (hopen : w.isOpen = true)
    (hwritten : w.nonzeroFileWritten = true) (hs : w.session.vid = vid)
    (hsetup : w.session.compressionEnabled = setup.compression ∧
      w.session.siteName = setup.siteName ∧ w.session.hostName = setup.hostName ∧
      w.session.deviceInfo = setup.deviceInfo)
    (hjob : w.fileToMigrate = ⟨f.archiveFileID, fSeq⟩) (hsize : w.currentBlockSize = f.blockSize)
    (hcount : w.numberOfBlocks = (data f).length)
    (hdrive : w.session.drive = ⟨before, [], l, []⟩) :
    FileWriter.close f.closed w = .ok () { w with
      isOpen := false
      session := { w.session with
        drive := ⟨.fileMark :: (trailer vid setup fSeq f).reverse ++ .fileMark :: before, [], l,
          []⟩ } } := by
  have hmark := writerDrive_run (w := w) (x := writeImmediateFileMarks 1) (by
    rw [hdrive]
    exact writeImmediateFileMarks_run)
  have hlabels := writeLabels_run (.fileMark :: before) [] hl
    (FileWriter.eof1 w.session w.fileToMigrate f.closed w.numberOfBlocks)
    (FileWriter.eof2 w.session w.currentBlockSize)
    (FileWriter.utl1 w.session w.fileToMigrate w.currentBlockSize) (by decide) (by decide)
    (by decide)
  have htrailer : [labelBlock
        (FileWriter.eof1 w.session w.fileToMigrate f.closed w.numberOfBlocks) (by decide),
      labelBlock (FileWriter.eof2 w.session w.currentBlockSize) (by decide),
      labelBlock (FileWriter.utl1 w.session w.fileToMigrate w.currentBlockSize) (by decide)] =
      trailer vid setup fSeq f := by
    rw [trailer, FileWriter.eof1, FileWriter.eof2, FileWriter.utl1, hs, hsetup.1, hsetup.2.1,
      hsetup.2.2.1, hsetup.2.2.2, hjob, hsize, hcount]
  rw [htrailer] at hlabels
  have hwrite := writerDrive_run (w := { w with session := { w.session with
    drive := ⟨.fileMark :: before, [], l, []⟩ } }) hlabels
  unfold FileWriter.close
  change (FileWriter.corruptIf (!w.isOpen) _ >>= _) w = _
  have hpass : ∀ c e, c = false → FileWriter.corruptIf (c = true) e w = .ok () w := by
    intro c e hc
    rw [hc]
    rfl
  rw [bind_ok (hpass _ _ (by simp [hopen])), bind_ok (hpass _ _ (by simp [hwritten])),
    bind_ok hmark, bind_ok hwrite]
  rfl

theorem writeFile_run (hs : Ready vid setup s) (hdrive : s.drive = ⟨before, next, l, []⟩)
    (hl : l ≠ .crc32cReadOnly) (hf : WellFormed f) (hfSeq : 1 ≤ fSeq)
    (hfits : fSeq = 1 ∨ before.length < 2 ^ 32) :
    writeFile fSeq f s = .ok (if fSeq = 1 then 0 else before.length)
      { s with drive := ⟨(fileObjects vid setup fSeq f).reverse ++ before, [], l, []⟩ } := by
  have hopen := openFile_run hs hdrive hl hf.id_pos hfSeq
  rw [if_pos hfits] at hopen
  have hnonempty : f.blocks.isEmpty = false := List.isEmpty_eq_false_iff.mpr hf.blocks_ne
  unfold writeFile FileWriter.construct
  rw [hopen]
  simp only []
  have hclose : ∀ w, w = wrote f.blocks
      ⟨(data f).reverse ++ .fileMark :: (header vid setup fSeq f).reverse ++ before, [], l, []⟩
      ⟨{ s with
          locked := true
          drive := ⟨.fileMark :: (header vid setup fSeq f).reverse ++ before, [], l, []⟩ },
        f.blockSize, ⟨f.archiveFileID, fSeq⟩, true, false, 0,
        if fSeq = 1 then 0 else before.length⟩ →
      FileWriter.close f.closed w = .ok () { w with
        isOpen := false
        session := { w.session with
          drive := ⟨.fileMark :: (trailer vid setup fSeq f).reverse ++ .fileMark ::
            ((data f).reverse ++ .fileMark :: (header vid setup fSeq f).reverse ++ before), [], l,
            []⟩ } } := by
    intro w hw
    subst hw
    exact close_run hl rfl (by simp [wrote, hnonempty]) hs.vid
      ⟨hs.compression, hs.site, hs.host, hs.device⟩ rfl rfl (by simp [wrote, data]) rfl
  rw [bind_ok (writeAll_run hl (fun b hb => (hf.blocks_fit b hb).1) rfl),
    hclose _ (by simp [wrote, data])]
  simp [wrote, FileWriter.destroy, WriteSession.release, hs.corrupted, hs.locked, fileObjects, body,
    data]

theorem writeFile_fits (hs : Ready vid setup s) (hdrive : s.drive = ⟨before, next, l, []⟩)
    (hl : l ≠ .crc32cReadOnly) (hf : WellFormed f) (hfSeq : 1 ≤ fSeq) {blockId : Nat}
    {s' : WriteSession} (h : writeFile fSeq f s = .ok blockId s') :
    fSeq = 1 ∨ before.length < 2 ^ 32 := by
  by_contra hfits
  have hopen := openFile_run hs hdrive hl hf.id_pos hfSeq
  rw [if_neg hfits] at hopen
  unfold writeFile FileWriter.construct at h
  rw [hopen] at h
  cases h

/-- Files that a reader can find, from this position and this number on. -/
def Placed (vid : Text) : Nat → Nat → List RecordedFile → Prop
  | _, _, [] => True
  | position, fSeq, r :: rs =>
    WellFormed r.file ∧ NotBlank r.setup.siteName r.setup.hostName r.setup.deviceInfo ∧
      (fSeq = 1 ∨ position < 2 ^ 32) ∧ r.blockId = (if fSeq = 1 then 0 else position) ∧
      Placed vid (position + (fileObjects vid r.setup fSeq r.file).length) (fSeq + 1) rs

theorem placed_append (position n : Nat) (rs rs' : List RecordedFile) :
    Placed vid position n (rs ++ rs') ↔ Placed vid position n rs ∧
      Placed vid (position + (filesObjects vid n rs).length) (n + rs.length) rs' := by
  induction rs generalizing position n with
  | nil => simp [Placed, filesObjects]
  | cons r rs ih =>
    have hposition : position + (fileObjects vid r.setup n r.file).length +
        (filesObjects vid (n + 1) rs).length =
        position + (filesObjects vid n (r :: rs)).length := by
      rw [filesObjects, List.length_append, Nat.add_assoc]
    have hnumber : n + 1 + rs.length = n + (r :: rs).length := by
      rw [List.length_cons]
      omega
    rw [List.cons_append, Placed, Placed, ih, hposition, hnumber]
    simp only [and_assoc]

def recorded (setup : Setup) (fs : List FileToWrite) (blockIds : List Nat) : List RecordedFile :=
  List.zipWith (fun f blockId => ⟨f, setup, blockId⟩) fs blockIds

theorem writeFiles_ok (hl : l ≠ .crc32cReadOnly) {fs : List FileToWrite}
    (hfs : ∀ f ∈ fs, WellFormed f)
    (hblank : NotBlank setup.siteName setup.hostName setup.deviceInfo) {blockIds : List Nat}
    {s' : WriteSession} (hs : Ready vid setup s) (hdrive : s.drive = ⟨before, next, l, []⟩)
    (hfSeq : 1 ≤ fSeq) (h : writeFiles fSeq fs s = .ok blockIds s') :
    Placed vid before.length fSeq (recorded setup fs blockIds) ∧
      ∃ next', s'.drive = ⟨(filesObjects vid fSeq (recorded setup fs blockIds)).reverse ++ before,
        next', l, []⟩ ∧ (next = [] ∨ recorded setup fs blockIds ≠ [] → next' = []) ∧
        (recorded setup fs blockIds = [] → next' = next) := by
  induction fs generalizing s before next fSeq blockIds with
  | nil =>
    cases h
    refine ⟨trivial, next, hdrive, ?_, fun _ => rfl⟩
    simp [recorded]
  | cons f fs ih =>
    have hf := hfs f List.mem_cons_self
    unfold writeFiles at h
    cases hone : writeFile fSeq f s with
    | error e s'' =>
      rw [bind_error hone] at h
      cases h
    | ok blockId s'' =>
      have hfits := writeFile_fits hs hdrive hl hf hfSeq hone
      rw [writeFile_run hs hdrive hl hf hfSeq hfits] at hone
      cases hone
      rw [bind_ok (writeFile_run hs hdrive hl hf hfSeq hfits)] at h
      set s₁ : WriteSession := { s with
        drive := ⟨(fileObjects vid setup fSeq f).reverse ++ before, [], l, []⟩ } with hs₁
      have hready : Ready vid setup s₁ :=
        ⟨hs.corrupted, hs.locked, hs.vid, hs.compression, hs.site, hs.host, hs.device⟩
      cases hrest : writeFiles (fSeq + 1) fs s₁ with
      | error e s'' =>
        rw [bind_error hrest] at h
        cases h
      | ok blockIds' s'' =>
        rw [bind_ok hrest] at h
        cases h
        obtain ⟨hplaced, next', hdrive', hnext, -⟩ := ih
          (fun f' hf' => hfs f' (List.mem_cons_of_mem f hf')) hready rfl (Nat.le_succ_of_le hfSeq)
          hrest
        have hposition : ((fileObjects vid setup fSeq f).reverse ++ before).length =
            before.length + (fileObjects vid setup fSeq f).length := by
          rw [List.length_append, List.length_reverse, Nat.add_comm]
        rw [hposition] at hplaced
        refine ⟨⟨hf, hblank, hfits, rfl, hplaced⟩, next', ?_, fun _ => hnext (Or.inl rfl), ?_⟩
        · rw [hdrive']
          simp [recorded, filesObjects]
        · intro hnil
          cases hnil

/-- A tape with these files on it. What follows the label of a tape without files is of no
interest. -/
structure Laid (vid : Text) (lbp : Bool) (tape : List Object)
    (files : List RecordedFile) : Prop where
  tape : ∃ rest, tape = volumeLabel vid lbp :: (filesObjects vid 1 files ++ rest) ∧
    (files ≠ [] → rest = [])
  placed : Placed vid 1 1 files

variable {tape : List Object} {files : List RecordedFile}

theorem placed_number (h : Placed vid 1 1 files) : files.length < 2 ^ 29 := by
  cases List.eq_nil_or_concat files with
  | inl hnil => simp [hnil]
  | inr hconcat =>
    obtain ⟨init, r, rfl⟩ := hconcat
    rw [List.concat_eq_append] at h ⊢
    obtain ⟨-, -, -, hfits, -⟩ := (placed_append _ _ _ _).mp h
    have hlength := length_filesObjects_ge vid 1 init
    rw [List.length_append, List.length_singleton]
    omega

theorem placed_of_mem {position n : Nat} (h : Placed vid position n files) {r : RecordedFile}
    (hr : r ∈ files) :
    WellFormed r.file ∧ NotBlank r.setup.siteName r.setup.hostName r.setup.deviceInfo := by
  induction files generalizing position n with
  | nil => cases hr
  | cons r' files ih =>
    obtain ⟨hfile, hblank, -, -, hrest⟩ := h
    cases List.mem_cons.mp hr with
    | inl heq =>
      subst heq
      exact ⟨hfile, hblank⟩
    | inr hmem => exact ih hrest hmem

theorem fileId_not_blank {job : ArchiveJob} (hid : job.archiveFileID ≠ 0)
    (hlt : job.archiveFileID < 2 ^ 64) : ¬Blank 17 (FileWriter.fileId job) := by
  intro hblank
  have hnumber := extractNumber_fileId hid hlt
  have hzero : extractNumber 16 (List.replicate 17 ' ') = 0 := by decide
  change setString 17 ((Lib.Numerals.numeral 16 job.archiveFileID).map Char.toUpper) = _ at hblank
  rw [hblank, hzero] at hnumber
  exact hid hnumber.symm

theorem extractNumber_fSeq {n : Nat} (h : n < 2 ^ 31) :
    extractNumber 10 (setInt 10 (toInt n)) = n := by
  rw [toInt_of_lt h]
  exact extractNumber_setInt (by omega) (by omega) (by omega)

theorem actualfSeq_fill (label : Text) (i j : Int) (site host : Text) (d : DeviceInfo) :
    (UHL1UTL1.fill label i j site host d).actualfSeq = setInt 10 i := rfl

theorem trailer_verified (hvid : ¬Blank 6 vid) (hf : WellFormed f)
    (hblank : NotBlank setup.siteName setup.hostName setup.deviceInfo) (fSeq : Nat) (i j k : Int) :
    (EOF1.verify (EOF1.fill f.closed (FileWriter.fileId ⟨f.archiveFileID, fSeq⟩) vid i j)).or
      ((EOF2.verify (EOF2.fill k setup.compression)).or
        (UTL1.verify (UTL1.fill i k setup.siteName setup.hostName setup.deviceInfo))) = none := by
  have hid : ¬Blank 17 (FileWriter.fileId ⟨f.archiveFileID, fSeq⟩) :=
    fileId_not_blank hf.id_pos hf.id_lt
  have heof1 : EOF1.verify (EOF1.fill f.closed (FileWriter.fileId ⟨f.archiveFileID, fSeq⟩) vid i j) =
      none := EOF1.verify_fill hid hvid j
  have heof2 : EOF2.verify (EOF2.fill k setup.compression) = none :=
    HDR2EOF2.verify_fill "EOF2" k setup.compression _
  have hutl1 : UTL1.verify (UTL1.fill i k setup.siteName setup.hostName setup.deviceInfo) = none :=
    UHL1UTL1.verify_fill hblank "UTL1" i k _
  rw [heof1, heof2, hutl1]
  rfl

theorem checkLastTrailer_run {init : List RecordedFile} {r : RecordedFile} {rest : List Object}
    (hvid : ¬Blank 6 vid) (hplaced : Placed vid 1 1 (init ++ [r])) :
    WriteSession.checkLastTrailer (init ++ [r]).length
        ⟨before, filesObjects vid 1 (init ++ [r]) ++ rest, l, []⟩ =
      .ok () ⟨(filesObjects vid 1 (init ++ [r])).reverse ++ before, rest, l, []⟩ := by
  have hnumber := placed_number hplaced
  obtain ⟨hf, hblank⟩ := placed_of_mem hplaced (r := r) (by simp)
  rw [List.length_append, List.length_singleton] at hnumber ⊢
  have hobjects : filesObjects vid 1 (init ++ [r]) ++ rest =
      (filesObjects vid 1 init ++ body vid r.setup (1 + init.length) r.file) ++ .fileMark ::
        (trailer vid r.setup (1 + init.length) r.file ++ .fileMark :: rest) := by
    simp [filesObjects_append, filesObjects, fileObjects]
  have hmarks : ((init.length + 1) * 3 - 1) % 2 ^ 32 =
      marks (filesObjects vid 1 init ++ body vid r.setup (1 + init.length) r.file) + 1 := by
    rw [marks_append, marks_filesObjects, marks_body]
    omega
  have hforward : spaceFileMarksForward (((init.length + 1) * 3 - 1) % 2 ^ 32)
      ⟨before, filesObjects vid 1 (init ++ [r]) ++ rest, l, []⟩ =
      .ok () ⟨.fileMark :: (filesObjects vid 1 init ++
        body vid r.setup (1 + init.length) r.file).reverse ++ before,
        trailer vid r.setup (1 + init.length) r.file ++ .fileMark :: rest, l, []⟩ := by
    rw [hobjects]
    exact spaceFileMarksForward_run _ _ _ _ hmarks
  have hfSeq := extractNumber_fSeq (n := init.length + 1) (by omega)
  unfold WriteSession.checkLastTrailer
  rw [bind_ok hforward]
  unfold trailer
  simp only [List.cons_append, List.nil_append]
  rw [bind_ok (readLabel_run _ _ _), bind_ok (readLabel_run _ _ _), bind_ok (readLabel_run _ _ _),
    bind_ok (readFileMark_run _), trailer_verified hvid hf hblank, bind_ok (verified_none _),
    checkUTL1_none.mpr, verified_none]
  · simp [filesObjects_append, filesObjects, fileObjects, trailer]
  · rw [UTL1.fill, actualfSeq_fill, Nat.add_comm 1]
    exact hfSeq

theorem construct_run (hlength : vid.length = 6) (hvid : ¬Blank 6 vid)
    (hplaced : Placed vid 1 1 files) {rest : List Object} {d : TapeDrive}
    (htape : d.objects = volumeLabel vid lbp :: (filesObjects vid 1 files ++ rest))
    (hfaults : d.faults = []) (hlbp : lbp = true → setup.useLbp = true) :
    ∃ s, WriteSession.construct vid files.length setup d = .ok s s.drive ∧ Ready vid setup s ∧
      s.lastWrittenFSeq = files.length ∧
      s.drive = ⟨(filesObjects vid 1 files).reverse ++ [volumeLabel vid lbp], rest,
        if lbp then .crc32cReadWrite else .disabled, []⟩ := by
  obtain ⟨before, next, l, faults⟩ := d
  subst hfaults
  have hopen : openTape "WriteSession" (WriteSession.enable setup.useLbp) vid
      ⟨before, next, l, []⟩ =
      .ok lbp ⟨[volumeLabel vid lbp], filesObjects vid 1 files ++ rest,
        if lbp then .crc32cReadWrite else .disabled, []⟩ :=
    openTape_run hlength hvid (fun h before next l => by
      rw [WriteSession.enable, hlbp h]
      rfl) htape
  have htrailer : (if 0 < files.length then WriteSession.checkLastTrailer files.length else pure ())
      ⟨[volumeLabel vid lbp], filesObjects vid 1 files ++ rest,
        if lbp then .crc32cReadWrite else .disabled, []⟩ =
      .ok () ⟨(filesObjects vid 1 files).reverse ++ [volumeLabel vid lbp], rest,
        if lbp then .crc32cReadWrite else .disabled, []⟩ := by
    cases List.eq_nil_or_concat files with
    | inl hnil =>
      subst hnil
      rfl
    | inr hconcat =>
      obtain ⟨init, r, rfl⟩ := hconcat
      rw [List.concat_eq_append] at hplaced ⊢
      rw [if_pos (by simp)]
      exact checkLastTrailer_run hvid hplaced
  have hcheck : WriteSession.checkTape vid files.length setup.useLbp ⟨before, next, l, []⟩ =
      .ok lbp ⟨(filesObjects vid 1 files).reverse ++ [volumeLabel vid lbp], rest,
        if lbp then .crc32cReadWrite else .disabled, []⟩ := by
    unfold WriteSession.checkTape
    rw [bind_ok hopen, bind_ok htrailer]
    rfl
  unfold WriteSession.construct
  rw [hcheck]
  exact ⟨_, rfl, ⟨rfl, rfl, rfl, rfl, rfl, rfl, rfl⟩, rfl, rfl⟩

/-- A tape that is labelled for logical block protection is refused by a session without it. -/
theorem construct_refused (hlength : vid.length = 6) {rest : List Object} {d : TapeDrive}
    (htape : d.objects = volumeLabel vid true :: rest) (hfaults : d.faults = [])
    (huse : setup.useLbp = false) (n : Nat) :
    ∃ e d', WriteSession.construct vid n setup d = .error e d' := by
  obtain ⟨before, next, l, faults⟩ := d
  subst hfaults
  have hopen : ∃ e d', openTape "WriteSession" (WriteSession.enable false) vid
      ⟨before, next, l, []⟩ = .error e d' := openTape_refused hlength rfl htape
  obtain ⟨e, d', hopen⟩ := hopen
  unfold WriteSession.construct WriteSession.checkTape
  rw [huse, bind_error hopen]
  exact ⟨e, d', rfl⟩

/-- Tapes that were labelled, and what sessions that are set up as allowed have written on them.
Between two sessions the head may be moved. -/
inductive Recorded (Allowed : Setup → Prop) (vid : Text) (lbp : Bool) :
    List Object → List RecordedFile → Prop where
  | labelled {old : List Object} {l : LbpToUse} {time : LocalTime} {d : TapeDrive}
      (h : label vid lbp time ⟨[], old, l, []⟩ = .ok () d) : Recorded Allowed vid lbp d.objects []
  | session {d d' : TapeDrive} {files : List RecordedFile} {setup : Setup} {s s' : WriteSession}
      {fs : List FileToWrite} {blockIds : List Nat}
      (before : Recorded Allowed vid lbp d.objects files) (works : d.faults = [])
      (allowed : Allowed setup) (wellFormed : ∀ f ∈ fs, WellFormed f)
      (opened : WriteSession.construct vid files.length setup d = .ok s d')
      (written : writeFiles (files.length + 1) fs s = .ok blockIds s') :
      Recorded Allowed vid lbp s'.drive.objects (files ++ recorded setup fs blockIds)

def Labels (setup : Setup) : Prop := NotBlank setup.siteName setup.hostName setup.deviceInfo

theorem label_run (hl : l ≠ .crc32cReadOnly) (vid : Text) (lbp : Bool) (time : LocalTime)
    (old : List Object) :
    label vid lbp time ⟨[], old, l, []⟩ = .ok () ⟨[.fileMark,
      labelBlock (HDR1PRELABEL.fill time vid) (by decide), volumeLabel vid lbp], [], l, []⟩ := by
  unfold label
  rw [bind_ok (writeBlock_run hl _ (by decide)), bind_ok (writeBlock_run hl _ (by decide))]
  rfl

theorem laid_of_labelled {old : List Object} {time : LocalTime} {d : TapeDrive}
    (h : label vid lbp time ⟨[], old, l, []⟩ = .ok () d) : Laid vid lbp d.objects [] := by
  by_cases hl : l = .crc32cReadOnly
  · subst hl
    cases h
  · rw [label_run hl] at h
    cases h
    exact ⟨⟨_, rfl, fun hne => absurd rfl hne⟩, trivial⟩

theorem laid_of_recorded (hlength : vid.length = 6) (hvid : ¬Blank 6 vid)
    (h : Recorded Labels vid lbp tape files) : Laid vid lbp tape files := by
  induction h with
  | labelled h => exact laid_of_labelled h
  | @session d d' files setup s s' fs blockIds _ works allowed wellFormed opened written ih =>
    obtain ⟨⟨rest, htape, hrest⟩, hplaced⟩ := ih
    have hlbp : lbp = true → setup.useLbp = true := by
      intro hlbp
      subst hlbp
      by_contra huse
      obtain ⟨e, d'', hrefused⟩ := construct_refused hlength htape works
        (Bool.eq_false_iff.mpr huse) files.length
      rw [hrefused] at opened
      cases opened
    obtain ⟨s₀, hconstruct, hready, -, hdrive⟩ :=
      construct_run hlength hvid hplaced htape works hlbp
    rw [hconstruct] at opened
    cases opened
    have hmode : (if lbp then LbpToUse.crc32cReadWrite else .disabled) ≠ .crc32cReadOnly := by
      cases lbp with
      | false => decide
      | true => decide
    rw [Nat.add_comm files.length] at written
    obtain ⟨hplaced', next', hdrive', hnext, -⟩ := writeFiles_ok hmode wellFormed allowed
      hready hdrive (Nat.le_add_right _ _) written
    have hposition : ((filesObjects vid 1 files).reverse ++ [volumeLabel vid lbp]).length =
        1 + (filesObjects vid 1 files).length := by
      rw [List.length_append, List.length_reverse, List.length_singleton, Nat.add_comm]
    rw [hposition] at hplaced'
    refine ⟨⟨next', ?_, ?_⟩, (placed_append _ _ _ _).mpr ⟨hplaced, hplaced'⟩⟩
    · rw [TapeDrive.objects, hdrive', filesObjects_append]
      simp
    · intro hne
      by_cases hnew : recorded setup fs blockIds = []
      · rw [hnew, List.append_nil] at hne
        exact hnext (Or.inl (hrest hne))
      · exact hnext (Or.inr hnew)

end Cta.TapeFile.WrittenTape

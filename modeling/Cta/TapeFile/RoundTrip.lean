import Cta.TapeFile.CtaFileReader
import Cta.TapeFile.WrittenTape

/-! What was written is read back. -/
namespace Cta.TapeFile.RoundTrip
open Cta.Lib.FixedWidth Cta.Lib.Triples
open Cta.TapeFile.Structures Cta.TapeFile.HeaderChecker Cta.TapeFile.Drive
open Cta.TapeFile.LabelSession Cta.TapeFile.Writing Cta.TapeFile.Layout
open Cta.TapeFile.WrittenTape Cta.TapeFile.CtaFileReader
open Cta.Tape.DataPipeline (toInt toInt_of_lt)
open Cta.Tape.DriveGeneric (LbpToUse)

variable {vid : Text} {lbp : Bool} {before next : List Object} {l : LbpToUse}

theorem readerDrive_run {α : Type} {x : DriveM α} {r : FileReader} {a : α} {d : TapeDrive}
    (h : x r.session.drive = .ok a d) :
    FileReader.onDrive x r = .ok a { r with session := { r.session with drive := d } } :=
  onPart_ok h

theorem readBlock_run {t : Text} (ht : t ≠ []) {count : Nat} (hfits : t.length ≤ count) :
    readBlock count ⟨before, blockObject t ++ next, l, []⟩ =
      .ok t ⟨(blockObject t).reverse ++ before, next, l, []⟩ := by
  unfold readBlock blockObject
  rw [attempt_run, dif_neg ht]
  simp [TapeDrive.pass, Nat.not_lt.mpr hfits]

theorem readNextDataBlock_run {t : Text} (ht : t ≠ []) {r : FileReader}
    (hfits : t.length ≤ r.currentBlockSize)
    (hdrive : r.session.drive = ⟨before, blockObject t ++ next, l, []⟩) :
    FileReader.readNextDataBlock r.currentBlockSize r = .ok t { r with session := { r.session with
      drive := ⟨(blockObject t).reverse ++ before, next, l, []⟩ } } := by
  have hread : readBlock r.currentBlockSize r.session.drive =
      .ok t ⟨(blockObject t).reverse ++ before, next, l, []⟩ := by
    rw [hdrive]
    exact readBlock_run ht hfits
  unfold FileReader.readNextDataBlock
  change (throwIf _ _ >>= _) r = _
  rw [bind_ok (throwIf_run (by simp) _ _), bind_ok (readerDrive_run hread), if_neg ht]
  rfl

variable {setup : Setup} {fSeq : Nat} {f : FileToWrite}

theorem checkTrailers_run (hvid : ¬Blank 6 vid) (hf : WellFormed f) (hblank : Labels setup)
    {r : FileReader}
    (hdrive : r.session.drive =
      ⟨before, trailer vid setup fSeq f ++ .fileMark :: next, l, []⟩) :
    FileReader.checkTrailers r = .ok () { r with session := { r.session with
      drive := ⟨.fileMark :: (trailer vid setup fSeq f).reverse ++ before, next, l, []⟩
      fseq := (r.session.fseq + 1) % 2 ^ 32
      currentFilePart := .header } } := by
  obtain ⟨⟨drive, vid', useLbp, corrupted, locked, fseq, part, detected⟩, size, code⟩ := r
  simp only at hdrive
  subst hdrive
  have hlabel : ∀ {ws : List Nat} (label : Record Char ws) (h : 0 < ws.sum) (c : String)
      (b n : List Object) (part : PartOfFile),
      FileReader.onDrive (readLabel ws c)
        ⟨⟨⟨b, labelBlock label h :: n, l, []⟩, vid', useLbp, corrupted, locked, fseq, part, detected⟩,
          size, code⟩ =
      .ok label ⟨⟨⟨labelBlock label h :: b, n, l, []⟩, vid', useLbp, corrupted, locked, fseq, part,
        detected⟩, size, code⟩ :=
    fun label h c b n part => readerDrive_run (readLabel_run label h c)
  unfold FileReader.checkTrailers FileReader.setCurrentFilePart FileReader.setCurrentFseq trailer
  simp only [List.cons_append, List.nil_append]
  rw [bind_ok (modify_run _ _), bind_ok (hlabel _ _ _ _ _ _), bind_ok (hlabel _ _ _ _ _ _),
    bind_ok (hlabel _ _ _ _ _ _), bind_ok (readerDrive_run (readFileMark_run _)),
    bind_ok (get_run _), bind_ok (modify_run _ _), bind_ok (modify_run _ _),
    trailer_verified hvid hf hblank, verified_none]
  simp

def passed (d : TapeDrive) (r : FileReader) : FileReader :=
  { r with session := { r.session with
    drive := d
    fseq := (r.session.fseq + 1) % 2 ^ 32
    currentFilePart := .header } }

theorem endOfFile_run (hvid : ¬Blank 6 vid) (hf : WellFormed f) (hblank : Labels setup)
    {r : FileReader}
    (hdrive : r.session.drive =
      ⟨before, .fileMark :: trailer vid setup fSeq f ++ .fileMark :: next, l, []⟩) :
    FileReader.readNextDataBlock r.currentBlockSize r = .error .endOfFile
      (passed ⟨.fileMark :: (trailer vid setup fSeq f).reverse ++ .fileMark :: before, next, l, []⟩
        r) := by
  have hread : readBlock r.currentBlockSize r.session.drive =
      .ok [] ⟨.fileMark :: before, trailer vid setup fSeq f ++ .fileMark :: next, l, []⟩ := by
    rw [hdrive]
    rfl
  unfold FileReader.readNextDataBlock
  rw [bind_ok (get_run _), bind_ok (throwIf_run (by simp) _ _), bind_ok (readerDrive_run hread),
    if_pos rfl, bind_ok (checkTrailers_run hvid hf hblank rfl)]
  rfl

theorem readBlocks_run (hvid : ¬Blank 6 vid) (hf : WellFormed f) (hblank : Labels setup)
    {blocks : List Text} (hblocks : ∀ b ∈ blocks, b ≠ [] ∧ b.length ≤ f.blockSize)
    {r : FileReader} (hsize : r.currentBlockSize = f.blockSize) (extra : Nat)
    (hdrive : r.session.drive = ⟨before, blocks.flatMap blockObject ++
      .fileMark :: trailer vid setup fSeq f ++ .fileMark :: next, l, []⟩) :
    readBlocks (List.replicate (blocks.length + 1 + extra) id) r =
      ⟨blocks, some .endOfFile, (passed ⟨.fileMark :: (trailer vid setup fSeq f).reverse ++
        .fileMark :: (blocks.flatMap blockObject).reverse ++ before, next, l, []⟩ r).destroy⟩ := by
  induction blocks generalizing r before with
  | nil =>
    have hend := endOfFile_run hvid hf hblank hdrive
    have hcount : ([] : List Text).length + 1 + extra = extra + 1 := by
      rw [List.length_nil]
      omega
    rw [hcount, List.replicate_succ]
    simp only [readBlocks, id, hend]
    simp
  | cons b blocks ih =>
    have hb := hblocks b List.mem_cons_self
    have hdrive' : r.session.drive = ⟨before, blockObject b ++ (blocks.flatMap blockObject ++
        .fileMark :: trailer vid setup fSeq f ++ .fileMark :: next), l, []⟩ := by
      rw [hdrive]
      simp
    have hread := readNextDataBlock_run hb.1 (hsize ▸ hb.2) hdrive'
    have hrest := @ih ((blockObject b).reverse ++ before) (fun b' hb' =>
      hblocks b' (List.mem_cons_of_mem b hb')) { r with session := { r.session with
      drive := ⟨(blockObject b).reverse ++ before, blocks.flatMap blockObject ++
        .fileMark :: trailer vid setup fSeq f ++ .fileMark :: next, l, []⟩ } } hsize rfl
    have hcount : (b :: blocks).length + 1 + extra = blocks.length + 1 + extra + 1 := by
      rw [List.length_cons]
      omega
    rw [hcount, List.replicate_succ]
    simp only [readBlocks, id, hread, hrest]
    simp [passed]

theorem header_verified (hvid : ¬Blank 6 vid) (hf : WellFormed f) (hblank : Labels setup)
    (fSeq : Nat) (i k : Int) :
    (HDR1.verify (HDR1.fill f.opened (FileWriter.fileId ⟨f.archiveFileID, fSeq⟩) vid i)).or
      ((HDR2.verify (HDR2.fill k setup.compression)).or
        (UHL1.verify (UHL1.fill i k setup.siteName setup.hostName setup.deviceInfo))) = none := by
  have hid : ¬Blank 17 (FileWriter.fileId ⟨f.archiveFileID, fSeq⟩) :=
    fileId_not_blank hf.id_pos hf.id_lt
  have hhdr1 : HDR1.verify (HDR1.fill f.opened (FileWriter.fileId ⟨f.archiveFileID, fSeq⟩) vid i) =
      none := HDR1.verify_fill hid hvid
  have hhdr2 : HDR2.verify (HDR2.fill k setup.compression) = none :=
    HDR2EOF2.verify_fill "HDR2" k setup.compression _
  have huhl1 : UHL1.verify (UHL1.fill i k setup.siteName setup.hostName setup.deviceInfo) = none :=
    UHL1UTL1.verify_fill hblank "UHL1" i k _
  rw [hhdr1, hhdr2, huhl1]
  rfl

theorem actualBlockSize_fill (label : Text) (i j : Int) (site host : Text) (d : DeviceInfo) :
    (UHL1UTL1.fill label i j site host d).actualBlockSize = setInt 10 j := rfl

theorem checkHDR1_fill (hlength : vid.length = 6) (hf : WellFormed f) (fSeq : Nat) (i : Int) :
    checkHDR1 (HDR1.fill f.opened (FileWriter.fileId ⟨f.archiveFileID, fSeq⟩) vid i)
      f.archiveFileID vid = none := by
  have hid : (HDR1.fill f.opened (FileWriter.fileId ⟨f.archiveFileID, fSeq⟩) vid i).fileId =
      setString 17 (FileWriter.fileId ⟨f.archiveFileID, fSeq⟩) := rfl
  have hvsn : (HDR1.fill f.opened (FileWriter.fileId ⟨f.archiveFileID, fSeq⟩) vid i).VSN =
      setString 6 vid := rfl
  rw [checkHDR1_none, hid, hvsn, FileWriter.fileId, extractNumber_fileId hf.id_pos hf.id_lt,
    setString, hlength, List.take_of_length_le (Nat.le_of_eq hlength)]
  simp

theorem setBlockSize_run (hf : WellFormed f) (i : Int) (r : FileReader) :
    FileReader.setBlockSize
        (UHL1.fill i (toInt f.blockSize) setup.siteName setup.hostName setup.deviceInfo) r =
      .ok () { r with currentBlockSize := f.blockSize } := by
  have hpos := hf.size_pos
  have hlt := hf.size_lt
  have hsize : (atol (UHL1.fill i (toInt f.blockSize) setup.siteName setup.hostName
      setup.deviceInfo).actualBlockSize % 2 ^ 64).toNat = f.blockSize := by
    rw [UHL1.fill, actualBlockSize_fill, toInt_of_lt hf.size_lt,
      atol_setInt (by omega) (by omega)]
    omega
  unfold FileReader.setBlockSize
  simp only [hsize]
  rw [bind_ok (modify_run _ _), throwIf_run (by omega)]

def accepted (d : TapeDrive) (fSeq blockSize : Nat) (r : FileReader) : FileReader :=
  { r with
    session := { r.session with
      drive := d
      fseq := fSeq
      currentFilePart := .payload }
    currentBlockSize := blockSize }

theorem readAccepted_run (hvid : ¬Blank 6 vid) (hf : WellFormed f) (hblank : Labels setup)
    (extra : Nat) (r : FileReader) :
    readBlocks (List.replicate (f.blocks.length + 1 + extra) id)
        (accepted ⟨before, f.blocks.flatMap blockObject ++
          .fileMark :: trailer vid setup fSeq f ++ .fileMark :: next, l, []⟩ fSeq f.blockSize r) =
      ⟨f.blocks, some .endOfFile, (passed ⟨.fileMark :: (trailer vid setup fSeq f).reverse ++
        .fileMark :: (f.blocks.flatMap blockObject).reverse ++ before, next, l, []⟩
        (accepted ⟨before, f.blocks.flatMap blockObject ++
          .fileMark :: trailer vid setup fSeq f ++ .fileMark :: next, l, []⟩ fSeq f.blockSize
          r)).destroy⟩ :=
  readBlocks_run hvid hf hblank hf.blocks_fit rfl extra rfl

theorem checkHeaders_run (hlength : vid.length = 6) (hvid : ¬Blank 6 vid) (hf : WellFormed f)
    (hblank : Labels setup) (hfSeq : fSeq < 2 ^ 31) {r : FileReader} (hr : r.session.vid = vid)
    {job : RetrieveJob} (hid : job.archiveFileID = f.archiveFileID) (hjob : job.fSeq = fSeq)
    (hdrive : r.session.drive = ⟨before, header vid setup fSeq f ++ .fileMark :: next, l, []⟩) :
    FileReader.checkHeaders job r = .ok () (accepted
      ⟨.fileMark :: (header vid setup fSeq f).reverse ++ before, next, l, []⟩ fSeq f.blockSize
      r) := by
  obtain ⟨⟨drive, vid', useLbp, corrupted, locked, fseq, part, detected⟩, size, code⟩ := r
  simp only at hdrive hr
  subst hdrive hr
  have hlabel : ∀ {ws : List Nat} (label : Record Char ws) (h : 0 < ws.sum) (c : String)
      (b n : List Object) (fseq : Nat),
      FileReader.onDrive (readLabel ws c)
        ⟨⟨⟨b, labelBlock label h :: n, l, []⟩, vid', useLbp, corrupted, locked, fseq, part, detected⟩,
          size, code⟩ =
      .ok label ⟨⟨⟨labelBlock label h :: b, n, l, []⟩, vid', useLbp, corrupted, locked, fseq, part,
        detected⟩, size, code⟩ :=
    fun label h c b n fseq => readerDrive_run (readLabel_run label h c)
  have huhl1 : checkUHL1 (UHL1.fill (toInt fSeq) (toInt f.blockSize) setup.siteName setup.hostName
      setup.deviceInfo) fSeq = none := by
    rw [checkUHL1_none, UHL1.fill, actualfSeq_fill]
    exact extractNumber_fSeq hfSeq
  have hmod : fSeq % 2 ^ 32 = fSeq := Nat.mod_eq_of_lt (by omega)
  unfold FileReader.checkHeaders FileReader.setCurrentFilePart FileReader.setCurrentFseq header
  simp only [List.cons_append, List.nil_append, hid, hjob, hmod]
  rw [bind_ok (modify_run _ _), bind_ok (hlabel _ _ _ _ _ _), bind_ok (hlabel _ _ _ _ _ _),
    bind_ok (hlabel _ _ _ _ _ _), bind_ok (readerDrive_run (readFileMark_run _)),
    bind_ok (modify_run _ _), header_verified hvid hf hblank, bind_ok (verified_none _),
    bind_ok (get_run _), checkHDR1_fill hlength hf, bind_ok (verified_none _), huhl1,
    bind_ok (verified_none _), setBlockSize_run hf]
  simp [accepted]

def place (vid : Text) (lbp : Bool) (files : List RecordedFile) (rest : List Object)
    (l : LbpToUse) (k : Nat) : TapeDrive :=
  ⟨(filesObjects vid 1 (files.take k)).reverse ++ [volumeLabel vid lbp],
    filesObjects vid (1 + k) (files.drop k) ++ rest, l, []⟩

def between (vid : Text) (files : List RecordedFile) (j k : Nat) : List Object :=
  filesObjects vid (1 + j) ((files.drop j).take (k - j))

variable {files : List RecordedFile} {rest : List Object} {i j k : Nat}

theorem length_take_of_le (h : k ≤ files.length) : (files.take k).length = k := by
  rw [List.length_take]
  omega

theorem place_between (vid : Text) (lbp : Bool) (rest : List Object) (l : LbpToUse) (hjk : j ≤ k)
    (hk : k ≤ files.length) :
    (place vid lbp files rest l j).next =
        between vid files j k ++ (place vid lbp files rest l k).next ∧
      (place vid lbp files rest l k).before =
        (between vid files j k).reverse ++ (place vid lbp files rest l j).before := by
  have hdrop : files.drop j = (files.drop j).take (k - j) ++ files.drop k := by
    have hsplit := List.take_append_drop (k - j) (files.drop j)
    rw [List.drop_drop, show j + (k - j) = k by omega] at hsplit
    exact hsplit.symm
  have htake : files.take k = files.take j ++ (files.drop j).take (k - j) := by
    have hsplit := List.take_add (l := files) (i := j) (j := k - j)
    rwa [show j + (k - j) = k by omega] at hsplit
  have hlength : ((files.drop j).take (k - j)).length = k - j := by
    rw [List.length_take, List.length_drop]
    omega
  constructor
  · have hnumber : 1 + j + (k - j) = 1 + k := by omega
    simp only [place, between]
    conv_lhs => rw [hdrop, filesObjects_append, hlength, hnumber, List.append_assoc]
  · simp only [place, between]
    rw [htake, filesObjects_append, length_take_of_le (by omega), List.reverse_append,
      List.append_assoc]

theorem objects_place (hk : k ≤ files.length) :
    (place vid lbp files rest l k).objects =
      volumeLabel vid lbp :: (filesObjects vid 1 files ++ rest) := by
  have hsplit : filesObjects vid 1 (files.take k ++ files.drop k) = _ :=
    filesObjects_append 1 (files.take k) (files.drop k)
  rw [List.take_append_drop, length_take_of_le hk] at hsplit
  rw [hsplit]
  simp [TapeDrive.objects, place]

theorem marks_between (vid : Text) (j : Nat) (hk : k ≤ files.length) :
    marks (between vid files j k) = 3 * (k - j) := by
  rw [between, marks_filesObjects, List.length_take, List.length_drop]
  congr 1
  omega

theorem filesObjects_end (n : Nat) {rs : List RecordedFile} (hrs : rs ≠ []) :
    ∃ os, filesObjects vid n rs = os ++ [.fileMark] := by
  cases List.eq_nil_or_concat rs with
  | inl hnil => exact absurd hnil hrs
  | inr hconcat =>
    obtain ⟨init, r, rfl⟩ := hconcat
    rw [List.concat_eq_append]
    refine ⟨filesObjects vid n init ++ (body vid r.setup (n + init.length) r.file ++
      .fileMark :: trailer vid r.setup (n + init.length) r.file), ?_⟩
    simp [filesObjects_append, filesObjects, fileObjects]

theorem moveTo_place {d : TapeDrive}
    (hd : d.objects = (place vid lbp files rest l k).objects) :
    d.moveTo (place vid lbp files rest l k).before.length =
      { d with
        before := (place vid lbp files rest l k).before
        next := (place vid lbp files rest l k).next } := by
  unfold TapeDrive.moveTo
  rw [hd]
  unfold TapeDrive.objects
  rw [← List.length_reverse, List.take_left, List.drop_left, List.reverse_reverse]

theorem moveToFirstHeaderBlock_run (hvid : ¬Blank 6 vid) (hk : k ≤ files.length) :
    FileReader.moveToFirstHeaderBlock (place vid lbp files rest l k) =
      .ok () (place vid lbp files rest l 0) := by
  have hrewind : rewind (place vid lbp files rest l k) =
      .ok () ⟨[], volumeLabel vid lbp :: (filesObjects vid 1 files ++ rest), l, []⟩ := by
    rw [← objects_place hk]
    rfl
  unfold FileReader.moveToFirstHeaderBlock
  rw [bind_ok hrewind, volumeLabel, bind_ok (readLabel_run _ _ _), VOL1.verify_fill hvid,
    verified_none]
  simp [place, filesObjects, volumeLabel]

theorem backwards_run (vid : Text) (lbp : Bool) (rest : List Object) (l : LbpToUse) (hi : 0 < i)
    (hik : i < k) (hk : k ≤ files.length) (hcount : files.length < 2 ^ 29) :
    spaceFileMarksBackwards ((((i : Int) - k).natAbs % 2 ^ 32 * 3 + 1) % 2 ^ 32)
        (place vid lbp files rest l k) = .ok () ⟨(place vid lbp files rest l i).before.tail,
          .fileMark :: (place vid lbp files rest l i).next, l, []⟩ ∧
      (place vid lbp files rest l i).before =
        .fileMark :: (place vid lbp files rest l i).before.tail := by
  obtain ⟨hnext, hbefore⟩ := place_between vid lbp rest l (Nat.le_of_lt hik) hk
  obtain ⟨os, hos⟩ : ∃ os, filesObjects vid 1 (files.take i) = os ++ [.fileMark] := by
    refine filesObjects_end 1 fun hnil => ?_
    have hlength : (files.take i).length = i := length_take_of_le (by omega)
    rw [hnil, List.length_nil] at hlength
    omega
  have hplace : (place vid lbp files rest l i).before =
      .fileMark :: (os.reverse ++ [volumeLabel vid lbp]) := by simp [place, hos]
  have hmarks : (((i : Int) - k).natAbs % 2 ^ 32 * 3 + 1) % 2 ^ 32 =
      marks (between vid files i k).reverse + 1 := by
    rw [marks_reverse, marks_between vid i hk]
    omega
  have hk' : place vid lbp files rest l k = ⟨(between vid files i k).reverse ++
      .fileMark :: (os.reverse ++ [volumeLabel vid lbp]), (place vid lbp files rest l k).next, l,
      []⟩ := by
    rw [← hplace, ← hbefore]
    rfl
  have hrun := spaceFileMarksBackwards_run (os.reverse ++ [volumeLabel vid lbp])
    (place vid lbp files rest l k).next _ l hmarks
  rw [List.reverse_reverse] at hrun
  rw [hplace, List.tail_cons, hk', hnext, hrun]
  exact ⟨rfl, rfl⟩

theorem forward_run (hki : k < i) (hi : i ≤ files.length) (hcount : files.length < 2 ^ 29) :
    spaceFileMarksForward (((i : Int) - k).natAbs % 2 ^ 32 * 3 % 2 ^ 32)
        (place vid lbp files rest l k) = .ok () (place vid lbp files rest l i) := by
  obtain ⟨hnext, hbefore⟩ := place_between vid lbp rest l (Nat.le_of_lt hki) hi
  obtain ⟨os, hos⟩ : ∃ os, between vid files k i = os ++ [.fileMark] := by
    refine filesObjects_end _ fun hnil => ?_
    have hlength := congrArg List.length hnil
    rw [List.length_take, List.length_drop, List.length_nil] at hlength
    omega
  have hmarks : ((i : Int) - k).natAbs % 2 ^ 32 * 3 % 2 ^ 32 = marks os + 1 := by
    have hmarksOf := marks_between vid k hi
    rw [hos, marks_append, marks_fileMark, marks_nil] at hmarksOf
    omega
  have hk' : place vid lbp files rest l k = ⟨(place vid lbp files rest l k).before,
      os ++ .fileMark :: (place vid lbp files rest l i).next, l, []⟩ := by
    have hsplit : os ++ .fileMark :: (place vid lbp files rest l i).next =
        between vid files k i ++ (place vid lbp files rest l i).next := by simp [hos]
    rw [hsplit, ← hnext]
    rfl
  have hreached : .fileMark :: os.reverse ++ (place vid lbp files rest l k).before =
      (place vid lbp files rest l i).before := by simp [hbefore, hos]
  rw [hk', spaceFileMarksForward_run _ _ _ _ hmarks, hreached]
  rfl

theorem moveReaderByFSeqDelta_run (hi : 0 < i) (hile : i ≤ files.length) (hk : k ≤ files.length)
    (hcount : files.length < 2 ^ 29) :
    FileReader.moveReaderByFSeqDelta ((i : Int) - k) (place vid lbp files rest l k) =
      .ok () (place vid lbp files rest l i) := by
  unfold FileReader.moveReaderByFSeqDelta
  by_cases heq : i = k
  · subst heq
    rw [if_pos (by omega)]
    rfl
  rw [if_neg (by omega)]
  cases Nat.lt_or_gt_of_ne heq with
  | inl hlt =>
    obtain ⟨hback, hmark⟩ := backwards_run vid lbp rest l hi hlt hk hcount
    rw [if_neg (by omega), bind_ok hback, readFileMark_run, ← hmark]
    rfl
  | inr hgt => rw [if_pos (by omega), forward_run hgt hile hcount]

theorem placed_get (lbp : Bool) (rest : List Object) (l : LbpToUse) (h : Placed vid 1 1 files)
    {r : RecordedFile} (hr : files[i]? = some r) :
    (i = 0 ∨ (place vid lbp files rest l i).before.length < 2 ^ 32) ∧
      r.blockId = (if i = 0 then 0 else (place vid lbp files rest l i).before.length) := by
  obtain ⟨hi, hget⟩ := List.getElem?_eq_some_iff.mp hr
  have hsplit : files = files.take i ++ r :: files.drop (i + 1) := by
    rw [← hget, List.getElem_cons_drop, List.take_append_drop]
  have hlength := length_take_of_le (Nat.le_of_lt hi)
  rw [hsplit] at h
  obtain ⟨-, -, -, hfits, hblockId, -⟩ := (placed_append _ _ _ _).mp h
  rw [hlength] at hfits hblockId
  have hposition : (place vid lbp files rest l i).before.length =
      1 + (filesObjects vid 1 (files.take i)).length := by simp [place, Nat.add_comm]
  rw [hposition, hblockId]
  by_cases h0 : i = 0
  · simp [h0]
  · rw [if_neg (by omega), if_neg h0]
    exact ⟨by omega, rfl⟩

theorem place_succ (vid : Text) (lbp : Bool) (rest : List Object) (l : LbpToUse)
    (hi : i < files.length) :
    (place vid lbp files rest l i).next =
        fileObjects vid files[i].setup (i + 1) files[i].file ++
          (place vid lbp files rest l (i + 1)).next ∧
      (place vid lbp files rest l (i + 1)).before =
        (fileObjects vid files[i].setup (i + 1) files[i].file).reverse ++
          (place vid lbp files rest l i).before := by
  have hone : between vid files i (i + 1) =
      fileObjects vid files[i].setup (i + 1) files[i].file := by
    have htake : (files.drop i).take (i + 1 - i) = [files[i]] := by
      rw [List.drop_eq_getElem_cons hi, Nat.add_sub_cancel_left, List.take_succ_cons,
        List.take_zero]
    rw [between, htake, filesObjects, filesObjects, List.append_nil, Nat.add_comm]
  rw [← hone]
  exact place_between vid lbp rest l (Nat.le_succ i) hi

/-- A session between two recalls, its head behind so many of the files. -/
def waiting (d : TapeDrive) (vid : Text) (useLbp detectedLbp : Bool) (k : Nat) : ReadSession :=
  ⟨d, vid, useLbp, false, false, k + 1, .header, detectedLbp⟩

/-- What is asked for: a file, how it is found, and how often more than needed the caller reads. -/
structure Request (files : List RecordedFile) where
  index : Fin files.length
  byBlock : Bool
  extra : Nat

def Request.file (a : Request files) : FileToWrite := files[a.index].file

def Request.job (a : Request files) : RetrieveJob where
  archiveFileID := a.file.archiveFileID
  fSeq := a.index + 1
  blockId := files[a.index].blockId
  positioningMethod := if a.byBlock then .byBlock else .byFSeq

def Request.sizes (a : Request files) : List (Nat → Nat) :=
  List.replicate (a.file.blocks.length + 1 + a.extra) id

theorem useBlockID_run (hplaced : Placed vid 1 1 files) (hk : k ≤ files.length)
    (a : Request files) :
    FileReader.useBlockID a.job (place vid lbp files rest l k) =
      .ok () (place vid lbp files rest l a.index) := by
  have hi := a.index.isLt
  have hget : files[a.index.1]? = some files[a.index.1] := List.getElem?_eq_getElem hi
  obtain ⟨hfits, hblockId⟩ := placed_get lbp rest l hplaced hget
  have hplace : (place vid lbp files rest l a.index).before.length =
      (filesObjects vid 1 (files.take a.index)).length + 1 := by simp [place]
  have hdestination : (if a.job.blockId ≠ 0 then a.job.blockId else 1) % 2 ^ 32 =
      (place vid lbp files rest l a.index).before.length := by
    have hjob : a.job.blockId = files[a.index.1].blockId := rfl
    rw [hjob, hblockId]
    by_cases h0 : a.index.1 = 0
    · rw [if_pos h0, hplace, h0]
      rfl
    · rw [if_neg h0, if_pos (by omega)]
      omega
  have hobjects : (place vid lbp files rest l k).objects =
      (place vid lbp files rest l a.index).objects := by
    rw [objects_place hk, objects_place (Nat.le_of_lt hi)]
  have hle : (place vid lbp files rest l a.index).before.length ≤
      (place vid lbp files rest l k).objects.length := by
    rw [hobjects, TapeDrive.objects, List.length_append, List.length_reverse]
    omega
  have hrun : positionToLogicalObject (place vid lbp files rest l a.index).before.length
      (place vid lbp files rest l k) = .ok () ((place vid lbp files rest l k).moveTo
        (place vid lbp files rest l a.index).before.length) := if_pos hle
  unfold FileReader.useBlockID
  rw [hdestination, hrun, moveTo_place hobjects]
  rfl

def positioned (d : TapeDrive) (r : FileReader) : FileReader :=
  { r with session := { r.session with
    drive := d
    currentFilePart := .headerProcessing } }

theorem processing_run {x : DriveM Unit} {r : FileReader} {d : TapeDrive}
    (h : x r.session.drive = .ok () d) (f : Unit → FileReader.ReaderM Unit) :
    (FileReader.setCurrentFilePart .headerProcessing >>= fun _ => FileReader.onDrive x >>= f) r =
      f () (positioned d r) := by
  have hdrive : FileReader.onDrive x { r with session := { r.session with
      currentFilePart := .headerProcessing } } = .ok () (positioned d r) := readerDrive_run h
  unfold FileReader.setCurrentFilePart
  rw [bind_ok (modify_run _ _), bind_ok hdrive]

theorem position_run (hvid : ¬Blank 6 vid) (hplaced : Placed vid 1 1 files)
    (hk : k ≤ files.length) (a : Request files) {r : FileReader}
    (hdrive : r.session.drive = place vid lbp files rest l k)
    (hpart : r.session.currentFilePart = .header) (hfseq : r.session.fseq = k + 1)
    (hcode : r.positionCommandCode = a.job.positioningMethod) {after : FileReader}
    (hafter : FileReader.checkHeaders a.job (positioned (place vid lbp files rest l a.index) r) =
      .ok () after) :
    FileReader.position a.job r = .ok () after := by
  have hi := a.index.isLt
  have hnumber := placed_number hplaced
  unfold FileReader.position
  rw [bind_ok (get_run _), hcode]
  cases hb : a.byBlock with
  | true =>
    have hmethod : a.job.positioningMethod = .byBlock := by simp [Request.job, hb]
    have huse : FileReader.useBlockID a.job r.session.drive =
        .ok () (place vid lbp files rest l a.index) := by
      rw [hdrive]
      exact useBlockID_run hplaced hk a
    rw [hmethod]
    change FileReader.positionByBlockID a.job r = _
    unfold FileReader.positionByBlockID
    rw [processing_run huse, hafter]
  | false =>
    have hmethod : a.job.positioningMethod = .byFSeq := by simp [Request.job, hb]
    have hfSeq : a.job.fSeq = a.index + 1 := rfl
    have hmove : (if a.job.fSeq = 1 then FileReader.moveToFirstHeaderBlock
        else FileReader.moveReaderByFSeqDelta (FileReader.toInt64 a.job.fSeq - r.session.fseq))
        r.session.drive = .ok () (place vid lbp files rest l a.index) := by
      rw [hdrive, hfSeq, hfseq]
      by_cases h0 : a.index.1 = 0
      · rw [if_pos (by omega), h0]
        exact moveToFirstHeaderBlock_run hvid hk
      · have hdelta : FileReader.toInt64 (a.index + 1) - ((k + 1 : Nat) : Int) =
            ((a.index : Nat) : Int) - k := by
          unfold FileReader.toInt64
          omega
        rw [if_neg (by omega), hdelta]
        exact moveReaderByFSeqDelta_run (Nat.pos_of_ne_zero h0) (Nat.le_of_lt hi) hk hnumber
    have hheader : FileReader.corruptIf (r.session.currentFilePart ≠ .header) .sessionCorrupted r =
        .ok () r := by
      rw [FileReader.corruptIf, if_neg (by simp [hpart])]
      rfl
    rw [hmethod]
    change FileReader.positionByFseq a.job r = _
    unfold FileReader.positionByFseq
    rw [bind_ok (get_run _), bind_ok hheader]
    have hvalid : ∀ e, throwIf (a.job.fSeq < 1) e = (pure () : FileReader.ReaderM Unit) := fun _ =>
      if_neg (by omega)
    rw [hvalid, pure_bind, processing_run hmove, hafter]

theorem place_file (vid : Text) (lbp : Bool) (rest : List Object) (l : LbpToUse)
    (a : Request files) :
    place vid lbp files rest l a.index = ⟨(place vid lbp files rest l a.index).before,
      header vid files[a.index].setup (a.index + 1) a.file ++ .fileMark ::
        (a.file.blocks.flatMap blockObject ++
          .fileMark :: trailer vid files[a.index].setup (a.index + 1) a.file ++
          .fileMark :: (place vid lbp files rest l (a.index + 1)).next), l, []⟩ := by
  have hnext := (place_succ vid lbp rest l a.index.isLt).1
  have hsplit : (place vid lbp files rest l a.index).next =
      header vid files[a.index].setup (a.index + 1) a.file ++ .fileMark ::
        (a.file.blocks.flatMap blockObject ++
          .fileMark :: trailer vid files[a.index].setup (a.index + 1) a.file ++
          .fileMark :: (place vid lbp files rest l (a.index + 1)).next) := by
    rw [hnext]
    simp [fileObjects, body, data, Request.file]
  rw [← hsplit]
  rfl

/-- A file is read back from wherever the head waits, and the head waits behind it then. -/
theorem recall_run (hlength : vid.length = 6) (hvid : ¬Blank 6 vid) (hplaced : Placed vid 1 1 files)
    (hk : k ≤ files.length) (a : Request files) (useLbp detectedLbp : Bool) :
    recallFile a.job a.sizes (waiting (place vid lbp files rest l k) vid useLbp detectedLbp k) =
      ⟨a.file.blocks, some .endOfFile,
        waiting (place vid lbp files rest l (a.index + 1)) vid useLbp detectedLbp
        (a.index + 1)⟩ := by
  have hnumber := placed_number hplaced
  have hi := a.index.isLt
  obtain ⟨hf, hblank⟩ : WellFormed a.file ∧ Labels files[a.index].setup :=
    placed_of_mem hplaced (List.getElem_mem hi)
  have hbefore := (place_succ vid lbp rest l hi).2
  have hplace := place_file vid lbp rest l a
  let r : FileReader := ⟨{ waiting (place vid lbp files rest l k) vid useLbp detectedLbp k with
    locked := true }, 0, a.job.positioningMethod⟩
  have hheaders : FileReader.checkHeaders a.job
      (positioned (place vid lbp files rest l a.index) r) = .ok () (accepted _ (a.index + 1)
        a.file.blockSize (positioned (place vid lbp files rest l a.index) r)) :=
    checkHeaders_run hlength hvid hf hblank (by omega) rfl rfl rfl hplace
  have hposition : FileReader.position a.job r = .ok () _ :=
    position_run hvid hplaced hk a rfl rfl rfl rfl hheaders
  have hconstruct : FileReader.construct a.job
      (waiting (place vid lbp files rest l k) vid useLbp detectedLbp k) = .ok r := rfl
  have hbehind : ∀ setup, setup = files[a.index].setup →
      .fileMark :: (trailer vid setup (a.index + 1) a.file).reverse ++ .fileMark ::
        (a.file.blocks.flatMap blockObject).reverse ++ (.fileMark ::
        (header vid setup (a.index + 1) a.file).reverse ++
          (place vid lbp files rest l a.index).before) =
      (place vid lbp files rest l (a.index + 1)).before := by
    intro setup hsetup
    rw [hbefore, hsetup]
    simp [fileObjects, body, data, Request.file]
  have hfseq : (a.index.1 + 1 + 1) % 2 ^ 32 = a.index + 1 + 1 := Nat.mod_eq_of_lt (by omega)
  unfold recallFile
  rw [hconstruct]
  simp only [hposition]
  rw [Request.sizes, readAccepted_run hvid hf hblank, hbehind _ rfl]
  simp only [passed, accepted, positioned, FileReader.destroy, hfseq]
  simp only [ne_eq, not_true, and_false, decide_false, Bool.or_false]
  rfl

theorem recalls_run (hlength : vid.length = 6) (hvid : ¬Blank 6 vid)
    (hplaced : Placed vid 1 1 files) (asked : List (Request files)) (hk : k ≤ files.length)
    (useLbp detectedLbp : Bool) :
    (recalls (asked.map fun a => (a.job, a.sizes))
        (waiting (place vid lbp files rest l k) vid useLbp detectedLbp k)).map
          (fun o => (o.blocks, o.thrown)) =
      asked.map fun a => (a.file.blocks, some .endOfFile) := by
  induction asked generalizing k with
  | nil => rfl
  | cons a asked ih =>
    have hrecall : recallFile a.job a.sizes
        (waiting (place vid lbp files rest l k) vid useLbp detectedLbp k) = _ :=
      recall_run hlength hvid hplaced hk a useLbp detectedLbp
    simp only [List.map_cons, recalls, hrecall]
    rw [ih a.index.isLt]

theorem construct_labelled (hlength : vid.length = 6) (hvid : ¬Blank 6 vid) {d : TapeDrive}
    (htape : d.objects = volumeLabel vid lbp :: rest) (hfaults : d.faults = []) (useLbp : Bool) :
    ∃ l, ReadSession.construct vid useLbp d =
      .ok (waiting ⟨[volumeLabel vid lbp], rest, l, []⟩ vid useLbp lbp 0)
        ⟨[volumeLabel vid lbp], rest, l, []⟩ := by
  obtain ⟨before, next, l, faults⟩ := d
  subst hfaults
  refine ⟨if lbp then (if useLbp then .crc32cReadOnly else .disabled) else .disabled, ?_⟩
  have hopen : openTape "ReadSession" (ReadSession.enable useLbp) vid ⟨before, next, l, []⟩ =
      .ok lbp ⟨[volumeLabel vid lbp], rest,
        if lbp then (if useLbp then .crc32cReadOnly else .disabled) else .disabled, []⟩ := by
    refine openTape_run hlength hvid (fun _ before next l => ?_) htape
    cases useLbp with
    | false => rfl
    | true => rfl
  unfold ReadSession.construct
  rw [hopen]
  rfl

theorem construct_run (hlength : vid.length = 6) (hvid : ¬Blank 6 vid) {d : TapeDrive}
    (htape : d.objects = volumeLabel vid lbp :: (filesObjects vid 1 files ++ rest))
    (hfaults : d.faults = []) (useLbp : Bool) :
    ∃ l, ReadSession.construct vid useLbp d =
      .ok (waiting (place vid lbp files rest l 0) vid useLbp lbp 0)
        (place vid lbp files rest l 0) := by
  obtain ⟨l, hconstruct⟩ := construct_labelled hlength hvid htape hfaults useLbp
  exact ⟨l, hconstruct⟩

/-- What the round trip promises of a tape with these files: new sessions are accepted, and all
files are read back, in any order, by number or by block id. -/
structure RoundTrips (Allowed : Setup → Prop) (vid : Text) (tape : List Object)
    (files : List RecordedFile) : Prop where
  accepted : ∀ setup d, Allowed setup → d.objects = tape → d.faults = [] →
    ∃ s, WriteSession.construct vid files.length setup d = .ok s s.drive ∧
      s.lastWrittenFSeq = files.length
  readBack : ∀ useLbp d, d.objects = tape → d.faults = [] →
    ∃ s, ReadSession.construct vid useLbp d = .ok s s.drive ∧ ∀ asked : List (Request files),
      (recalls (asked.map fun a => (a.job, a.sizes)) s).map (fun o => (o.blocks, o.thrown)) =
        asked.map fun a => (a.file.blocks, some .endOfFile)

/-- Files on a tape whose label is not blank are read back as they were written. -/
theorem round_trips (hlength : vid.length = 6) (hvid : ¬Blank 6 vid) {tape : List Object}
    (h : Recorded Labels vid lbp tape files) :
    RoundTrips (fun setup => lbp = true → setup.useLbp = true) vid tape files := by
  obtain ⟨⟨rest, htape, -⟩, hplaced⟩ := laid_of_recorded hlength hvid h
  constructor
  · intro setup d hlbp hd hfaults
    obtain ⟨s, hconstruct, -, hlast, -⟩ :=
      WrittenTape.construct_run hlength hvid hplaced (hd.trans htape) hfaults hlbp
    exact ⟨s, hconstruct, hlast⟩
  · intro useLbp d hd hfaults
    obtain ⟨l, hconstruct⟩ := construct_run hlength hvid (hd.trans htape) hfaults useLbp
    exact ⟨_, hconstruct, fun asked =>
      recalls_run hlength hvid hplaced asked (Nat.zero_le _) useLbp lbp⟩

/-- A drive with this vendor, in a session without compression and protection. -/
def setupOf (vendor : String) : Setup :=
  ⟨false, false, "CERN".toList, "TPSRV01".toList, ⟨vendor.toList, "LTO".toList, "1234".toList⟩⟩

def smallFile : FileToWrite := ⟨1, 4, ["data".toList], ⟨126, 0⟩, ⟨126, 0⟩⟩

def otherFile : FileToWrite := ⟨2, 4, ["more".toList, "text".toList], ⟨126, 0⟩, ⟨126, 0⟩⟩

theorem recorded_smallFile {Allowed : Setup → Prop} {setup : Setup} (hallowed : Allowed setup) :
    Recorded Allowed "V00001".toList false
      (volumeLabel "V00001".toList false :: fileObjects "V00001".toList setup 1 smallFile)
      [⟨smallFile, setup, 0⟩] := by
  have hf : WellFormed smallFile :=
    ⟨by decide, by decide, by decide, by decide, by decide, by decide⟩
  have hlabel := label_run (l := .disabled) (by decide) "V00001".toList false ⟨126, 0⟩ []
  obtain ⟨⟨rest, htape, -⟩, hplaced⟩ := laid_of_labelled hlabel
  have hlbp : false = true → setup.useLbp = true := fun h => by cases h
  obtain ⟨s, hconstruct, hready, -, hdrive⟩ :=
    WrittenTape.construct_run (by decide) (by decide) hplaced htape rfl hlbp
  have hwrite := writeFile_run hready hdrive (by decide) hf (Nat.le_refl 1) (Or.inl rfl)
  have hwritten : writeFiles 1 [smallFile] s = .ok [0] { s with
      drive := ⟨(fileObjects "V00001".toList setup 1 smallFile).reverse ++
        [volumeLabel "V00001".toList false], [], .disabled, []⟩ } := by
    rw [writeFiles, bind_ok hwrite]
    rfl
  have hsession := Recorded.session (.labelled hlabel) rfl hallowed (fun f h => by
    rw [List.mem_singleton.mp h]
    exact hf) hconstruct hwritten
  simpa [TapeDrive.objects, recorded] using hsession

def twoSessions : List Object :=
  volumeLabel "V00001".toList false :: (fileObjects "V00001".toList (setupOf "IBM") 1 smallFile ++
    fileObjects "V00001".toList (setupOf "HP") 2 otherFile)

theorem recorded_twoSessions : Recorded Labels "V00001".toList false twoSessions
    [⟨smallFile, setupOf "IBM", 0⟩, ⟨otherFile, setupOf "HP", 11⟩] := by
  have hlabels : ∀ vendor, vendor = "IBM" ∨ vendor = "HP" → Labels (setupOf vendor) := by
    rintro vendor (rfl | rfl) <;>
      exact ⟨by decide, by decide, by decide, by decide, by decide⟩
  have hf : WellFormed otherFile :=
    ⟨by decide, by decide, by decide, by decide, by decide, by decide⟩
  have hfirst := recorded_smallFile (hlabels "IBM" (.inl rfl))
  obtain ⟨-, hplaced⟩ := laid_of_recorded (by decide) (by decide) hfirst
  have hlbp : false = true → (setupOf "HP").useLbp = true := fun h => by cases h
  have htape : (⟨[], volumeLabel "V00001".toList false ::
      fileObjects "V00001".toList (setupOf "IBM") 1 smallFile, .disabled, []⟩ : TapeDrive).objects =
      volumeLabel "V00001".toList false :: (filesObjects "V00001".toList 1
        [⟨smallFile, setupOf "IBM", 0⟩] ++ []) := by
    simp [TapeDrive.objects, filesObjects]
  obtain ⟨s, hconstruct, hready, -, hdrive⟩ :=
    WrittenTape.construct_run (by decide) (by decide) hplaced htape rfl hlbp
  have hsecond : 1 ≤ 2 := by decide
  have hwrite := writeFile_run hready hdrive (by decide) hf hsecond (Or.inr (by decide +kernel))
  have hwritten : writeFiles 2 [otherFile] s = .ok [11] { s with
      drive := ⟨(fileObjects "V00001".toList (setupOf "HP") 2 otherFile).reverse ++
        ((filesObjects "V00001".toList 1 [⟨smallFile, setupOf "IBM", 0⟩]).reverse ++
          [volumeLabel "V00001".toList false]), [], .disabled, []⟩ } := by
    rw [writeFiles, bind_ok hwrite]
    rfl
  have hsession := Recorded.session hfirst rfl (hlabels "HP" (.inr rfl)) (fun f h => by
    rw [List.mem_singleton.mp h]
    exact hf) hconstruct hwritten
  simpa [TapeDrive.objects, recorded, filesObjects, twoSessions] using hsession

/-- Each file was written in a session of its own; the second one is read first. -/
theorem round_trips_two_sessions :
    ∃ s, ReadSession.construct "V00001".toList false ⟨[], twoSessions, .disabled, []⟩ =
        .ok s s.drive ∧
      (recalls [(⟨2, 2, 11, .byFSeq⟩, List.replicate 3 id),
          (⟨1, 1, 0, .byBlock⟩, List.replicate 2 id)] s).map (fun o => (o.blocks, o.thrown)) =
        [(["more".toList, "text".toList], some .endOfFile),
          (["data".toList], some .endOfFile)] := by
  obtain ⟨s, hconstruct, hread⟩ :=
    (round_trips (by decide) (by decide) recorded_twoSessions).readBack false
      ⟨[], twoSessions, .disabled, []⟩ rfl rfl
  exact ⟨s, hconstruct, hread [⟨1, false, 0⟩, ⟨0, true, 0⟩]⟩

/-- All texts of the session are there, though some may be blank. -/
def NonEmpty (setup : Setup) : Prop :=
  setup.siteName ≠ [] ∧ setup.hostName ≠ [] ∧ setup.deviceInfo.vendor ≠ [] ∧
    setup.deviceInfo.product ≠ [] ∧ setup.deviceInfo.serialNumber ≠ []

/-- A vendor that is a space is written, and the reader refuses the header. -/
theorem blank_vendor_not_read_back : ¬∀ (vid : Text) (lbp : Bool) (tape : List Object)
    (files : List RecordedFile), vid.length = 6 → Recorded NonEmpty vid lbp tape files →
    RoundTrips NonEmpty vid tape files := by
  intro h
  have hrecorded : Recorded NonEmpty "V00001".toList false _ _ :=
    @recorded_smallFile NonEmpty (setupOf " ")
      ⟨by decide, by decide, by decide, by decide, by decide⟩
  obtain ⟨s, hconstruct, hread⟩ := (h _ _ _ _ (by decide) hrecorded).readBack false
    ⟨[], _, .disabled, []⟩ rfl rfl
  have hobjects : TapeDrive.objects ⟨[], volumeLabel "V00001".toList false ::
      fileObjects "V00001".toList (setupOf " ") 1 smallFile, .disabled, []⟩ =
      volumeLabel "V00001".toList false ::
        (filesObjects "V00001".toList 1 [⟨smallFile, setupOf " ", 0⟩] ++ []) := by
    simp [TapeDrive.objects, filesObjects]
  obtain ⟨l, hwaiting⟩ := construct_run (by decide) (by decide) hobjects rfl false
  rw [hwaiting] at hconstruct
  cases hconstruct
  have hone := hread [⟨0, false, 0⟩]
  cases l with
  | disabled => exact absurd hone (by decide +kernel)
  | crc32cReadWrite => exact absurd hone (by decide +kernel)
  | crc32cReadOnly => exact absurd hone (by decide +kernel)

end Cta.TapeFile.RoundTrip

import Cta.Catalogue.RecordedFiles

/-! What recording a batch in bulk does. -/
namespace Cta.Catalogue
open Cta.Lib.Transactions Cta.Lib.Triples
variable {c d : Tables} {f : TapeFileWritten} {files : List TapeFileWritten}

/-- The catalogue with the archive files of a batch. -/
def Tables.addArchiveFiles (c : Tables) (files : List TapeFileWritten) : Tables :=
  { c with archiveFiles := c.archiveFiles ++ (c.newFiles files).map (·.archiveFileRow) }

theorem forStorageClass_eq {insert : Program Unit} (h : f.storageClassName ∈ c.storageClasses) :
    forStorageClass f insert c = insert c := by
  rw [forStorageClass, if_pos h]

theorem Tables.addArchiveFiles_of_some {a : ArchiveFileRow}
    (h : c.archiveFile? f.archiveFileId = some a) : c.addArchiveFiles [f] = c := by
  simp [addArchiveFiles, newFiles, h]

theorem Tables.addArchiveFiles_of_none (h : c.archiveFile? f.archiveFileId = none) :
    c.addArchiveFiles [f] = c.insertArchiveFile f.archiveFileRow := by
  simp [addArchiveFiles, newFiles, h, insertArchiveFile]

theorem PostgresCatalogue.insertArchiveFile_of_some {a : ArchiveFileRow}
    (h : c.archiveFile? f.archiveFileId = some a) :
    PostgresCatalogue.insertArchiveFile f c = .ok ⟨⟩ c := by
  unfold PostgresCatalogue.insertArchiveFile forStorageClass
  rw [ignoring_of_error (insertArchiveFileRow_of_some (r := f.archiveFileRow) h) rfl, ite_self]

theorem OracleCatalogue.insertArchiveFile_of_some {a : ArchiveFileRow}
    (h : c.archiveFile? f.archiveFileId = some a) :
    OracleCatalogue.insertArchiveFile f c = .ok ⟨⟩ c := by
  unfold OracleCatalogue.insertArchiveFile forStorageClass
  rw [ignoring_of_error (insertArchiveFileRow_of_some (r := f.archiveFileRow) h) rfl, ite_self]

theorem PostgresCatalogue.insertArchiveFile_eq_ok
    (h : c.archiveFile? f.archiveFileId = none → f.storageClassName ∈ c.storageClasses) :
    PostgresCatalogue.insertArchiveFile f c = .ok ⟨⟩ d ↔
      (c.archiveFile? f.archiveFileId = none → f.diskInstance ∈ c.diskInstances) ∧
      d = c.addArchiveFiles [f] := by
  cases hid : c.archiveFile? f.archiveFileId with
  | some a =>
    rw [Tables.addArchiveFiles_of_some hid, PostgresCatalogue.insertArchiveFile_of_some hid]
    simp [eq_comm]
  | none =>
    rw [PostgresCatalogue.insertArchiveFile, forStorageClass_eq (h hid),
      Tables.addArchiveFiles_of_none hid, ignoring_eq_ok, insertArchiveFileRow_eq_ok]
    constructor
    · rintro (⟨⟨-, -, hinst⟩, rfl⟩ | ⟨e, he, hrun⟩)
      · exact ⟨fun _ => hinst, rfl⟩
      · cases (insertArchiveFileRow_error hrun).2 hid with
        | inl hu => simp [hu, isPrimaryKeyError] at he
        | inr hu => simp [hu, isPrimaryKeyError] at he
    · rintro ⟨hinst, rfl⟩
      exact .inl ⟨⟨hid, nofun, hinst rfl⟩, rfl⟩

/-- A file whose archive file is there or can be created. -/
def Insertable (c : Tables) (f : TapeFileWritten) : Prop :=
  c.archiveFile? f.archiveFileId = none → f.storageClassName ∈ c.storageClasses ∧
    f.diskInstance ∈ c.diskInstances ∧ f.archiveFileRow.diskFile ∉ c.archiveFiles.map (·.diskFile)

theorem Insertable.row (h : Insertable c f) (hid : c.archiveFile? f.archiveFileId = none) :
    insertArchiveFileRow false f.archiveFileRow c = .ok ⟨⟩ (c.addArchiveFiles [f]) :=
  insertArchiveFileRow_eq_ok.mpr
    ⟨⟨hid, fun _ => (h hid).2.2, (h hid).2.1⟩, Tables.addArchiveFiles_of_none hid⟩

theorem OracleCatalogue.insertArchiveFile_ok (h : Insertable c f) :
    OracleCatalogue.insertArchiveFile f c = .ok ⟨⟩ (c.addArchiveFiles [f]) := by
  cases hid : c.archiveFile? f.archiveFileId with
  | some a =>
    rw [Tables.addArchiveFiles_of_some hid, OracleCatalogue.insertArchiveFile_of_some hid]
  | none =>
    rw [OracleCatalogue.insertArchiveFile, forStorageClass_eq (h hid).1]
    exact ignoring_of_ok (h.row hid)

theorem RdbmsCatalogue.insertArchiveFile_ok (h : Insertable c f)
    (hs : f.storageClassName ∈ c.storageClasses) :
    ignoring isPrimaryKeyError (RdbmsCatalogue.insertArchiveFile f.archiveFileRow) c =
      .ok ⟨⟩ (c.addArchiveFiles [f]) := by
  have hclass : RdbmsCatalogue.insertArchiveFile f.archiveFileRow c =
      insertArchiveFileRow false f.archiveFileRow c := if_pos hs
  cases hid : c.archiveFile? f.archiveFileId with
  | some a =>
    rw [Tables.addArchiveFiles_of_some hid]
    exact ignoring_of_error
      (hclass.trans (insertArchiveFileRow_of_some (r := f.archiveFileRow) hid)) rfl
  | none => exact ignoring_of_ok (hclass.trans (h.row hid))

section
variable {fs : List TapeFileWritten} (hd : ((f :: fs).map (·.archiveFileId)).Nodup)
include hd

theorem Tables.archiveFile?_addArchiveFiles {g : TapeFileWritten} (hg : g ∈ fs) :
    (c.addArchiveFiles [f]).archiveFile? g.archiveFileId = c.archiveFile? g.archiveFileId :=
  Tables.archiveFile?_recordFiles (c := c) (ne_of_distinct hd hg)

theorem Tables.newFiles_addArchiveFiles : (c.addArchiveFiles [f]).newFiles fs = c.newFiles fs :=
  Tables.newFiles_recordFiles (c := c) hd

theorem Tables.addArchiveFiles_cons :
    (c.addArchiveFiles [f]).addArchiveFiles fs = c.addArchiveFiles (f :: fs) := by
  rw [addArchiveFiles, Tables.newFiles_addArchiveFiles hd, addArchiveFiles, addArchiveFiles,
    @Tables.newFiles_cons c f fs, List.map_append, ← List.append_assoc]

end

theorem PostgresCatalogue.insertArchiveFiles_eq_ok (hd : (files.map (·.archiveFileId)).Nodup)
    (hs : ∀ f ∈ files, c.archiveFile? f.archiveFileId = none →
      f.storageClassName ∈ c.storageClasses) :
    forEach PostgresCatalogue.insertArchiveFile files c = .ok ⟨⟩ d ↔
      (∀ f ∈ files, c.archiveFile? f.archiveFileId = none → f.diskInstance ∈ c.diskInstances) ∧
      d = c.addArchiveFiles files := by
  induction files generalizing c with
  | nil => simp [forEach, pure_eq_ok, Tables.addArchiveFiles, Tables.newFiles]
  | cons f fs ih =>
    have hf := PostgresCatalogue.insertArchiveFile_eq_ok (d := c.addArchiveFiles [f])
      (hs f List.mem_cons_self)
    have hrest := ih (c := c.addArchiveFiles [f]) (List.nodup_cons.mp hd).2
      fun g hg hid => hs g (List.mem_cons_of_mem f hg)
        (by rwa [Tables.archiveFile?_addArchiveFiles hd hg] at hid)
    have hsame : (∀ g ∈ fs, (c.addArchiveFiles [f]).archiveFile? g.archiveFileId = none →
        g.diskInstance ∈ (c.addArchiveFiles [f]).diskInstances) ↔
        ∀ g ∈ fs, c.archiveFile? g.archiveFileId = none → g.diskInstance ∈ c.diskInstances :=
      forall₂_congr fun g hg => by
        rw [Tables.archiveFile?_addArchiveFiles hd hg]
        rfl
    rw [hsame, Tables.addArchiveFiles_cons hd] at hrest
    rw [forEach, bind_eq_ok, List.forall_mem_cons, and_assoc]
    constructor
    · rintro ⟨⟨⟩, u, hrun, hruns⟩
      have hu := (PostgresCatalogue.insertArchiveFile_eq_ok (hs f List.mem_cons_self)).mp hrun
      rw [hu.2] at hruns
      exact ⟨hu.1, hrest.mp hruns⟩
    · rintro ⟨hinst, hruns⟩
      exact ⟨⟨⟩, _, hf.mpr ⟨hinst, rfl⟩, hrest.mpr hruns⟩

/-- The archive files of a batch that can be recorded are all inserted. -/
theorem insertArchiveFiles_ok {insert : TapeFileWritten → Program Unit}
    (hinsert : ∀ c f, Insertable c f → insert f c = .ok ⟨⟩ (c.addArchiveFiles [f]))
    (hd : (files.map (·.archiveFileId)).Nodup)
    (hs : ∀ f ∈ files, c.archiveFile? f.archiveFileId = none →
      f.storageClassName ∈ c.storageClasses)
    (hi : ∀ f ∈ files, c.archiveFile? f.archiveFileId = none → f.diskInstance ∈ c.diskInstances)
    (hn : (c.archiveFiles.map (·.diskFile) ++
      (c.newFiles files).map (·.archiveFileRow.diskFile)).Nodup) :
    forEach insert files c = .ok ⟨⟩ (c.addArchiveFiles files) := by
  induction files generalizing c with
  | nil => simp [forEach, pure_run, Tables.addArchiveFiles, Tables.newFiles]
  | cons f fs ih =>
    have hf : Insertable c f := by
      refine fun hid => ⟨hs f List.mem_cons_self hid, hi f List.mem_cons_self hid, fun hmem => ?_⟩
      refine List.disjoint_of_nodup_append hn hmem (List.mem_map_of_mem (f :=
        fun g : TapeFileWritten => g.archiveFileRow.diskFile) (a := f) ?_)
      simp [Tables.newFiles, hid]
    have hrest := ih (c := c.addArchiveFiles [f]) (List.nodup_cons.mp hd).2
      (fun g hg hid => hs g (List.mem_cons_of_mem f hg)
        (by rwa [Tables.archiveFile?_addArchiveFiles hd hg] at hid))
      (fun g hg hid => hi g (List.mem_cons_of_mem f hg)
        (by rwa [Tables.archiveFile?_addArchiveFiles hd hg] at hid))
      (by
        rw [Tables.newFiles_addArchiveFiles hd]
        rw [Tables.newFiles_cons, List.map_append, ← List.append_assoc] at hn
        simpa [Tables.addArchiveFiles, Function.comp_def] using hn)
    rw [forEach, bind_ok (hinsert c f hf), hrest, Tables.addArchiveFiles_cons hd]

theorem sizesAndChecksums_eq_ok {found rows l : List ArchiveFileRow}
    (h : (found.map (·.archiveFileId)).Nodup) : sizesAndChecksums found rows = .ok l ↔
      ((found ++ rows).map (·.archiveFileId)).Nodup ∧ l = found ++ rows := by
  induction rows generalizing found with
  | nil => simp [sizesAndChecksums, h, eq_comm]
  | cons r rs ih =>
    rw [sizesAndChecksums]
    by_cases hr : r.archiveFileId ∈ found.map (·.archiveFileId)
    · rw [if_pos hr]
      simp only [reduceCtorEq, List.map_append, List.map_cons, false_iff, not_and]
      intro hn
      exact absurd List.mem_cons_self (List.disjoint_of_nodup_append hn hr)
    · have hnext : ((found ++ [r]).map (·.archiveFileId)).Nodup := by
        rw [List.map_append, List.map_singleton]
        exact h.append (List.nodup_singleton _) (by simpa using hr)
      rw [if_neg hr, ih hnext, ← List.append_cons]

theorem checkFound_eq_ok {missing : String} {r : Option ArchiveFileRow} :
    checkFound missing f r = .ok ⟨⟩ ↔
      ∃ a, r = some a ∧ a.size = f.size ∧ a.checksumBlob = f.checksumBlob := by
  cases r with
  | none => simp [checkFound]
  | some a =>
    unfold checkFound checkSizeAndChecksum
    by_cases hsize : a.size = f.size
    · simp [hsize, ChecksumBlob.validate_eq_ok]
    · simp [hsize]

/-- The selected rows hold the archive file of each event. -/
theorem find?_selected (hf : f ∈ files) :
    (files.filterMap fun g => c.archiveFile? g.archiveFileId).find?
      (·.archiveFileId == f.archiveFileId) = c.archiveFile? f.archiveFileId := by
  have hrow : ∀ r ∈ files.filterMap fun g => c.archiveFile? g.archiveFileId,
      c.archiveFile? r.archiveFileId = some r := by
    intro r hr
    obtain ⟨g, -, hg⟩ := List.mem_filterMap.mp hr
    rw [(Tables.archiveFile?_some hg).2]
    exact hg
  cases hfind : (files.filterMap fun g => c.archiveFile? g.archiveFileId).find?
      (·.archiveFileId == f.archiveFileId) with
  | some r =>
    have hid : r.archiveFileId = f.archiveFileId := by simpa using List.find?_some hfind
    rw [← hid, hrow r (List.mem_of_find?_eq_some hfind)]
  | none =>
    cases hold : c.archiveFile? f.archiveFileId with
    | none => rfl
    | some a =>
      have hne := List.find?_eq_none.mp hfind a (List.mem_filterMap.mpr ⟨f, hf, hold⟩)
      simp [(Tables.archiveFile?_some hold).2] at hne

theorem map_id_selected (h : ∀ f ∈ files, ∃ a, c.archiveFile? f.archiveFileId = some a) :
    (files.filterMap fun g => c.archiveFile? g.archiveFileId).map (·.archiveFileId) =
      files.map (·.archiveFileId) := by
  induction files with
  | nil => rfl
  | cons f fs ih =>
    obtain ⟨a, ha⟩ := h f List.mem_cons_self
    rw [List.filterMap_cons_some (f := fun g : TapeFileWritten => c.archiveFile? g.archiveFileId) ha,
      List.map_cons, List.map_cons,
      (Tables.archiveFile?_some ha).2, ih fun g hg => h g (List.mem_cons_of_mem f hg)]

theorem selectArchiveFileSizesAndChecksums_eq_ok {rows : List ArchiveFileRow} :
    selectArchiveFileSizesAndChecksums files c = .ok rows d ↔
      (rows.map (·.archiveFileId)).Nodup ∧
      rows = (files.filterMap fun f => c.archiveFile? f.archiveFileId) ∧ d = c := by
  have hnil : (([] : List ArchiveFileRow).map (·.archiveFileId)).Nodup := List.nodup_nil
  unfold selectArchiveFileSizesAndChecksums
  rw [ofResult_eq_ok, sizesAndChecksums_eq_ok hnil, List.nil_append, and_assoc]
  constructor
  · rintro ⟨hnodup, rfl, rfl⟩
    exact ⟨hnodup, rfl, rfl⟩
  · rintro ⟨hnodup, rfl, rfl⟩
    exact ⟨hnodup, rfl, rfl⟩

theorem verifyArchiveFiles_eq_ok : verifyArchiveFiles files c = .ok ⟨⟩ d ↔
    ((files.map (·.archiveFileId)).Nodup ∧ ∀ f ∈ files, ∃ a,
      c.archiveFile? f.archiveFileId = some a ∧ a.size = f.size ∧
      a.checksumBlob = f.checksumBlob) ∧ d = c := by
  unfold verifyArchiveFiles
  rw [bind_eq_ok]
  constructor
  · rintro ⟨rows, u, hrows, hchecks⟩
    obtain ⟨hnodup, rfl, rfl⟩ := selectArchiveFileSizesAndChecksums_eq_ok.mp hrows
    obtain ⟨hall, rfl⟩ := forEach_ofResult_eq_ok.mp hchecks
    have hfound : ∀ f ∈ files, ∃ a, d.archiveFile? f.archiveFileId = some a ∧ a.size = f.size ∧
        a.checksumBlob = f.checksumBlob := fun f hf => by
      have hf' := hall f hf
      rw [find?_selected hf] at hf'
      exact checkFound_eq_ok.mp hf'
    rw [map_id_selected fun f hf => (hfound f hf).imp fun a ha => ha.1] at hnodup
    exact ⟨⟨hnodup, hfound⟩, rfl⟩
  · rintro ⟨⟨hnodup, hfound⟩, rfl⟩
    refine ⟨_, d, selectArchiveFileSizesAndChecksums_eq_ok.mpr ⟨?_, rfl, rfl⟩,
      forEach_ofResult_eq_ok.mpr ⟨fun f hf => ?_, rfl⟩⟩
    · rw [map_id_selected fun f hf => (hfound f hf).imp fun a ha => ha.1]
      exact hnodup
    · rw [find?_selected hf]
      exact checkFound_eq_ok.mpr (hfound f hf)

/-- The rows that a tape file refers to are there. -/
def Linked (c : Tables) (r : TapeFileRow) : Prop :=
  c.tape? r.vid ≠ none ∧ c.archiveFile? r.archiveFileId ≠ none ∧ r.copyNb ≠ 0

theorem insertTapeFileRows_eq_ok {rows : List TapeFileRow}
    (hp : (c.tapeFiles.map (·.place)).Nodup) (hb : (c.tapeFiles.map (·.block)).Nodup) :
    forEach insertTapeFileRow rows c = .ok ⟨⟩ d ↔
      ((c.tapeFiles.map (·.place) ++ rows.map (·.place)).Nodup ∧
        (c.tapeFiles.map (·.block) ++ rows.map (·.block)).Nodup ∧ ∀ r ∈ rows, Linked c r) ∧
      d = { c with tapeFiles := c.tapeFiles ++ rows } := by
  induction rows generalizing c with
  | nil => simp [forEach, pure_eq_ok, hp, hb]
  | cons r rs ih =>
    have hplaces : (c.insertTapeFile r).tapeFiles.map (·.place) =
        c.tapeFiles.map (·.place) ++ [r.place] := by simp [Tables.insertTapeFile]
    have hblocks : (c.insertTapeFile r).tapeFiles.map (·.block) =
        c.tapeFiles.map (·.block) ++ [r.block] := by simp [Tables.insertTapeFile]
    have hfinal : ({ c.insertTapeFile r with
        tapeFiles := (c.insertTapeFile r).tapeFiles ++ rs } : Tables) =
        { c with tapeFiles := c.tapeFiles ++ r :: rs } := by simp [Tables.insertTapeFile]
    rw [forEach, bind_eq_ok, List.map_cons, List.map_cons, List.append_cons,
      List.append_cons _ _ (rs.map (·.block)), ← hplaces, ← hblocks, List.forall_mem_cons]
    constructor
    · rintro ⟨⟨⟩, u, hrun, hruns⟩
      obtain ⟨⟨hplace, hblock, hlinked⟩, rfl⟩ := insertTapeFileRow_eq_ok.mp hrun
      have hp' : ((c.insertTapeFile r).tapeFiles.map (·.place)).Nodup := by
        rw [hplaces]
        exact hp.append (List.nodup_singleton _) (by simpa using hplace)
      have hb' : ((c.insertTapeFile r).tapeFiles.map (·.block)).Nodup := by
        rw [hblocks]
        exact hb.append (List.nodup_singleton _) (by simpa using hblock)
      obtain ⟨⟨hps, hbs, hls⟩, rfl⟩ := (ih hp' hb').mp hruns
      exact ⟨⟨hps, hbs, hlinked, hls⟩, hfinal⟩
    · rintro ⟨⟨hps, hbs, hlinked, hls⟩, rfl⟩
      have hp' := hps.sublist (List.sublist_append_left _ _)
      have hb' := hbs.sublist (List.sublist_append_left _ _)
      have hplace : r.place ∉ c.tapeFiles.map (·.place) := fun hmem =>
        List.disjoint_of_nodup_append (hplaces ▸ hp') hmem List.mem_cons_self
      have hblock : r.block ∉ c.tapeFiles.map (·.block) := fun hmem =>
        List.disjoint_of_nodup_append (hblocks ▸ hb') hmem List.mem_cons_self
      exact ⟨⟨⟩, _, insertTapeFileRow_eq_ok.mpr ⟨⟨hplace, hblock, hlinked⟩, rfl⟩,
        (ih hp' hb').mpr ⟨⟨hps, hbs, hls⟩, hfinal.symm⟩⟩

theorem Tables.foldl_insertFileInFileRecycleLog {path : Option String} {reason : String}
    {old : List TapeFileRow} : old.foldl (insertFileInFileRecycleLog path reason) c =
    { c with fileRecycleLog := c.fileRecycleLog ++ old.filterMap fun t =>
        (c.archiveFile? t.archiveFileId).map (t.recycled path reason) } := by
  induction old generalizing c with
  | nil => simp
  | cons t ts ih =>
    rw [List.foldl_cons, ih]
    have hsame : ∀ i, (insertFileInFileRecycleLog path reason c t).archiveFile? i =
        c.archiveFile? i := fun _ => rfl
    simp only [hsame]
    cases h : c.archiveFile? t.archiveFileId with
    | none => simp [insertFileInFileRecycleLog, h]
    | some a => simp [insertFileInFileRecycleLog, h]

theorem Tables.insertOldCopies_eq {old : List TapeFileRow} : c.insertOldCopies old =
    { c with fileRecycleLog := c.fileRecycleLog ++ old.filterMap fun t =>
        (c.archiveFile? t.archiveFileId).map (t.recycled none getRepackReasonLog) } :=
  foldl_insertFileInFileRecycleLog

theorem Tables.deleteTapeFiles_eq {old : List TapeFileRow} : c.deleteTapeFiles old =
    { c with tapeFiles := c.tapeFiles.filter fun t => t.place ∉ old.map (·.place) } := by
  unfold deleteTapeFiles
  induction old generalizing c with
  | nil => simp
  | cons t ts ih =>
    rw [List.foldl_cons, ih]
    simp only [deleteTapeFile, List.filter_filter, List.map_cons, List.mem_cons, not_or,
      Bool.decide_and]
    congr 1
    refine List.filter_congr fun u _ => ?_
    rw [Bool.and_comm]
    congr 1
    simp [bne, beq_eq_decide]

theorem insertOldCopiesOfFilesIfAnyOnFileRecycleLog_eq_ok {rows old : List TapeFileRow} :
    insertOldCopiesOfFilesIfAnyOnFileRecycleLog rows c = .ok old d ↔
      old = rows.flatMap c.oldCopies ∧ d = c.insertOldCopies (rows.flatMap c.oldCopies) := by
  unfold insertOldCopiesOfFilesIfAnyOnFileRecycleLog
  rw [exec_eq_ok]
  simp [eq_comm]

theorem insertTapeFiles_eq_ok {rows : List TapeFileRow}
    (hp : (c.tapeFiles.map (·.place)).Nodup) (hb : (c.tapeFiles.map (·.block)).Nodup) :
    insertTapeFiles rows c = .ok ⟨⟩ d ↔
      ((c.tapeFiles.map (·.place) ++ rows.map (·.place)).Nodup ∧
        (c.tapeFiles.map (·.block) ++ rows.map (·.block)).Nodup ∧ ∀ r ∈ rows, Linked c r) ∧
      d = { c with
        tapeFiles := (c.tapeFiles ++ rows).filter fun t =>
          t.place ∉ (rows.flatMap c.oldCopies).map (·.place)
        fileRecycleLog := c.fileRecycleLog ++ (rows.flatMap c.oldCopies).filterMap fun t =>
          (c.archiveFile? t.archiveFileId).map (t.recycled none getRepackReasonLog) } := by
  have hlog := @Tables.insertOldCopies_eq c (rows.flatMap c.oldCopies)
  have hrows := fun e => @insertTapeFileRows_eq_ok
    (c.insertOldCopies (rows.flatMap c.oldCopies)) e rows (by rwa [hlog]) (by rwa [hlog])
  unfold insertTapeFiles
  rw [bind_eq_ok]
  constructor
  · rintro ⟨old, u, hold, hrest⟩
    obtain ⟨rfl, rfl⟩ := insertOldCopiesOfFilesIfAnyOnFileRecycleLog_eq_ok.mp hold
    obtain ⟨⟨⟩, v, hins, hdel⟩ := bind_eq_ok.mp hrest
    obtain ⟨hok, rfl⟩ := (hrows v).mp hins
    rw [hlog] at hok
    refine ⟨hok, ?_⟩
    rw [modify_eq_ok.mp hdel, Tables.deleteTapeFiles_eq, hlog]
  · rintro ⟨hok, rfl⟩
    refine ⟨_, _, insertOldCopiesOfFilesIfAnyOnFileRecycleLog_eq_ok.mpr ⟨rfl, rfl⟩,
      bind_eq_ok.mpr ⟨⟨⟩, _, (hrows _).mpr ⟨?_, rfl⟩, modify_eq_ok.mpr ?_⟩⟩
    · rw [hlog]
      exact hok
    · rw [Tables.deleteTapeFiles_eq, hlog]

/-- The recycle log entries of a batch are for what its files replace. -/
theorem Tables.filterMap_replaced (hd : (files.map (·.archiveFileId)).Nodup) :
    ((files.map (·.tapeFileRow)).flatMap (c.addArchiveFiles files).oldCopies).filterMap (fun t =>
      ((c.addArchiveFiles files).archiveFile? t.archiveFileId).map
        (t.recycled none getRepackReasonLog)) = files.flatMap c.replaced := by
  rw [List.flatMap_map, List.filterMap_flatMap]
  refine List.flatMap_congr fun f hf => ?_
  have hfile := Tables.archiveFile?_newFiles (c := c) hd hf c.tapeFiles c.fileRecycleLog
  unfold replaced
  rw [← List.filterMap_eq_map]
  refine List.filterMap_congr fun t ht => ?_
  rw [(Tables.mem_oldCopies.mp ht).2.1]
  exact congrArg (Option.map _) hfile

theorem Tables.recordFiles_eq (hd : (files.map (·.archiveFileId)).Nodup) :
    { c.addArchiveFiles files with
      tapeFiles := ((c.addArchiveFiles files).tapeFiles ++ files.map (·.tapeFileRow)).filter
        fun t => t.place ∉
          ((files.map (·.tapeFileRow)).flatMap (c.addArchiveFiles files).oldCopies).map (·.place)
      fileRecycleLog := (c.addArchiveFiles files).fileRecycleLog ++
        ((files.map (·.tapeFileRow)).flatMap (c.addArchiveFiles files).oldCopies).filterMap
          fun t => ((c.addArchiveFiles files).archiveFile? t.archiveFileId).map
            (t.recycled none getRepackReasonLog) } = c.recordFiles files := by
  rw [Tables.filterMap_replaced hd, List.flatMap_map]
  rfl

theorem FilesOk.linked (h : FilesOk c files) (htape : ∀ f ∈ files, c.tape? f.vid ≠ none) :
    ∀ r ∈ files.map (·.tapeFileRow), Linked (c.addArchiveFiles files) r := by
  intro r hr
  obtain ⟨f, hf, rfl⟩ := List.mem_map.mp hr
  refine ⟨htape f hf, ?_, ?_⟩
  · have hfile := Tables.archiveFile?_newFiles (c := c) h.distinct hf c.tapeFiles
      c.fileRecycleLog
    intro hnone
    cases hfile.symm.trans hnone
  · exact beq_eq_false_iff_ne.mp
      (h.fieldsSet f hf (f.copyNb == 0, "copyNb is 0") (by simp [TapeFileWritten.unset]))

theorem FilesOk.agree (h : FilesOk c files) (hf : f ∈ files) :
    (c.archived f).size = f.size ∧ (c.archived f).checksumBlob = f.checksumBlob := by
  unfold Tables.archived
  cases hid : c.archiveFile? f.archiveFileId with
  | none => exact ⟨rfl, rfl⟩
  | some a => exact h.sameAsRecorded f hf a hid

theorem FilesOk.insertTapeFiles_ok (h : FilesOk c files)
    (htape : ∀ f ∈ files, c.tape? f.vid ≠ none) :
    insertTapeFiles (files.map (·.tapeFileRow)) (c.addArchiveFiles files) =
      .ok ⟨⟩ (c.recordFiles files) := by
  have hplaces : ((c.addArchiveFiles files).tapeFiles.map (·.place)).Nodup := h.nodup_places
  have hblocks : ((c.addArchiveFiles files).tapeFiles.map (·.block)).Nodup :=
    h.blocks.sublist (List.sublist_append_left _ _)
  refine (insertTapeFiles_eq_ok hplaces hblocks).mpr
    ⟨⟨?_, ?_, h.linked htape⟩, (Tables.recordFiles_eq h.distinct).symm⟩
  · simpa [Tables.addArchiveFiles, Function.comp_def] using h.places
  · simpa [Tables.addArchiveFiles, Function.comp_def] using h.blocks

theorem FilesOk.verify (h : FilesOk c files) :
    verifyArchiveFiles files (c.addArchiveFiles files) = .ok ⟨⟩ (c.addArchiveFiles files) :=
  verifyArchiveFiles_eq_ok.mpr ⟨⟨h.distinct, fun _ hf => ⟨_, Tables.archiveFile?_newFiles
    h.distinct hf c.tapeFiles c.fileRecycleLog, h.agree hf⟩⟩, rfl⟩

/-- A batch that can be recorded is recorded, however its archive files are inserted. -/
theorem FilesOk.recordBatch_ok {insert : TapeFileWritten → Program Unit}
    {atCommit : Program Unit} (h : FilesOk c files) (htape : ∀ f ∈ files, c.tape? f.vid ≠ none)
    (hinsert : ∀ c f, Insertable c f → insert f c = .ok ⟨⟩ (c.addArchiveFiles [f]))
    (hcommit : atCommit (c.recordFiles files) = .ok ⟨⟩ (c.recordFiles files)) :
    recordBatch insert atCommit files c = .ok ⟨⟩ (c.recordFiles files) := by
  have hins := insertArchiveFiles_ok hinsert h.distinct h.storageClass h.diskInstance h.diskFiles
  rw [recordBatch, bind_ok hins, bind_ok h.verify, bind_ok (h.insertTapeFiles_ok htape), hcommit]

namespace PostgresCatalogue

theorem commit_eq_ok : commit c = .ok ⟨⟩ d ↔ (c.archiveFiles.map (·.diskFile)).Nodup ∧ d = c := by
  unfold commit
  rw [exec_eq_ok]
  by_cases h : (c.archiveFiles.map (·.diskFile)).Nodup
  · simp [h, eq_comm]
  · simp [h]

theorem commit_recordFiles (h : FilesOk c files) :
    commit (c.recordFiles files) = .ok ⟨⟩ (c.recordFiles files) := by
  rw [commit_eq_ok]
  refine ⟨?_, rfl⟩
  simpa [Tables.recordFiles, Function.comp_def] using h.diskFiles

theorem insertArchiveFile_ok (c : Tables) (f : TapeFileWritten) (h : Insertable c f) :
    insertArchiveFile f c = .ok ⟨⟩ (c.addArchiveFiles [f]) :=
  (insertArchiveFile_eq_ok fun hid => (h hid).1).mpr ⟨fun hid => (h hid).2.1, rfl⟩

/-- A new archive file without its storage class is not inserted. -/
theorem archiveFile?_of_insertArchiveFile {g : TapeFileWritten}
    (hclass : f.storageClassName ∉ c.storageClasses) (hid : c.archiveFile? f.archiveFileId = none)
    (hg : g = f ∨ g.archiveFileId ≠ f.archiveFileId) (h : insertArchiveFile g c = .ok ⟨⟩ d) :
    d.archiveFile? f.archiveFileId = none ∧ d.storageClasses = c.storageClasses := by
  unfold insertArchiveFile forStorageClass at h
  by_cases hs : g.storageClassName ∈ c.storageClasses
  · rw [if_pos hs] at h
    have hne : g.archiveFileId ≠ f.archiveFileId := by
      cases hg with
      | inl heq => exact absurd (heq ▸ hs) hclass
      | inr hne => exact hne
    cases ignoring_eq_ok.mp h with
    | inl hok =>
      obtain ⟨-, rfl⟩ := insertArchiveFileRow_eq_ok.mp hok
      refine ⟨Tables.archiveFile?_none.mpr fun r hr => ?_, rfl⟩
      cases List.mem_append.mp hr with
      | inl hold => exact Tables.archiveFile?_none.mp hid r hold
      | inr hnew =>
        rw [List.mem_singleton.mp hnew]
        exact hne
    | inr herr =>
      obtain ⟨e, -, herr⟩ := herr
      rw [(insertArchiveFileRow_error herr).1]
      exact ⟨hid, rfl⟩
  · rw [if_neg hs] at h
    cases h
    exact ⟨hid, rfl⟩

theorem storageClass_of_found (hd : (files.map (·.archiveFileId)).Nodup)
    (h : forEach insertArchiveFile files c = .ok ⟨⟩ d)
    (hfound : ∀ f ∈ files, d.archiveFile? f.archiveFileId ≠ none) :
    ∀ f ∈ files, c.archiveFile? f.archiveFileId = none →
      f.storageClassName ∈ c.storageClasses := by
  intro f hf hid
  by_contra hclass
  refine hfound f hf ?_
  clear hfound
  have hkeep : ∀ gs : List TapeFileWritten, gs ⊆ files → ∀ u : Tables,
      u.archiveFile? f.archiveFileId = none ∧ u.storageClasses = c.storageClasses →
      forEach insertArchiveFile gs u = .ok ⟨⟩ d → d.archiveFile? f.archiveFileId = none := by
    intro gs
    induction gs with
    | nil =>
      intro _ u hu hrun
      cases hrun
      exact hu.1
    | cons g gs ih =>
      intro hsub u hu hrun
      obtain ⟨⟨⟩, v, hg, hgs⟩ := bind_eq_ok.mp hrun
      have hgf : g = f ∨ g.archiveFileId ≠ f.archiveFileId := by
        by_cases hgid : g.archiveFileId = f.archiveFileId
        · exact .inl (List.inj_on_of_nodup_map hd (hsub List.mem_cons_self) hf hgid)
        · exact .inr hgid
      have hv := archiveFile?_of_insertArchiveFile (hu.2 ▸ hclass) hu.1 hgf hg
      exact ih (fun _ hm => hsub (List.mem_cons_of_mem g hm)) v ⟨hv.1, hv.2.trans hu.2⟩ hgs
  exact hkeep files (List.Subset.refl files) c ⟨hid, rfl⟩ h

theorem filesOk_of_recordBatch (hc : c.Consistent)
    (hset : ∀ f ∈ files, ∀ field ∈ f.unset, field.1 = false)
    (h : recordBatch insertArchiveFile commit files c = .ok ⟨⟩ d) : FilesOk c files := by
  obtain ⟨⟨⟩, u, hins, hinserted⟩ := bind_eq_ok.mp h
  obtain ⟨⟨⟩, v, hverify, hverified⟩ := bind_eq_ok.mp hinserted
  obtain ⟨⟨⟩, w, hfiles, hcommit⟩ := bind_eq_ok.mp hverified
  obtain ⟨⟨hdistinct, hagree⟩, rfl⟩ := verifyArchiveFiles_eq_ok.mp hverify
  have hclass := storageClass_of_found hdistinct hins fun f hf hnone => by
    obtain ⟨a, ha, -⟩ := hagree f hf
    cases hnone.symm.trans ha
  obtain ⟨hinst, rfl⟩ := (insertArchiveFiles_eq_ok hdistinct hclass).mp hins
  obtain ⟨⟨hplaces, hblocks, -⟩, rfl⟩ :=
    (insertTapeFiles_eq_ok (c := c.addArchiveFiles files) hc.places hc.blocks).mp hfiles
  obtain ⟨hdisk, -⟩ := commit_eq_ok.mp hcommit
  refine
    { fieldsSet := hset
      distinct := hdistinct
      storageClass := hclass
      sameAsRecorded := fun f hf r hr => ?_
      diskInstance := hinst
      diskFiles := ?_
      places := ?_
      blocks := ?_ }
  · obtain ⟨a, ha, hsame⟩ := hagree f hf
    have hfound := Tables.archiveFile?_newFiles (c := c) hdistinct hf c.tapeFiles
      c.fileRecycleLog
    have har : a = r := by
      rw [Tables.archived, hr] at hfound
      exact Option.some.inj (ha.symm.trans hfound)
    exact har ▸ hsame
  · simpa [Tables.addArchiveFiles, Function.comp_def] using hdisk
  · simpa [Tables.addArchiveFiles, Function.comp_def] using hplaces
  · simpa [Tables.addArchiveFiles, Function.comp_def] using hblocks

end PostgresCatalogue

theorem FilesOk.fileWrittenToTape_ok (h : FilesOk c [f])
    (hs : f.storageClassName ∈ c.storageClasses) (htape : c.tape? f.vid ≠ none) :
    SqliteCatalogue.fileWrittenToTape f c = .ok ⟨⟩ (c.recordFiles [f]) := by
  have hmem : f ∈ [f] := List.mem_singleton_self f
  have hset : checkTapeFileWrittenFieldsAreSet "fileWrittenToTape" f = .ok ⟨⟩ :=
    checkFieldsAreSet_eq_ok.mpr (h.fieldsSet f hmem)
  have hinsertable : Insertable c f := by
    refine fun hid => ⟨hs, h.diskInstance f hmem hid, fun htaken => ?_⟩
    refine List.disjoint_of_nodup_append h.diskFiles htaken ?_
    simp [Tables.newFiles, hid]
  have hfound := Tables.archiveFile?_newFiles (c := c) h.distinct hmem c.tapeFiles
    c.fileRecycleLog
  have hcheck : checkFound ("Failed to find archive file row: archiveFileId=" ++
      toString f.archiveFileId) f ((c.addArchiveFiles [f]).archiveFile? f.archiveFileId) =
      .ok ⟨⟩ := checkFound_eq_ok.mpr ⟨_, hfound, h.agree hmem⟩
  have htapeFile := h.insertTapeFiles_ok fun g hg => by
    rw [List.mem_singleton.mp hg]
    exact htape
  rw [SqliteCatalogue.fileWrittenToTape, bind_ok (ofResult_eq_ok.mpr ⟨hset, rfl⟩),
    bind_ok (RdbmsCatalogue.insertArchiveFile_ok hinsertable hs), bind_ok (get_run _),
    bind_ok (ofResult_eq_ok.mpr ⟨hcheck, rfl⟩)]
  exact htapeFile

theorem Tables.recordFiles_nil : c.recordFiles [] = c := by
  simp [recordFiles, newFiles]

theorem FilesOk.filesWrittenToTape_ok (h : FilesOk c files)
    (hs : ∀ f ∈ files, f.storageClassName ∈ c.storageClasses)
    (htape : ∀ f ∈ files, c.tape? f.vid ≠ none) :
    forEach SqliteCatalogue.fileWrittenToTape files c = .ok ⟨⟩ (c.recordFiles files) := by
  induction files generalizing c with
  | nil => rw [forEach, pure_run, Tables.recordFiles_nil]
  | cons f fs ih =>
    have hfirst := h.sublist (List.singleton_sublist.mpr List.mem_cons_self : [f].Sublist (f :: fs))
    have hrest := ih h.tail (fun g hg => hs g (List.mem_cons_of_mem f hg))
      fun g hg => htape g (List.mem_cons_of_mem f hg)
    rw [forEach, bind_ok (hfirst.fileWrittenToTape_ok (hs f List.mem_cons_self)
      (htape f List.mem_cons_self)), hrest, h.recordFiles_cons]

theorem SqliteCatalogue.storageClass_of_fileWrittenToTape
    (h : SqliteCatalogue.fileWrittenToTape f c = .ok ⟨⟩ d) :
    f.storageClassName ∈ c.storageClasses := by
  obtain ⟨⟨⟩, u, hset, hrest⟩ := bind_eq_ok.mp h
  obtain ⟨-, rfl⟩ := ofResult_eq_ok.mp hset
  obtain ⟨⟨⟩, v, hins, -⟩ := bind_eq_ok.mp hrest
  by_contra hclass
  have hrun : RdbmsCatalogue.insertArchiveFile f.archiveFileRow u = .error _ u := if_neg hclass
  cases ignoring_eq_ok.mp hins with
  | inl hok =>
    rw [hrun] at hok
    cases hok
  | inr herr =>
    obtain ⟨e, he, herr⟩ := herr
    rw [hrun] at herr
    cases herr
    cases he

end Cta.Catalogue

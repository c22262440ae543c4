import Mathlib.Data.List.Perm.Basic
import Cta.Lib.Runs
import Cta.Catalogue.FileRecycleLog

/-! Every copy that was recorded stays in the catalogue: on the tape files or in the recycle log. -/
namespace Cta.Catalogue
open Cta.Lib.Runs Cta.Lib.Transactions Cta.Lib.Triples

structure Copy where
  vid : String
  fSeq : Nat
  blockId : Nat
  copyNb : Nat
  archiveFileId : Nat
  deriving DecidableEq, Repr

def Copy.place (y : Copy) : String × Nat := (y.vid, y.fSeq)

def TapeFileRow.toCopy (t : TapeFileRow) : Copy :=
  { vid := t.vid, fSeq := t.fSeq, blockId := t.blockId, copyNb := t.copyNb
    archiveFileId := t.archiveFileId }

def FileRecycleLogRow.toCopy (r : FileRecycleLogRow) : Copy :=
  { vid := r.vid, fSeq := r.fSeq, blockId := r.blockId, copyNb := r.copyNb
    archiveFileId := r.archiveFile.archiveFileId }

namespace Tables

def onTape (c : Tables) : List Copy := c.tapeFiles.map (·.toCopy)

def recycled (c : Tables) : List Copy := c.fileRecycleLog.map (·.toCopy)

def copies (c : Tables) : List Copy := c.onTape ++ c.recycled

end Tables

/-- The catalogue, and the copies that were ever recorded in it. -/
structure World where
  catalogue : Tables
  recorded : List Copy
  deriving DecidableEq, Repr

/-- Each copy ever recorded is once on the tape files or in the recycle log, as it was recorded;
no place on tape was recorded twice, and no archive file has two copies of one number. -/
def Kept (w : World) : Prop :=
  w.catalogue.copies.Perm w.recorded ∧ (w.recorded.map (·.place)).Nodup ∧
    (w.catalogue.tapeFiles.map fun t => (t.archiveFileId, t.copyNb)).Nodup

instance (w : World) : Decidable (Kept w) := inferInstanceAs (Decidable (_ ∧ _ ∧ _))

inductive Call
  | filesWrittenToTape (fails : Bool) (events : List Event)
  | moveArchiveFileToRecycleLog (fails : Bool) (request : DeleteArchiveRequest)
  | deleteTapeFileCopy (fails : Bool) (file : ArchiveFile) (reason : String)
  | restoreEntryInRecycleLog (fails : Option RestoreFailure)
      (searchCriteria : FileRecycleLogRow → Bool) (newFid : String)

def Call.run : Call → Program Unit
  | filesWrittenToTape fails events =>
    inTransaction fails (PostgresCatalogue.filesWrittenToTape events)
  | moveArchiveFileToRecycleLog fails request => Catalogue.moveArchiveFileToRecycleLog fails request
  | deleteTapeFileCopy fails file reason => Catalogue.deleteTapeFileCopy fails file reason
  | restoreEntryInRecycleLog fails searchCriteria newFid =>
    Catalogue.restoreEntryInRecycleLog fails searchCriteria newFid

def Call.records : Call → List Copy
  | filesWrittenToTape _ events => (fileEvents events).map (·.tapeFileRow.toCopy)
  | _ => []

def World.next (w : World) (call : Call) : World :=
  match call.run w.catalogue with
  | .ok _ d => ⟨d, w.recorded ++ call.records⟩
  | .error _ d => ⟨d, w.recorded⟩

theorem World.next_ok {w : World} {call : Call} {d : Tables}
    (h : call.run w.catalogue = .ok ⟨⟩ d) : w.next call = ⟨d, w.recorded ++ call.records⟩ := by
  rw [World.next, h]

theorem World.next_error {w : World} {call : Call} {d : Tables} {e : Error}
    (h : call.run w.catalogue = .error e d) : w.next call = ⟨d, w.recorded⟩ := by
  rw [World.next, h]

/-- The file was read with the tape files that it still has, or it is gone. -/
def UpToDate (c : Tables) (archiveFileId : Nat) (file : ArchiveFile) : Prop :=
  file.archiveFileID = archiveFileId ∧ (c.archiveFile? archiveFileId = none ∨
    file.tapeFiles.Perm (c.tapeFilesOf archiveFileId))

/-- The copies to delete are still on tape, or the file and its copies are gone. -/
def StillThere (c : Tables) (file : ArchiveFile) : Prop :=
  (file.tapeFiles.Nodup ∧ ∀ t ∈ file.tapeFiles, t ∈ c.tapeFilesOf file.archiveFileID) ∨
    (c.archiveFile? file.archiveFileID = none ∧
      ∀ t ∈ file.tapeFiles, t.place ∉ c.tapeFiles.map (·.place))

/-- What was read before a deletion has not changed since, and no restoration fails after its
insertion. -/
def Undisturbed (w : World) : Call → Prop
  | .filesWrittenToTape _ _ => True
  | .moveArchiveFileToRecycleLog _ request =>
    ∀ file, request.archiveFile = some file → UpToDate w.catalogue request.archiveFileID file
  | .deleteTapeFileCopy _ file _ => StillThere w.catalogue file
  | .restoreEntryInRecycleLog fails _ _ => fails ≠ some .afterInsertion

/-- What holds between calls: the schema, `Kept`, and no copy past the end of its tape. -/
structure Sound (w : World) : Prop where
  consistent : w.catalogue.Consistent
  kept : Kept w
  behind : ∀ y ∈ w.recorded, ∃ tape, w.catalogue.tape? y.vid = some tape ∧ y.fSeq ≤ tape.lastFSeq

section
variable {c : Tables} {f : TapeFileWritten} {files : List TapeFileWritten}

def OneCopyEach (c : Tables) : Prop :=
  (c.tapeFiles.map fun t => (t.archiveFileId, t.copyNb)).Nodup

theorem filter_place_notMem {q : TapeFileRow → Bool} {l : List TapeFileRow}
    (h : (l.map (·.place)).Nodup) :
    l.filter (fun t => t.place ∉ (l.filter q).map (·.place)) = l.filter fun t => !q t := by
  refine List.filter_congr fun t ht => ?_
  have hiff : t.place ∈ (l.filter q).map (·.place) ↔ q t = true := by
    constructor
    · intro hmem
      obtain ⟨u, hu, hplace⟩ := List.mem_map.mp hmem
      have heq := List.inj_on_of_nodup_map h (List.mem_of_mem_filter hu) ht hplace
      exact heq ▸ (List.mem_filter.mp hu).2
    · exact fun hq => List.mem_map_of_mem (List.mem_filter.mpr ⟨ht, hq⟩)
  cases hq : q t with
  | true => exact decide_eq_false (not_not.mpr (hiff.mpr hq))
  | false => exact decide_eq_true fun hmem => by simp [hiff.mp hmem] at hq

theorem Tables.archived_id : (c.archived f).archiveFileId = f.archiveFileId := by
  unfold archived
  cases h : c.archiveFile? f.archiveFileId with
  | none => rfl
  | some a => exact (archiveFile?_some h).2

theorem FilesOk.tapeFiles_recordFiles (h : FilesOk c [f]) : (c.recordFiles [f]).tapeFiles =
    (c.tapeFiles.filter fun t => !(t.archiveFileId == f.archiveFileId && t.copyNb == f.copyNb &&
      t.place != f.tapeFileRow.place)) ++ [f.tapeFileRow] := by
  have hkept := h.kept (List.Subset.refl [f])
  have hold := filter_place_notMem (q := fun t => t.archiveFileId == f.archiveFileId &&
    t.copyNb == f.copyNb && t.place != f.tapeFileRow.place) h.nodup_places
  unfold Tables.recordFiles
  rw [List.filter_append, hkept, ← hold]
  simp [Tables.oldCopies, TapeFileWritten.tapeFileRow]

theorem FilesOk.copies_recordFiles_one (h : FilesOk c [f]) :
    (c.recordFiles [f]).copies.Perm (c.copies ++ [f.tapeFileRow.toCopy]) := by
  have hlog : (c.recordFiles [f]).recycled =
      c.recycled ++ (c.oldCopies f.tapeFileRow).map (·.toCopy) := by
    simp only [Tables.recycled, Tables.recordFiles, List.flatMap_cons, List.flatMap_nil,
      List.append_nil, List.map_append, Tables.replaced, List.map_map]
    congr 1
    refine List.map_congr_left fun t ht => ?_
    have hid := (Tables.mem_oldCopies.mp ht).2.1
    simp only [Function.comp_apply, TapeFileRow.recycled, FileRecycleLogRow.toCopy,
      TapeFileRow.toCopy, Tables.archived_id, Copy.mk.injEq, true_and]
    exact hid.symm
  have hsplit := (List.filter_append_perm (fun t : TapeFileRow =>
    t.archiveFileId == f.archiveFileId && t.copyNb == f.copyNb && t.place != f.tapeFileRow.place)
      c.tapeFiles).map (·.toCopy)
  rw [List.map_append] at hsplit
  unfold Tables.copies
  rw [hlog, Tables.onTape, h.tapeFiles_recordFiles, List.map_append, List.map_singleton,
    List.perm_iff_count]
  intro y
  have hcount := hsplit.count_eq y
  change List.count y ((c.oldCopies f.tapeFileRow).map (·.toCopy) ++ _) = _ at hcount
  simp only [List.count_append, Tables.onTape] at hcount ⊢
  omega

theorem FilesOk.consistent_recordFiles_one (h : FilesOk c [f]) (hc : c.Consistent) :
    (c.recordFiles [f]).Consistent where
  archiveFileIds := by
    cases hid : c.archiveFile? f.archiveFileId with
    | some a => simpa [Tables.recordFiles, Tables.newFiles, hid] using hc.archiveFileIds
    | none =>
      have hnew := Tables.archiveFile?_none.mp hid
      have hnodup := hc.archiveFileIds.append (List.nodup_singleton f.archiveFileId) (by
        rw [List.disjoint_singleton]
        intro hmem
        obtain ⟨r, hr, hrid⟩ := List.mem_map.mp hmem
        exact hnew r hr hrid)
      simpa [Tables.recordFiles, Tables.newFiles, hid, TapeFileWritten.archiveFileRow]
        using hnodup
  diskFiles := by simpa [Tables.recordFiles, Function.comp_def] using h.diskFiles
  places := by
    refine h.places.sublist ((List.filter_sublist.map _).trans ?_)
    simp
  blocks := by
    refine h.blocks.sublist ((List.filter_sublist.map _).trans ?_)
    simp
  archived t ht := by
    cases List.mem_append.mp (List.mem_of_mem_filter ht) with
    | inl hold =>
      obtain ⟨a, ha, haid⟩ := hc.archived t hold
      exact ⟨a, List.mem_append_left _ ha, haid⟩
    | inr hnew =>
      have heq : t = f.tapeFileRow := by simpa using hnew
      subst heq
      have hfound := Tables.archiveFile?_some (Tables.archiveFile?_newFiles (c := c)
        h.distinct (List.mem_singleton_self f) (c.recordFiles [f]).tapeFiles
        (c.recordFiles [f]).fileRecycleLog)
      exact ⟨_, hfound.1, hfound.2⟩

theorem FilesOk.oneCopyEach_recordFiles_one (h : FilesOk c [f]) (hs : OneCopyEach c) :
    OneCopyEach (c.recordFiles [f]) := by
  unfold OneCopyEach
  rw [h.tapeFiles_recordFiles, List.map_append]
  refine (hs.sublist (List.filter_sublist.map _)).append (List.nodup_singleton _) ?_
  rw [List.map_singleton, List.disjoint_singleton]
  intro hmem
  obtain ⟨t, ht, hkey⟩ := List.mem_map.mp hmem
  obtain ⟨hin, hq⟩ := List.mem_filter.mp ht
  obtain ⟨hid, hcopy⟩ := Prod.mk.inj hkey
  have hplace : t.place = f.tapeFileRow.place := by
    simpa [hid, hcopy, TapeFileWritten.tapeFileRow] using hq
  exact h.place_notMem (List.mem_singleton_self f) (hplace ▸ List.mem_map_of_mem hin)

theorem FilesOk.copies_recordFiles (h : FilesOk c files) (hc : c.Consistent)
    (hs : OneCopyEach c) : (c.recordFiles files).copies.Perm
      (c.copies ++ files.map (·.tapeFileRow.toCopy)) ∧
      (c.recordFiles files).Consistent ∧ OneCopyEach (c.recordFiles files) := by
  induction files generalizing c with
  | nil =>
    rw [Tables.recordFiles_nil]
    simpa using ⟨hc, hs⟩
  | cons f fs ih =>
    have hf := h.sublist (List.singleton_sublist.mpr List.mem_cons_self : [f].Sublist (f :: fs))
    obtain ⟨hcopies, hrest⟩ := ih h.tail (hf.consistent_recordFiles_one hc)
      (hf.oneCopyEach_recordFiles_one hs)
    rw [h.recordFiles_cons] at hcopies hrest
    refine ⟨hcopies.trans ?_, hrest⟩
    rw [List.map_cons, List.append_cons]
    exact hf.copies_recordFiles_one.append_right _

end

section
variable {c d : Tables} {w : World} {first : Event} {rest : List Event} {tape : TapeRow}

theorem Follows.tape?_mono (h : Follows c (first :: rest) tape) {vid : String} {old : TapeRow}
    (hold : c.tape? vid = some old) : ∃ tape', (c.afterEvents first rest).tape? vid = some tape' ∧
      old.lastFSeq ≤ tape'.lastFSeq := by
  by_cases hvid : vid = first.vid
  · subst hvid
    obtain ⟨tape', hfound, hseq⟩ := h.tape_after List.mem_cons_self
    have heq : old = tape := Option.some.inj (hold.symm.trans h.found_first)
    exact ⟨tape', hfound, by rw [hseq, heq]; omega⟩
  · have hlast : vid ≠ ((first :: rest).getLast (List.cons_ne_nil first rest)).vid := by
      intro heq
      have hfound := h.found _ (List.getLast_mem (List.cons_ne_nil first rest))
      rw [← heq] at hfound
      exact hvid ((Tables.tape?_some hfound).2.symm.trans
        (Tables.tape?_some h.found_first).2)
    exact ⟨old, (Tables.tape?_updateTape_of_ne hlast).trans hold, Nat.le_refl _⟩

theorem Follows.file (h : Follows c (first :: rest) tape) {f : TapeFileWritten}
    (hf : f ∈ fileEvents (first :: rest)) : c.tape? f.vid = some tape ∧
      tape.lastFSeq < f.fSeq ∧ ∃ tape', (c.afterEvents first rest).tape? f.vid = some tape' ∧
        f.fSeq ≤ tape'.lastFSeq := by
  obtain ⟨e, he, hef⟩ := List.mem_filterMap.mp hf
  have hitem : e.toItem = f.toTapeItemWritten := by
    cases e with
    | item i => cases hef
    | file g =>
      cases hef
      rfl
  have hseq : e.fSeq ∈ List.range' (tape.lastFSeq + 1) (first :: rest).length :=
    h.fSeqs ▸ List.mem_map_of_mem he
  obtain ⟨hlow, hhigh⟩ := List.mem_range'_1.mp hseq
  obtain ⟨tape', hfound, hlast⟩ := h.tape_after he
  have hvid : e.vid = f.vid := congrArg TapeItemWritten.vid hitem
  have hfSeq : e.fSeq = f.fSeq := congrArg TapeItemWritten.fSeq hitem
  exact ⟨hvid ▸ h.found e he, by omega, tape', hvid ▸ hfound, by omega⟩

theorem Sound.recorded (hw : Sound w) (h : Follows w.catalogue (first :: rest) tape)
    (hfiles : FilesOk w.catalogue (fileEvents (first :: rest))) :
    Sound ⟨(w.catalogue.afterEvents first rest).recordFiles (fileEvents (first :: rest)),
      w.recorded ++ (fileEvents (first :: rest)).map (·.tapeFileRow.toCopy)⟩ := by
  obtain ⟨hcopies, hconsistent, hone⟩ := (filesOk_afterEvents.mpr hfiles :
    FilesOk (w.catalogue.afterEvents first rest) _).copies_recordFiles
      hw.consistent.afterEvents hw.kept.2.2
  refine ⟨hconsistent, ⟨?_, ?_, hone⟩, ?_⟩
  · exact hcopies.trans (hw.kept.1.append_right _)
  · rw [List.map_append, List.map_map]
    have hnew : ((fileEvents (first :: rest)).map (·.tapeFileRow.place)).Nodup :=
      hfiles.places.sublist (List.sublist_append_right _ _)
    refine hw.kept.2.1.append hnew fun p hold hmem => ?_
    obtain ⟨y, hy, rfl⟩ := List.mem_map.mp hold
    obtain ⟨f, hf, hplace⟩ := List.mem_map.mp hmem
    have hvid : f.vid = y.vid := congrArg Prod.fst hplace
    have hseq : f.fSeq = y.fSeq := congrArg Prod.snd hplace
    obtain ⟨old, hfound, hle⟩ := hw.behind y hy
    obtain ⟨hfile, hlt, -⟩ := h.file hf
    rw [← hvid] at hfound
    have heq : old = tape := Option.some.inj (hfound.symm.trans hfile)
    subst heq
    omega
  · intro y hy
    cases List.mem_append.mp hy with
    | inl hold =>
      obtain ⟨old, hfound, hle⟩ := hw.behind y hold
      obtain ⟨tape', hfound', hle'⟩ := h.tape?_mono hfound
      exact ⟨tape', hfound', Nat.le_trans hle hle'⟩
    | inr hnew =>
      obtain ⟨f, hf, rfl⟩ := List.mem_map.mp hnew
      exact (h.file hf).2.2

theorem Sound.filesWrittenToTape (hw : Sound w) (fails : Bool) (events : List Event) :
    Sound (w.next (.filesWrittenToTape fails events)) := by
  cases hrun : (Call.filesWrittenToTape fails events).run w.catalogue with
  | error e d =>
    rw [World.next_error hrun, inTransaction_error hrun]
    exact hw
  | ok a d =>
    have hok := inTransaction_ok hrun
    rw [World.next_ok hrun]
    cases events with
    | nil =>
      cases hok
      simpa [Call.records, fileEvents] using hw
    | cons first rest =>
      obtain ⟨tape, hfollows, hfiles, rfl⟩ :=
        (PostgresCatalogue.filesWrittenToTape_eq_ok hw.consistent).mp hok
      exact hw.recorded hfollows hfiles

theorem Sound.moved (hw : Sound w) {keep : TapeFileRow → Bool} (entries : List FileRecycleLogRow)
    (htapes : d.tapes = w.catalogue.tapes)
    (hfiles : d.tapeFiles = w.catalogue.tapeFiles.filter keep)
    (hlog : d.fileRecycleLog = w.catalogue.fileRecycleLog ++ entries)
    (hentries : (entries.map (·.toCopy)).Perm
      ((w.catalogue.tapeFiles.filter fun t => !keep t).map (·.toCopy)))
    (harchive : d.archiveFiles.Sublist w.catalogue.archiveFiles)
    (harchived : ∀ t ∈ d.tapeFiles, ∃ a ∈ d.archiveFiles, a.archiveFileId = t.archiveFileId) :
    Sound ⟨d, w.recorded⟩ := by
  have hsub : d.tapeFiles.Sublist w.catalogue.tapeFiles := hfiles ▸ List.filter_sublist
  refine ⟨⟨?_, ?_, ?_, ?_, harchived⟩, ⟨?_, hw.kept.2.1, ?_⟩, fun y hy => ?_⟩
  · exact hw.consistent.archiveFileIds.sublist (harchive.map _)
  · exact hw.consistent.diskFiles.sublist (harchive.map _)
  · exact hw.consistent.places.sublist (hsub.map _)
  · exact hw.consistent.blocks.sublist (hsub.map _)
  · refine List.Perm.trans ?_ hw.kept.1
    have hsplit := (List.filter_append_perm keep w.catalogue.tapeFiles).map (·.toCopy)
    rw [List.map_append] at hsplit
    rw [List.perm_iff_count]
    intro y
    have hcount := hsplit.count_eq y
    have hmoved := hentries.count_eq y
    simp only [Tables.copies, Tables.onTape, Tables.recycled, hfiles, hlog,
      List.map_append, List.count_append] at hcount ⊢
    omega
  · exact hw.kept.2.2.sublist (hsub.map _)
  · obtain ⟨tape, hfound, hle⟩ := hw.behind y hy
    refine ⟨tape, ?_, hle⟩
    rw [Tables.tape?, htapes]
    exact hfound

section
variable {file : ArchiveFile} (path reason : String)

theorem Tables.copyToFileRecycleLog_of_none (h : c.archiveFile? file.archiveFileID = none) :
    c.copyToFileRecycleLog file path reason = c := by
  unfold copyToFileRecycleLog
  rw [foldl_insertFileInFileRecycleLog, List.filterMap_map, List.filterMap_eq_nil_iff.mpr]
  · simp
  · intro t _
    simp [h]

theorem Tables.copyToFileRecycleLog_of_some {a : ArchiveFileRow}
    (h : c.archiveFile? file.archiveFileID = some a) : ∃ entries,
      c.copyToFileRecycleLog file path reason =
        { c with fileRecycleLog := c.fileRecycleLog ++ entries } ∧
      entries.map (·.toCopy) = file.tapeFiles.map fun t =>
        TapeFileRow.toCopy { t with archiveFileId := file.archiveFileID } := by
  refine ⟨file.tapeFiles.map fun t => TapeFileRow.recycled
    { t with archiveFileId := file.archiveFileID } (some path) reason a, ?_, ?_⟩
  · unfold copyToFileRecycleLog
    rw [foldl_insertFileInFileRecycleLog, List.filterMap_map, ← List.filterMap_eq_map]
    congr 2
    refine List.filterMap_congr fun t _ => ?_
    simp [h]
  · rw [List.map_map]
    refine List.map_congr_left fun t _ => ?_
    simp [FileRecycleLogRow.toCopy, TapeFileRow.recycled, TapeFileRow.toCopy,
      (Tables.archiveFile?_some h).2]

end

theorem Tables.mem_tapeFilesOf {i : Nat} {t : TapeFileRow} :
    t ∈ c.tapeFilesOf i ↔ t ∈ c.tapeFiles ∧ t.archiveFileId = i := by
  simp [tapeFilesOf]

theorem Tables.Consistent.tapeFilesOf_eq_nil (h : c.Consistent) {i : Nat}
    (hid : c.archiveFile? i = none) : c.tapeFilesOf i = [] := by
  refine List.eq_nil_iff_forall_not_mem.mpr fun t ht => ?_
  obtain ⟨hmem, hti⟩ := Tables.mem_tapeFilesOf.mp ht
  obtain ⟨a, ha, hai⟩ := h.archived t hmem
  exact Tables.archiveFile?_none.mp hid a ha (hai.trans hti)

theorem toCopy_of_tapeFilesOf {i : Nat} {ts : List TapeFileRow}
    (h : ∀ t ∈ ts, t ∈ c.tapeFilesOf i) :
    ts.map (fun t => TapeFileRow.toCopy { t with archiveFileId := i }) = ts.map (·.toCopy) :=
  List.map_congr_left fun t ht => by
    rw [← (Tables.mem_tapeFilesOf.mp (h t ht)).2]

theorem Sound.archiveFileDeleted (hw : Sound w) {request : DeleteArchiveRequest}
    {file : ArchiveFile} (h : UpToDate w.catalogue request.archiveFileID file)
    (hrun : copyArchiveFileToFileRecyleLogAndDelete request file w.catalogue = .ok ⟨⟩ d) :
    Sound ⟨d, w.recorded⟩ := by
  obtain ⟨hid, hcase⟩ := h
  have hd := modify_eq_ok.mp hrun
  have harchived : ∀ t ∈ w.catalogue.tapeFiles.filter (·.archiveFileId != request.archiveFileID),
      ∃ a ∈ w.catalogue.archiveFiles.filter (·.archiveFileId != request.archiveFileID),
        a.archiveFileId = t.archiveFileId := by
    intro t ht
    obtain ⟨hmem, hne⟩ := List.mem_filter.mp ht
    obtain ⟨a, ha, hat⟩ := hw.consistent.archived t hmem
    exact ⟨a, List.mem_filter.mpr ⟨ha, by rwa [hat]⟩, hat⟩
  have hofs : (w.catalogue.tapeFiles.filter fun t => !(t.archiveFileId != request.archiveFileID)) =
      w.catalogue.tapeFilesOf request.archiveFileID := by
    simp [Tables.tapeFilesOf, bne]
  cases hfound : w.catalogue.archiveFile? request.archiveFileID with
  | none =>
    rw [Tables.copyToFileRecycleLog_of_none _ _ (hid ▸ hfound)] at hd
    subst hd
    refine hw.moved [] rfl rfl (by simp [Tables.deleteArchiveFile]) ?_
      List.filter_sublist harchived
    rw [hofs, hw.consistent.tapeFilesOf_eq_nil hfound]
    exact List.Perm.refl _
  | some a =>
    obtain ⟨entries, hlog, hentries⟩ := Tables.copyToFileRecycleLog_of_some
      request.diskFilePath (getDeletionReasonLog request.requester request.diskInstance)
      (hid ▸ hfound)
    rw [hlog] at hd
    subst hd
    have hperm : file.tapeFiles.Perm (w.catalogue.tapeFilesOf request.archiveFileID) := by
      cases hcase with
      | inl hnone => cases hnone.symm.trans hfound
      | inr hperm => exact hperm
    refine hw.moved entries rfl rfl rfl ?_ List.filter_sublist harchived
    rw [hofs, hentries, hid, toCopy_of_tapeFilesOf fun t ht => hperm.mem_iff.mp ht]
    exact hperm.map _

theorem Sound.moveArchiveFileToRecycleLog (hw : Sound w) (fails : Bool)
    (request : DeleteArchiveRequest)
    (h : Undisturbed w (.moveArchiveFileToRecycleLog fails request)) :
    Sound (w.next (.moveArchiveFileToRecycleLog fails request)) := by
  have hrun : (Call.moveArchiveFileToRecycleLog fails request).run w.catalogue =
      Cta.Catalogue.moveArchiveFileToRecycleLog fails request w.catalogue := rfl
  unfold Cta.Catalogue.moveArchiveFileToRecycleLog at hrun
  cases hfile : request.archiveFile with
  | none =>
    rw [hfile] at hrun
    rw [World.next_ok hrun]
    simpa [Call.records] using hw
  | some file =>
    simp only [hfile] at hrun
    cases hcheck : checkDeleteRequestConsistency request file with
    | error e =>
      rw [hcheck, bind_error (ofResult_error rfl)] at hrun
      rw [World.next_error hrun]
      exact hw
    | ok a =>
      rw [hcheck, bind_ok (ofResult_eq_ok.mpr ⟨rfl, rfl⟩)] at hrun
      cases htrans : inTransaction fails (copyArchiveFileToFileRecyleLogAndDelete request file)
          w.catalogue with
      | error e d =>
        rw [World.next_error (hrun.trans htrans), inTransaction_error htrans]
        exact hw
      | ok a d =>
        rw [World.next_ok (hrun.trans htrans)]
        simpa [Call.records] using hw.archiveFileDeleted (h file hfile) (inTransaction_ok htrans)

theorem Sound.perm_filter_place (hw : Sound w) {i : Nat} {ts : List TapeFileRow}
    (hnodup : ts.Nodup) (h : ∀ t ∈ ts, t ∈ w.catalogue.tapeFilesOf i) :
    ts.Perm (w.catalogue.tapeFiles.filter fun t => !decide (t.place ∉ ts.map (·.place))) := by
  have hall : w.catalogue.tapeFiles.Nodup := hw.consistent.places.of_map _
  rw [List.perm_ext_iff_of_nodup hnodup (hall.filter _)]
  intro t
  rw [List.mem_filter]
  constructor
  · intro ht
    have hplace : t.place ∈ ts.map (·.place) := List.mem_map_of_mem ht
    exact ⟨(Tables.mem_tapeFilesOf.mp (h t ht)).1, by simpa using hplace⟩
  · rintro ⟨ht, hplace⟩
    have hmem : t.place ∈ ts.map (·.place) := by simpa using hplace
    obtain ⟨u, hu, hut⟩ := List.mem_map.mp hmem
    have heq := List.inj_on_of_nodup_map hw.consistent.places
      (Tables.mem_tapeFilesOf.mp (h u hu)).1 ht hut
    exact heq ▸ hu

theorem Sound.copyDeleted (hw : Sound w) {file : ArchiveFile} {reason : String}
    (h : StillThere w.catalogue file)
    (hrun : copyTapeFileToFileRecyleLogAndDelete file reason w.catalogue = .ok ⟨⟩ d) :
    Sound ⟨d, w.recorded⟩ := by
  have hd := modify_eq_ok.mp hrun
  rw [Tables.deleteTapeFiles_eq] at hd
  have harchived : ∀ t ∈ w.catalogue.tapeFiles.filter
      (fun t => decide (t.place ∉ file.tapeFiles.map (·.place))),
      ∃ a ∈ w.catalogue.archiveFiles, a.archiveFileId = t.archiveFileId :=
    fun t ht => hw.consistent.archived t (List.mem_of_mem_filter ht)
  cases hfound : w.catalogue.archiveFile? file.archiveFileID with
  | none =>
    rw [Tables.copyToFileRecycleLog_of_none _ _ hfound] at hd
    have hgone : ∀ t ∈ file.tapeFiles, t.place ∉ w.catalogue.tapeFiles.map (·.place) := by
      cases h with
      | inl hthere =>
        intro t ht
        have hmem := hthere.2 t ht
        rw [hw.consistent.tapeFilesOf_eq_nil hfound] at hmem
        exact absurd hmem List.not_mem_nil
      | inr hgone => exact hgone.2
    subst hd
    refine hw.moved [] rfl rfl (List.append_nil _).symm ?_ (List.Sublist.refl _) harchived
    rw [List.filter_eq_nil_iff.mpr]
    · exact List.Perm.refl _
    · intro t ht hplace
      have hmem : t.place ∈ file.tapeFiles.map (·.place) := by simpa using hplace
      obtain ⟨u, hu, hut⟩ := List.mem_map.mp hmem
      exact hgone u hu (hut ▸ List.mem_map_of_mem ht)
  | some a =>
    obtain ⟨entries, hlog, hentries⟩ := Tables.copyToFileRecycleLog_of_some
      file.diskFilePath ("(Deleted using cta-admin tf rm) " ++ reason) hfound
    rw [hlog] at hd
    subst hd
    have hthere : file.tapeFiles.Nodup ∧
        ∀ t ∈ file.tapeFiles, t ∈ w.catalogue.tapeFilesOf file.archiveFileID := by
      cases h with
      | inl hthere => exact hthere
      | inr hgone => cases hgone.1.symm.trans hfound
    refine hw.moved entries rfl rfl rfl ?_ (List.Sublist.refl _) harchived
    rw [hentries, toCopy_of_tapeFilesOf hthere.2]
    exact (hw.perm_filter_place hthere.1 hthere.2).map _

theorem Sound.deleteTapeFileCopy (hw : Sound w) (fails : Bool) (file : ArchiveFile)
    (reason : String) (h : Undisturbed w (.deleteTapeFileCopy fails file reason)) :
    Sound (w.next (.deleteTapeFileCopy fails file reason)) := by
  cases hrun : (Call.deleteTapeFileCopy fails file reason).run w.catalogue with
  | error e d =>
    rw [World.next_error hrun, inTransaction_error hrun]
    exact hw
  | ok a d =>
    rw [World.next_ok hrun]
    simpa [Call.records] using hw.copyDeleted h (inTransaction_ok hrun)

theorem Tables.getArchiveFileById_tapeFiles {i : Nat} :
    (∀ file, c.getArchiveFileById i = some file → file.tapeFiles = c.tapeFilesOf i) ∧
      (c.getArchiveFileById i = none → c.archiveFile? i = none ∨ c.tapeFilesOf i = []) := by
  unfold getArchiveFileById
  cases ha : c.archiveFile? i with
  | none => simp
  | some a =>
    cases ht : c.tapeFilesOf i with
    | nil => simp
    | cons t ts =>
      refine ⟨fun file hfile => ?_, fun hnone => by cases hnone⟩
      cases hfile
      rfl

theorem restoreArchiveFileIfNeeded_ok {r : FileRecycleLogRow} {newFid : String}
    (hc : c.Consistent) (h : restoreArchiveFileIfNeeded r newFid c = .ok ⟨⟩ d) :
    d.Consistent ∧ d.tapes = c.tapes ∧ d.tapeFiles = c.tapeFiles ∧
      d.fileRecycleLog = c.fileRecycleLog ∧
      ∀ t ∈ c.tapeFilesOf r.archiveFile.archiveFileId, t.copyNb ≠ r.copyNb := by
  obtain ⟨hsome, hnone⟩ := @Tables.getArchiveFileById_tapeFiles c r.archiveFile.archiveFileId
  unfold restoreArchiveFileIfNeeded at h
  cases hfile : c.getArchiveFileById r.archiveFile.archiveFileId with
  | some file =>
    simp only [hfile] at h
    by_cases hany : file.tapeFiles.any (·.copyNb == r.copyNb) = true
    · simp only [hany, if_true] at h
      cases h
    · simp only [hany, Bool.false_eq_true, if_false] at h
      cases h
      refine ⟨hc, rfl, rfl, rfl, fun t ht hcopy => hany ?_⟩
      rw [hsome file hfile]
      exact List.any_eq_true.mpr ⟨t, ht, by simpa using hcopy⟩
  | none =>
    simp only [hfile, restoreArchiveFileInRecycleLog, RdbmsCatalogue.insertArchiveFile] at h
    by_cases hclass : r.archiveFile.storageClassName ∈ c.storageClasses
    · rw [if_pos hclass] at h
      obtain ⟨⟨hid, hdisk, -⟩, rfl⟩ := insertArchiveFileRow_eq_ok.mp h
      refine ⟨⟨?_, ?_, hc.places, hc.blocks, fun t ht => ?_⟩, rfl, rfl, rfl, fun t ht => ?_⟩
      · have hnew := Tables.archiveFile?_none.mp hid
        rw [Tables.insertArchiveFile, List.map_append]
        refine hc.archiveFileIds.append (List.nodup_singleton _) ?_
        rw [List.map_singleton, List.disjoint_singleton]
        intro hmem
        obtain ⟨a, ha, hai⟩ := List.mem_map.mp hmem
        exact hnew a ha hai
      · rw [Tables.insertArchiveFile, List.map_append]
        refine hc.diskFiles.append (List.nodup_singleton _) ?_
        rw [List.map_singleton, List.disjoint_singleton]
        exact hdisk rfl
      · obtain ⟨a, ha, hat⟩ := hc.archived t ht
        exact ⟨a, List.mem_append_left _ ha, hat⟩
      · rw [hc.tapeFilesOf_eq_nil hid] at ht
        exact absurd ht List.not_mem_nil
    · rw [if_neg hclass] at h
      cases h

theorem Sound.perm_cons_entry (hw : Sound w) {r : FileRecycleLogRow}
    (hr : r ∈ w.catalogue.fileRecycleLog) : w.catalogue.fileRecycleLog.Perm
      (r :: (w.catalogue.deleteTapeFileCopyFromRecycleBin r).fileRecycleLog) := by
  have hplaces : ((w.catalogue.fileRecycleLog.map (·.toCopy)).map (·.place)).Nodup := by
    have hall := (hw.kept.1.map (·.place)).nodup_iff.mpr hw.kept.2.1
    rw [Tables.copies, List.map_append] at hall
    exact hall.sublist (List.sublist_append_right _ _)
  rw [List.map_map] at hplaces
  have hlog : w.catalogue.fileRecycleLog.Nodup := hplaces.of_map _
  have hsplit := List.filter_append_perm (fun s : FileRecycleLogRow =>
    s.archiveFile.archiveFileId == r.archiveFile.archiveFileId && s.vid == r.vid &&
      s.fSeq == r.fSeq && s.copyNb == r.copyNb &&
      s.archiveFile.diskInstance == r.archiveFile.diskInstance) w.catalogue.fileRecycleLog
  refine hsplit.symm.trans (List.Perm.append_right _ ?_ : List.Perm _ ([r] ++ _))
  rw [List.perm_ext_iff_of_nodup (hlog.filter _) (List.nodup_singleton r)]
  intro s
  rw [List.mem_filter, List.mem_singleton]
  constructor
  · rintro ⟨hs, hmatch⟩
    refine List.inj_on_of_nodup_map hplaces hs hr ?_
    simp only [Bool.and_eq_true, beq_iff_eq] at hmatch
    simp [FileRecycleLogRow.toCopy, Copy.place, hmatch.1.1.1.2, hmatch.1.1.2]
  · rintro rfl
    exact ⟨hr, by simp⟩

theorem Sound.entryRestored (hw : Sound w) {r : FileRecycleLogRow} {newFid : String}
    {u v : Tables} (hr : r ∈ w.catalogue.fileRecycleLog)
    (hfile : restoreArchiveFileIfNeeded r newFid w.catalogue = .ok ⟨⟩ u)
    (hins : insertTapeFiles [r.tapeFileRow] u = .ok ⟨⟩ v) :
    Sound ⟨v.deleteTapeFileCopyFromRecycleBin r, w.recorded⟩ ∧
      (v.deleteTapeFileCopyFromRecycleBin r).onTape = w.catalogue.onTape ++ [r.toCopy] := by
  obtain ⟨hconsistent, htapes, htapeFiles, hlog, hcopyNb⟩ :=
    restoreArchiveFileIfNeeded_ok hw.consistent hfile
  obtain ⟨⟨hplaces, hblocks, hlinked⟩, rfl⟩ :=
    (insertTapeFiles_eq_ok hconsistent.places hconsistent.blocks).mp hins
  have hold : [r.tapeFileRow].flatMap u.oldCopies = [] := by
    rw [List.flatMap_singleton, List.eq_nil_iff_forall_not_mem]
    intro t ht
    obtain ⟨hmem, hid, hcopy, -⟩ := Tables.mem_oldCopies.mp ht
    exact hcopyNb t (Tables.mem_tapeFilesOf.mpr ⟨htapeFiles ▸ hmem, hid⟩) hcopy
  rw [hold]
  simp only [List.map_nil, List.not_mem_nil, not_false_eq_true, decide_true, List.filter_true,
    List.filterMap_nil, List.append_nil]
  have honTape : (u.tapeFiles ++ [r.tapeFileRow]).map (·.toCopy) =
      w.catalogue.onTape ++ [r.toCopy] := by
    rw [List.map_append, htapeFiles]
    rfl
  refine ⟨⟨⟨hconsistent.archiveFileIds, hconsistent.diskFiles, ?_, ?_, fun t ht => ?_⟩,
    ⟨?_, hw.kept.2.1, ?_⟩, fun y hy => ?_⟩, honTape⟩
  · simpa [Tables.deleteTapeFileCopyFromRecycleBin] using hplaces
  · simpa [Tables.deleteTapeFileCopyFromRecycleBin] using hblocks
  · cases List.mem_append.mp ht with
    | inl ht => exact hconsistent.archived t ht
    | inr ht =>
      rw [List.mem_singleton.mp ht]
      obtain ⟨a, ha⟩ := Option.ne_none_iff_exists'.mp
        (hlinked r.tapeFileRow (List.mem_singleton_self _)).2.1
      exact ⟨a, Tables.archiveFile?_some ha⟩
  · refine List.Perm.trans ?_ hw.kept.1
    have hentry := ((hw.perm_cons_entry hr).map (·.toCopy)).trans (List.Perm.of_eq List.map_cons)
    rw [List.perm_iff_count]
    intro y
    have hcount := hentry.count_eq y
    have hlog' : (Tables.deleteTapeFileCopyFromRecycleBin { u with
        tapeFiles := u.tapeFiles ++ [r.tapeFileRow] } r).recycled =
        (w.catalogue.deleteTapeFileCopyFromRecycleBin r).recycled := by
      simp only [Tables.recycled, Tables.deleteTapeFileCopyFromRecycleBin, hlog]
    have htape' : (Tables.deleteTapeFileCopyFromRecycleBin { u with
        tapeFiles := u.tapeFiles ++ [r.tapeFileRow] } r).onTape =
        w.catalogue.onTape ++ [r.toCopy] := honTape
    simp only [Tables.copies, hlog', htape', List.count_append, List.count_cons,
      List.count_nil] at hcount ⊢
    simp only [Tables.recycled]
    omega
  · change ((u.tapeFiles ++ [r.tapeFileRow]).map fun t => (t.archiveFileId, t.copyNb)).Nodup
    rw [List.map_append, htapeFiles]
    refine hw.kept.2.2.append (List.nodup_singleton _) ?_
    rw [List.map_singleton, List.disjoint_singleton]
    intro hmem
    obtain ⟨t, ht, hkey⟩ := List.mem_map.mp hmem
    obtain ⟨hid, hcopy⟩ := Prod.mk.inj hkey
    exact hcopyNb t (Tables.mem_tapeFilesOf.mpr ⟨ht, hid⟩) hcopy
  · obtain ⟨tape, hfound, hle⟩ := hw.behind y hy
    refine ⟨tape, ?_, hle⟩
    change u.tapes.find? (·.vid == y.vid) = some tape
    rw [htapes]
    exact hfound

/-- A restoration that is not interrupted has failed without a trace, or has restored the only
entry that matches. -/
theorem restoreEntryInRecycleLog_cases {fails : Option RestoreFailure}
    (searchCriteria : FileRecycleLogRow → Bool) (newFid : String)
    (h : fails ≠ some .afterInsertion) :
    (∃ e, restoreEntryInRecycleLog fails searchCriteria newFid c = .error e c) ∨
      ∃ r u v, c.fileRecycleLog.filter searchCriteria = [r] ∧
        restoreArchiveFileIfNeeded r newFid c = .ok ⟨⟩ u ∧
        insertTapeFiles [r.tapeFileRow] u = .ok ⟨⟩ v ∧
        restoreEntryInRecycleLog fails searchCriteria newFid c =
          .ok ⟨⟩ (v.deleteTapeFileCopyFromRecycleBin r) := by
  unfold restoreEntryInRecycleLog
  rw [bind_ok (get_run c)]
  cases hentry : theEntry (c.fileRecycleLog.filter searchCriteria) with
  | error e => exact .inl ⟨e, bind_error (ofResult_error rfl) _⟩
  | ok r =>
    rw [bind_ok (ofResult_eq_ok.mpr ⟨rfl, rfl⟩)]
    have hone : c.fileRecycleLog.filter searchCriteria = [r] := by
      unfold theEntry at hentry
      split at hentry
      · cases hentry
      · next s hs =>
        cases hentry
        exact hs
      · cases hentry
    unfold restoreFileCopy
    cases hfirst : inTransaction (fails == some .beforeInsertion) (do
        restoreArchiveFileIfNeeded r newFid
        insertTapeFiles [r.tapeFileRow]) c with
    | error e d =>
      refine .inl ⟨e, ?_⟩
      rw [bind_error hfirst, inTransaction_error hfirst]
    | ok a v =>
      obtain ⟨⟨⟩, u, hfile, hins⟩ := bind_eq_ok.mp (inTransaction_ok hfirst)
      refine .inr ⟨r, u, v, hone, hfile, hins, ?_⟩
      rw [bind_ok hfirst]
      have hno : (fails == some .afterInsertion) = false := by simpa using h
      rw [hno]
      rfl

theorem Sound.restoreEntryInRecycleLog (hw : Sound w) {fails : Option RestoreFailure}
    (searchCriteria : FileRecycleLogRow → Bool) (newFid : String)
    (h : fails ≠ some .afterInsertion) :
    Sound (w.next (.restoreEntryInRecycleLog fails searchCriteria newFid)) := by
  cases restoreEntryInRecycleLog_cases (c := w.catalogue) searchCriteria newFid h with
  | inl herror =>
    obtain ⟨e, he⟩ := herror
    have hrun : (Call.restoreEntryInRecycleLog fails searchCriteria newFid).run w.catalogue =
        .error e w.catalogue := he
    rw [World.next_error hrun]
    exact hw
  | inr hok =>
    obtain ⟨r, u, v, hone, hfile, hins, hok⟩ := hok
    have hr : r ∈ w.catalogue.fileRecycleLog :=
      List.mem_of_mem_filter (hone ▸ List.mem_singleton_self r)
    have hrun : (Call.restoreEntryInRecycleLog fails searchCriteria newFid).run w.catalogue =
        .ok ⟨⟩ (v.deleteTapeFileCopyFromRecycleBin r) := hok
    rw [World.next_ok hrun]
    simpa [Call.records] using (hw.entryRestored hr hfile hins).1

theorem Sound.next (hw : Sound w) {call : Call} (h : Undisturbed w call) : Sound (w.next call) := by
  cases call with
  | filesWrittenToTape fails events => exact hw.filesWrittenToTape fails events
  | moveArchiveFileToRecycleLog fails request =>
    exact hw.moveArchiveFileToRecycleLog fails request h
  | deleteTapeFileCopy fails file reason => exact hw.deleteTapeFileCopy fails file reason h
  | restoreEntryInRecycleLog fails searchCriteria newFid =>
    exact hw.restoreEntryInRecycleLog searchCriteria newFid h

def Returns (w : World) (call : Call) : Prop := ∃ d, call.run w.catalogue = .ok ⟨⟩ d

/-- Restores the copy, with this disk file identifier if its archive file is restored too. -/
def restoration (y : Copy × String) : Call :=
  .restoreEntryInRecycleLog none (fun r => r.place == y.1.place) y.2

def restorations (ys : List (Copy × String)) : List Call := ys.map restoration

theorem Sound.restored (hw : Sound w) {y : Copy × String} (hy : y.1 ∈ w.recorded)
    (h : Returns w (restoration y)) : Sound (w.next (restoration y)) ∧
      (w.next (restoration y)).recorded = w.recorded ∧
      (w.next (restoration y)).catalogue.onTape = w.catalogue.onTape ++ [y.1] := by
  have hno : (none : Option RestoreFailure) ≠ some .afterInsertion := nofun
  refine ⟨hw.restoreEntryInRecycleLog _ _ hno, ?_⟩
  obtain ⟨d, hd⟩ := h
  cases restoreEntryInRecycleLog_cases (c := w.catalogue) (fun r => r.place == y.1.place) y.2
      hno with
  | inl herror =>
    obtain ⟨e, he⟩ := herror
    cases hd.symm.trans he
  | inr hok =>
    obtain ⟨r, u, v, hone, hfile, hins, hok⟩ := hok
    have hmem : r ∈ w.catalogue.fileRecycleLog.filter (fun r => r.place == y.1.place) :=
      hone ▸ List.mem_singleton_self r
    obtain ⟨hr, hplace⟩ := List.mem_filter.mp hmem
    have hcopy : r.toCopy ∈ w.recorded :=
      hw.kept.1.mem_iff.mp (List.mem_append_right _ (List.mem_map_of_mem hr))
    have hplace : r.place = y.1.place := by simpa using hplace
    have heq : r.toCopy = y.1 := List.inj_on_of_nodup_map hw.kept.2.1 hcopy hy hplace
    have hrun : (restoration y).run w.catalogue =
        .ok ⟨⟩ (v.deleteTapeFileCopyFromRecycleBin r) := hok
    rw [World.next_ok hrun]
    exact ⟨List.append_nil _, heq ▸ (hw.entryRestored hr hfile hins).2⟩

theorem Sound.onTape_restorations {ys : List (Copy × String)} (hw : Sound w)
    (hys : ∀ y ∈ ys, y.1 ∈ w.recorded) (h : AllSteps World.next Returns w (restorations ys)) :
    ((restorations ys).foldl World.next w).catalogue.onTape =
      w.catalogue.onTape ++ ys.map (·.1) := by
  induction ys generalizing w with
  | nil => simp [restorations]
  | cons y ys ih =>
    obtain ⟨hsound, hrecorded, honTape⟩ := hw.restored (hys y List.mem_cons_self) h.1
    have hnext := ih hsound (fun z hz => by
      rw [hrecorded]
      exact hys z (List.mem_cons_of_mem y hz)) h.2
    rw [restorations, List.map_cons, List.foldl_cons]
    rw [restorations] at hnext
    rw [hnext, honTape, List.map_cons, List.append_assoc]
    rfl

/-- As long as nothing changes between the moment a file is read and its deletion, and no
restoration is cut in two, every copy is kept; and restoring what a call has taken off the tape
files brings the same tape files back. -/
theorem copies_kept {calls : List Call} (hw : Sound w)
    (h : AllSteps World.next Undisturbed w calls) :
    AllStates World.next Kept w calls ∧
      ∀ earlier deletion ys, calls = earlier ++ deletion :: restorations ys →
        (earlier.foldl World.next w).catalogue.onTape.Perm (ys.map (·.1) ++
          ((earlier.foldl World.next w).next deletion).catalogue.onTape) →
        AllSteps World.next Returns ((earlier.foldl World.next w).next deletion)
          (restorations ys) →
        (calls.foldl World.next w).catalogue.onTape.Perm
          (earlier.foldl World.next w).catalogue.onTape := by
  refine ⟨h.allStates (fun w call hw hcall => hw.next hcall) (fun _ hw => hw.kept) hw, ?_⟩
  rintro earlier deletion ys rfl hperm hreturns
  rw [List.foldl_append, List.foldl_cons]
  obtain ⟨hbefore, hafter⟩ := allSteps_append.mp h
  have hsound := (hbefore.allStates (I := Sound) (fun w call hw hcall => hw.next hcall)
    (fun _ hw => hw) hw).last
  generalize earlier.foldl World.next w = v at hperm hreturns hafter hsound ⊢
  have hys : ∀ y ∈ ys, y.1 ∈ (v.next deletion).recorded := by
    intro y hy
    have hmem : y.1 ∈ v.recorded := hsound.kept.1.mem_iff.mp (List.mem_append_left _
      (hperm.mem_iff.mpr (List.mem_append_left _ (List.mem_map_of_mem hy))))
    unfold World.next
    split
    · exact List.mem_append_left _ hmem
    · exact hmem
  rw [(hsound.next hafter.1).onTape_restorations hys hreturns]
  exact List.perm_append_comm.trans hperm.symm

end

def oneFileWorld : World := ⟨oneFileCatalogue, oneFileCatalogue.copies⟩

theorem oneFileWorld_sound : Sound oneFileWorld where
  consistent := oneFileCatalogue_consistent
  kept := by decide
  behind := by
    intro y hy
    have heq : y = ⟨"V2", 1, 0, 2, 2⟩ := List.mem_singleton.mp hy
    subst heq
    exact ⟨{ blankTape with vid := "V2", lastFSeq := 1 }, rfl, by decide⟩

def deleteFile2 : DeleteArchiveRequest :=
  { archiveFileID := 2, requester := "user", diskInstance := "eos", diskFilePath := "/f2"
    archiveFile := oneFileCatalogue.getArchiveFileById 2 }

theorem copy_lost_after_stale_read : ¬AllStates World.next Kept oneFileWorld
    [.filesWrittenToTape false [.file { secondCopy 5 with fSeq := 1 }],
      .moveArchiveFileToRecycleLog false deleteFile2] := by
  intro h
  have hlost : ¬Kept ([Call.filesWrittenToTape false [.file { secondCopy 5 with fSeq := 1 }],
      .moveArchiveFileToRecycleLog false deleteFile2].foldl World.next oneFileWorld) := by
    decide +kernel
  exact hlost h.last

def recordSecondCopy : Call := .filesWrittenToTape false [.file { secondCopy 5 with fSeq := 1 }]

def twoCopyWorld : World := oneFileWorld.next recordSecondCopy

def deleteBothCopies : Call :=
  .moveArchiveFileToRecycleLog false
    { deleteFile2 with archiveFile := twoCopyWorld.catalogue.getArchiveFileById 2 }

def bothCopies : List (Copy × String) := [(⟨"V1", 1, 10, 1, 2⟩, "f3"), (⟨"V2", 1, 0, 2, 2⟩, "f3")]

theorem returns_of_run {call : Call} {w : World}
    (h : (match call.run w.catalogue with
      | .ok _ _ => true
      | .error _ _ => false) = true) : Returns w call := by
  unfold Returns
  split at h
  · exact ⟨_, by assumption⟩
  · cases h

/-- A file with two copies is deleted, and restored with another disk file identifier. -/
theorem copies_kept_two_copies :
    ((recordSecondCopy :: deleteBothCopies :: restorations bothCopies).foldl World.next
      oneFileWorld).catalogue.onTape.Perm twoCopyWorld.catalogue.onTape := by
  have hread : ∀ file ∈ twoCopyWorld.catalogue.getArchiveFileById 2,
      file.archiveFileID = 2 ∧ file.tapeFiles.Perm (twoCopyWorld.catalogue.tapeFilesOf 2) := by
    decide +kernel
  have hup : AllSteps World.next Undisturbed oneFileWorld
      (recordSecondCopy :: deleteBothCopies :: restorations bothCopies) := by
    refine ⟨trivial, fun file hfile => ?_, nofun, nofun, trivial⟩
    obtain ⟨hid, htapeFiles⟩ := hread file hfile
    exact ⟨hid, .inr htapeFiles⟩
  exact (copies_kept oneFileWorld_sound hup).2 [recordSecondCopy] _ bothCopies rfl
    (by decide +kernel)
    ⟨returns_of_run (by decide +kernel), returns_of_run (by decide +kernel), trivial⟩

end Cta.Catalogue

import Mathlib.Data.List.Nodup
import Cta.Catalogue.FilesWrittenToTape

/-! Which batches of files can be recorded, and the catalogue afterwards. -/
namespace Cta.Catalogue
open Cta.Lib.Transactions

/-- The events continue the files of a tape: its fSeqs without a gap, with all fields set. -/
structure Follows (c : Tables) (events : List Event) (tape : TapeRow) : Prop where
  found : ∀ e ∈ events, c.tape? e.vid = some tape
  fieldsSet : ∀ e ∈ events, ∀ field ∈ e.toItem.unset, field.1 = false
  fSeqs : events.map (·.fSeq) = List.range' (tape.lastFSeq + 1) events.length

namespace Tables

/-- The files of a batch whose archive file is not there yet. -/
def newFiles (c : Tables) (files : List TapeFileWritten) : List TapeFileWritten :=
  files.filter fun f => (c.archiveFile? f.archiveFileId).isNone

def archived (c : Tables) (f : TapeFileWritten) : ArchiveFileRow :=
  (c.archiveFile? f.archiveFileId).getD f.archiveFileRow

def replaced (c : Tables) (f : TapeFileWritten) : List FileRecycleLogRow :=
  (c.oldCopies f.tapeFileRow).map (·.recycled none getRepackReasonLog (c.archived f))

def recordFiles (c : Tables) (files : List TapeFileWritten) : Tables :=
  { c with
    archiveFiles := c.archiveFiles ++ (c.newFiles files).map (·.archiveFileRow)
    tapeFiles := (c.tapeFiles ++ files.map (·.tapeFileRow)).filter fun t =>
      t.place ∉ (files.flatMap (c.oldCopies ·.tapeFileRow)).map (·.place)
    fileRecycleLog := c.fileRecycleLog ++ files.flatMap c.replaced }

end Tables

/-- A batch of files that can be recorded: every field is set, no archive file comes twice, the
archive file agrees with what is recorded or can be created, and the places on tape are free. -/
structure FilesOk (c : Tables) (files : List TapeFileWritten) : Prop where
  fieldsSet : ∀ f ∈ files, ∀ field ∈ f.unset, field.1 = false
  distinct : (files.map (·.archiveFileId)).Nodup
  storageClass : ∀ f ∈ files, c.archiveFile? f.archiveFileId = none →
    f.storageClassName ∈ c.storageClasses
  sameAsRecorded : ∀ f ∈ files, ∀ r, c.archiveFile? f.archiveFileId = some r →
    r.size = f.size ∧ r.checksumBlob = f.checksumBlob
  diskInstance : ∀ f ∈ files, c.archiveFile? f.archiveFileId = none →
    f.diskInstance ∈ c.diskInstances
  diskFiles : (c.archiveFiles.map (·.diskFile) ++
    (c.newFiles files).map (·.archiveFileRow.diskFile)).Nodup
  places : (c.tapeFiles.map (·.place) ++ files.map (·.tapeFileRow.place)).Nodup
  blocks : (c.tapeFiles.map (·.block) ++ files.map (·.tapeFileRow.block)).Nodup

section
variable {c : Tables} {f g : TapeFileWritten} {fs files : List TapeFileWritten}

theorem ne_of_distinct (h : ((f :: fs).map (·.archiveFileId)).Nodup) (hg : g ∈ fs) :
    g.archiveFileId ≠ f.archiveFileId := by
  intro heq
  rw [List.map_cons, List.nodup_cons] at h
  exact h.1 (heq ▸ List.mem_map_of_mem hg)

theorem Tables.archiveFile?_newFiles (hd : (files.map (·.archiveFileId)).Nodup)
    (hf : f ∈ files) (t : List TapeFileRow) (r : List FileRecycleLogRow) :
    Tables.archiveFile? { c with
      archiveFiles := c.archiveFiles ++ (c.newFiles files).map (·.archiveFileRow)
      tapeFiles := t
      fileRecycleLog := r } f.archiveFileId = some (c.archived f) := by
  unfold Tables.archiveFile? Tables.archived
  rw [List.find?_append]
  change Option.or (c.archiveFile? f.archiveFileId) _ = _
  cases hold : c.archiveFile? f.archiveFileId with
  | some a => simp
  | none =>
    rw [Option.none_or, Option.getD_none]
    have hmem : f ∈ c.newFiles files := by simp [Tables.newFiles, hf, hold]
    have hnew : ((c.newFiles files).map (·.archiveFileId)).Nodup :=
      hd.sublist (List.filter_sublist.map _)
    generalize c.newFiles files = new at hmem hnew
    induction new with
    | nil => cases hmem
    | cons g gs ih =>
      cases hmem with
      | head => simp [TapeFileWritten.archiveFileRow]
      | tail _ hmem =>
        have hne := ne_of_distinct hnew hmem
        rw [List.map_cons, List.find?_cons_of_neg]
        · rw [List.map_cons, List.nodup_cons] at hnew
          exact ih hmem hnew.2
        · simpa [TapeFileWritten.archiveFileRow] using hne.symm

theorem Tables.archiveFile?_recordFiles (hg : g.archiveFileId ≠ f.archiveFileId) :
    (c.recordFiles [f]).archiveFile? g.archiveFileId = c.archiveFile? g.archiveFileId := by
  unfold Tables.archiveFile? Tables.recordFiles
  rw [List.find?_append]
  have hnone : ((c.newFiles [f]).map (·.archiveFileRow)).find?
      (·.archiveFileId == g.archiveFileId) = none := by
    rw [List.find?_eq_none]
    intro r hr
    obtain ⟨f', hf', rfl⟩ := List.mem_map.mp hr
    have heq : f' = f := by simpa using List.mem_of_mem_filter hf'
    subst heq
    simpa [TapeFileWritten.archiveFileRow] using hg.symm
  rw [hnone, Option.or_none]

theorem Tables.oldCopies_recordFiles (hplaces : (c.tapeFiles.map (·.place)).Nodup)
    (hg : g.archiveFileId ≠ f.archiveFileId) :
    (c.recordFiles [f]).oldCopies g.tapeFileRow = c.oldCopies g.tapeFileRow := by
  unfold Tables.oldCopies Tables.recordFiles
  rw [List.filter_filter, List.filter_append, List.map_singleton, List.filter_cons_of_neg,
    List.filter_nil, List.append_nil]
  · refine List.filter_congr fun t ht => ?_
    by_cases hid : t.archiveFileId = g.archiveFileId
    · have hkept : t.place ∉ ([f].flatMap (c.oldCopies ·.tapeFileRow)).map (·.place) := by
        intro hmem
        obtain ⟨u, hu, hplace⟩ := List.mem_map.mp hmem
        have hold := Tables.mem_oldCopies.mp (by simpa using hu)
        have heq : u = t := List.inj_on_of_nodup_map hplaces hold.1 ht hplace
        subst heq
        exact hg (hid.symm.trans hold.2.1)
      rw [decide_eq_true hkept, Bool.and_true]
    · have hne : (t.archiveFileId == g.tapeFileRow.archiveFileId) = false := by
        simpa [TapeFileWritten.tapeFileRow] using hid
      rw [hne]
      rfl
  · simp [TapeFileWritten.tapeFileRow, hg.symm]

theorem Tables.newFiles_recordFiles (hd : ((f :: fs).map (·.archiveFileId)).Nodup) :
    (c.recordFiles [f]).newFiles fs = c.newFiles fs :=
  List.filter_congr fun g hg => by
    rw [Tables.archiveFile?_recordFiles (ne_of_distinct hd hg)]

theorem Tables.newFiles_cons :
    c.newFiles (f :: fs) = c.newFiles [f] ++ c.newFiles fs :=
  List.filter_append [f] fs

theorem FilesOk.sublist (h : FilesOk c files) (hs : fs.Sublist files) : FilesOk c fs where
  fieldsSet g hg := h.fieldsSet g (hs.subset hg)
  distinct := h.distinct.sublist (hs.map _)
  storageClass g hg := h.storageClass g (hs.subset hg)
  sameAsRecorded g hg := h.sameAsRecorded g (hs.subset hg)
  diskInstance g hg := h.diskInstance g (hs.subset hg)
  diskFiles := h.diskFiles.sublist ((List.Sublist.refl _).append ((hs.filter _).map _))
  places := h.places.sublist ((List.Sublist.refl _).append (hs.map _))
  blocks := h.blocks.sublist ((List.Sublist.refl _).append (hs.map _))

theorem FilesOk.tail (h : FilesOk c (f :: fs)) : FilesOk (c.recordFiles [f]) fs where
  fieldsSet g hg := h.fieldsSet g (List.mem_cons_of_mem f hg)
  distinct := (List.nodup_cons.mp h.distinct).2
  storageClass g hg hr := by
    rw [Tables.archiveFile?_recordFiles (ne_of_distinct h.distinct hg)] at hr
    exact h.storageClass g (List.mem_cons_of_mem f hg) hr
  sameAsRecorded g hg r hr := by
    rw [Tables.archiveFile?_recordFiles (ne_of_distinct h.distinct hg)] at hr
    exact h.sameAsRecorded g (List.mem_cons_of_mem f hg) r hr
  diskInstance g hg hr := by
    rw [Tables.archiveFile?_recordFiles (ne_of_distinct h.distinct hg)] at hr
    exact h.diskInstance g (List.mem_cons_of_mem f hg) hr
  diskFiles := by
    rw [Tables.newFiles_recordFiles h.distinct]
    have hall := h.diskFiles
    rw [Tables.newFiles_cons, List.map_append, ← List.append_assoc] at hall
    simpa [Tables.recordFiles, Function.comp_def] using hall
  places := by
    have hall := h.places
    rw [List.map_cons, List.append_cons] at hall
    refine hall.sublist (List.Sublist.append ?_ (List.Sublist.refl _))
    exact (List.filter_sublist.map _).trans (by simp)
  blocks := by
    have hall := h.blocks
    rw [List.map_cons, List.append_cons] at hall
    refine hall.sublist (List.Sublist.append ?_ (List.Sublist.refl _))
    exact (List.filter_sublist.map _).trans (by simp)

theorem FilesOk.nodup_places (h : FilesOk c files) : (c.tapeFiles.map (·.place)).Nodup :=
  h.places.sublist (List.sublist_append_left _ _)

theorem FilesOk.place_notMem (h : FilesOk c files) (hf : f ∈ files) :
    f.tapeFileRow.place ∉ c.tapeFiles.map (·.place) := fun hmem =>
  List.disjoint_of_nodup_append h.places hmem
    (List.mem_map_of_mem (f := fun g : TapeFileWritten => g.tapeFileRow.place) hf)

theorem Tables.place_of_replaced {t : TapeFileRow}
    (h : t ∈ files.flatMap (c.oldCopies ·.tapeFileRow)) :
    t.place ∈ c.tapeFiles.map (·.place) := by
  obtain ⟨f, -, ht⟩ := List.mem_flatMap.mp h
  exact List.mem_map_of_mem (Tables.mem_oldCopies.mp ht).1

theorem FilesOk.kept (h : FilesOk c files) (hs : fs ⊆ files) :
    (fs.map (·.tapeFileRow)).filter (fun t =>
      t.place ∉ (files.flatMap (c.oldCopies ·.tapeFileRow)).map (·.place)) =
      fs.map (·.tapeFileRow) := by
  rw [List.filter_eq_self]
  intro t ht
  obtain ⟨g, hg, rfl⟩ := List.mem_map.mp ht
  refine decide_eq_true fun hmem => h.place_notMem (hs hg) ?_
  obtain ⟨u, hu, hplace⟩ := List.mem_map.mp hmem
  exact hplace ▸ Tables.place_of_replaced hu

theorem FilesOk.recordFiles_cons (h : FilesOk c (f :: fs)) :
    (c.recordFiles [f]).recordFiles fs = c.recordFiles (f :: fs) := by
  have hcopies : fs.flatMap ((c.recordFiles [f]).oldCopies ·.tapeFileRow) =
      fs.flatMap (c.oldCopies ·.tapeFileRow) :=
    List.flatMap_congr fun g hg =>
      Tables.oldCopies_recordFiles h.nodup_places (ne_of_distinct h.distinct hg)
  have hreplaced : fs.flatMap (c.recordFiles [f]).replaced = fs.flatMap c.replaced :=
    List.flatMap_congr fun g hg => by
      have hne := ne_of_distinct h.distinct hg
      simp only [Tables.replaced, Tables.archived,
        Tables.oldCopies_recordFiles h.nodup_places hne, Tables.archiveFile?_recordFiles hne]
  have hfiles : (c.recordFiles [f]).archiveFiles ++
      ((c.recordFiles [f]).newFiles fs).map (·.archiveFileRow) =
      c.archiveFiles ++ (c.newFiles (f :: fs)).map (·.archiveFileRow) := by
    rw [Tables.newFiles_recordFiles h.distinct, Tables.newFiles_cons, List.map_append,
      ← List.append_assoc]
    rfl
  have htapeFiles : ((c.recordFiles [f]).tapeFiles ++ fs.map (·.tapeFileRow)).filter (fun t =>
      t.place ∉ (fs.flatMap (c.oldCopies ·.tapeFileRow)).map (·.place)) =
      (c.tapeFiles ++ (f :: fs).map (·.tapeFileRow)).filter (fun t =>
        t.place ∉ ((f :: fs).flatMap (c.oldCopies ·.tapeFileRow)).map (·.place)) := by
    have hlater := h.kept (List.subset_cons_self f fs)
    have hnow := (h.sublist (List.sublist_cons_self f fs)).kept (List.Subset.refl fs)
    rw [List.map_cons, List.append_cons, List.filter_append, List.filter_append, hlater, hnow]
    congr 1
    simp only [Tables.recordFiles, List.filter_filter]
    refine List.filter_congr fun t _ => ?_
    simp only [List.flatMap_cons, List.flatMap_nil, List.append_nil, List.map_append,
      List.mem_append, not_or, Bool.decide_and]
    exact Bool.and_comm _ _
  have hlog : (c.recordFiles [f]).fileRecycleLog ++ fs.flatMap c.replaced =
      c.fileRecycleLog ++ (f :: fs).flatMap c.replaced := by
    simp [Tables.recordFiles]
  calc (c.recordFiles [f]).recordFiles fs
      = { c with
          archiveFiles := (c.recordFiles [f]).archiveFiles ++
            ((c.recordFiles [f]).newFiles fs).map (·.archiveFileRow)
          tapeFiles := ((c.recordFiles [f]).tapeFiles ++ fs.map (·.tapeFileRow)).filter fun t =>
            t.place ∉ (fs.flatMap (c.oldCopies ·.tapeFileRow)).map (·.place)
          fileRecycleLog := (c.recordFiles [f]).fileRecycleLog ++ fs.flatMap c.replaced } := by
        rw [← hcopies, ← hreplaced]
        rfl
    _ = c.recordFiles (f :: fs) := by
        rw [hfiles, htapeFiles, hlog]
        rfl

end

end Cta.Catalogue

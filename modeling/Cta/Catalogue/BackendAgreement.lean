import Cta.Catalogue.BulkRecording

/-! Recording the items of a tape is all or nothing, and the same on every backend, if and only if
the batch is refused from the start or can be recorded. -/
namespace Cta.Catalogue
open Cta.Lib.Transactions Cta.Lib.Triples
variable {c d : Tables} {events : List Event}

theorem checkEvent_eq_ok {vid : String} {actual : Event → Nat}
    {checkFile : TapeFileWritten → Except Error Unit} {n : Nat} {e : Event} :
    checkEvent vid actual checkFile n e = .ok ⟨⟩ ↔
      (∀ field ∈ e.toItem.unset, field.1 = false) ∧ e.vid = vid ∧ e.fSeq = n ∧
        ∀ f, e.file? = some f → checkFile f = .ok ⟨⟩ := by
  have hset : checkTapeItemWrittenFieldsAreSet "filesWrittenToTape" e.toItem = .ok ⟨⟩ ↔
      ∀ field ∈ e.toItem.unset, field.1 = false := checkFieldsAreSet_eq_ok
  unfold checkEvent
  rw [← hset]
  cases hcheck : checkTapeItemWrittenFieldsAreSet "filesWrittenToTape" e.toItem with
  | error x => simp [bind, Except.bind]
  | ok a =>
    by_cases hvid : e.vid = vid
    · by_cases hseq : e.fSeq = n
      · cases e with
        | item i => simp [bind, Except.bind, pure, Except.pure, hvid, hseq, Event.file?]
        | file f => simp [bind, Except.bind, hvid, hseq, Event.file?]
      · simp [bind, Except.bind, throw, throwThe, MonadExceptOf.throw, hvid, hseq,
          Ne.symm hseq]
    · simp [bind, Except.bind, throw, throwThe, MonadExceptOf.throw, hvid]

theorem checkEvents_eq_ok {vid : String} {actual : Event → Nat}
    {checkFile : TapeFileWritten → Except Error Unit} {n : Nat} :
    checkEvents vid actual checkFile n events = .ok ⟨⟩ ↔
      (∀ e ∈ events, (∀ field ∈ e.toItem.unset, field.1 = false) ∧ e.vid = vid ∧
        ∀ f, e.file? = some f → checkFile f = .ok ⟨⟩) ∧
      events.map (·.fSeq) = List.range' n events.length := by
  induction events generalizing n with
  | nil => simp [checkEvents, pure, Except.pure]
  | cons e es ih =>
    have hbind : checkEvents vid actual checkFile n (e :: es) = .ok ⟨⟩ ↔
        checkEvent vid actual checkFile n e = .ok ⟨⟩ ∧
        checkEvents vid actual checkFile (n + 1) es = .ok ⟨⟩ := by
      rw [checkEvents]
      cases checkEvent vid actual checkFile n e with
      | error x => simp [bind, Except.bind]
      | ok a => simp [bind, Except.bind]
    rw [hbind, checkEvent_eq_ok, ih, List.forall_mem_cons, List.map_cons, List.length_cons,
      List.range'_succ, List.cons.injEq]
    constructor
    · rintro ⟨⟨hset, hvid, hseq, hfile⟩, hall, hseqs⟩
      exact ⟨⟨⟨hset, hvid, hfile⟩, hall⟩, hseq, hseqs⟩
    · rintro ⟨⟨⟨hset, hvid, hfile⟩, hall⟩, hseq, hseqs⟩
      exact ⟨⟨hset, hvid, hseq, hfile⟩, hall, hseqs⟩

section
variable {first : Event} {rest : List Event} {tape : TapeRow}

theorem checkEvents_iff_follows (actual : Event → Nat)
    (checkFile : TapeFileWritten → Except Error Unit) (htape : c.tape? first.vid = some tape) :
    checkEvents first.vid actual checkFile (tape.lastFSeq + 1) (first :: rest) = .ok ⟨⟩ ↔
      Follows c (first :: rest) tape ∧
      ∀ f ∈ fileEvents (first :: rest), checkFile f = .ok ⟨⟩ := by
  rw [checkEvents_eq_ok]
  constructor
  · rintro ⟨hall, hseqs⟩
    refine ⟨⟨fun e he => (hall e he).2.1 ▸ htape, fun e he => (hall e he).1, hseqs⟩,
      fun f hf => ?_⟩
    obtain ⟨e, he, hef⟩ := List.mem_filterMap.mp hf
    exact (hall e he).2.2 f hef
  · rintro ⟨hfollows, hfiles⟩
    refine ⟨fun e he => ⟨hfollows.fieldsSet e he, ?_, fun f hf =>
      hfiles f (List.mem_filterMap.mpr ⟨e, he, hf⟩)⟩, hfollows.fSeqs⟩
    rw [← (Tables.tape?_some (hfollows.found e he)).2, (Tables.tape?_some htape).2]

theorem Follows.found_first (h : Follows c (first :: rest) tape) : c.tape? first.vid = some tape :=
  h.found first List.mem_cons_self

theorem Follows.checkFirst (h : Follows c (first :: rest) tape) :
    checkTapeItemWrittenFieldsAreSet "filesWrittenToTape" first.toItem = .ok ⟨⟩ :=
  checkFieldsAreSet_eq_ok.mpr (h.fieldsSet first List.mem_cons_self)

def Tables.afterEvents (c : Tables) (first : Event) (rest : List Event) : Tables :=
  let last := ((first :: rest).getLast (List.cons_ne_nil first rest)).toItem
  c.updateTape last.vid last.fSeq ((fileEvents (first :: rest)).map (·.size)).sum
    (fileEvents (first :: rest)).length last.tapeDrive

theorem updateTapeAfter_run :
    updateTapeAfter first rest c = .ok ⟨⟩ (c.afterEvents first rest) := rfl

theorem Tables.Consistent.afterEvents (h : c.Consistent) :
    (c.afterEvents first rest).Consistent := ⟨h.1, h.2, h.3, h.4, h.5⟩

theorem filesOk_afterEvents {files : List TapeFileWritten} :
    FilesOk (c.afterEvents first rest) files ↔ FilesOk c files :=
  ⟨fun h => ⟨h.1, h.2, h.3, h.4, h.5, h.6, h.7, h.8⟩,
    fun h => ⟨h.1, h.2, h.3, h.4, h.5, h.6, h.7, h.8⟩⟩

theorem Follows.lastFSeq (h : Follows c (first :: rest) tape) :
    ((first :: rest).getLast (List.cons_ne_nil first rest)).fSeq =
      tape.lastFSeq + (first :: rest).length := by
  have hlast : ((first :: rest).map (·.fSeq)).getLast? =
      (List.range' (tape.lastFSeq + 1) (first :: rest).length).getLast? := by rw [h.fSeqs]
  rw [List.getLast?_map, List.getLast?_eq_some_getLast (List.cons_ne_nil first rest),
    List.getLast?_range', List.length_cons, if_neg (Nat.succ_ne_zero _), Option.map_some,
    Option.some.injEq] at hlast
  rw [hlast, List.length_cons]
  omega

theorem Follows.tape_after (h : Follows c (first :: rest) tape) {e : Event}
    (he : e ∈ first :: rest) :
    ∃ tape', (c.afterEvents first rest).tape? e.vid = some tape' ∧
      tape'.lastFSeq = tape.lastFSeq + (first :: rest).length := by
  have hvid : e.vid = ((first :: rest).getLast (List.cons_ne_nil first rest)).vid := by
    rw [← (Tables.tape?_some (h.found e he)).2]
    exact (Tables.tape?_some (h.found _ (List.getLast_mem _))).2
  rw [hvid]
  exact ⟨_, Tables.tape?_updateTape (h.found _ (List.getLast_mem _)), h.lastFSeq⟩

theorem Follows.tapes_ne (h : Follows c (first :: rest) tape) :
    (c.afterEvents first rest).tapes ≠ c.tapes := by
  intro heq
  obtain ⟨tape', hfound, hseq⟩ := h.tape_after List.mem_cons_self
  have hold := h.found_first
  rw [Tables.tape?, ← heq] at hold
  have hsame : tape' = tape := Option.some.inj (hfound.symm.trans hold)
  rw [hsame, List.length_cons] at hseq
  omega

theorem Follows.tape?_file (h : Follows c (first :: rest) tape) {f : TapeFileWritten}
    (hf : f ∈ fileEvents (first :: rest)) : (c.afterEvents first rest).tape? f.vid ≠ none := by
  obtain ⟨e, he, hef⟩ := List.mem_filterMap.mp hf
  obtain ⟨tape', hfound, -⟩ := h.tape_after he
  have hvid : e.vid = f.vid := by
    cases e with
    | item i => cases hef
    | file g =>
      cases hef
      rfl
  rw [← hvid, hfound]
  exact Option.some_ne_none tape'

section
variable {insert : TapeFileWritten → Program Unit} {atCommit : Program Unit}

theorem bulkFilesWrittenToTape_eq_ok :
    bulkFilesWrittenToTape insert atCommit (first :: rest) c = .ok ⟨⟩ d ↔
      ∃ tape, Follows c (first :: rest) tape ∧
        (∀ f ∈ fileEvents (first :: rest), ∀ field ∈ f.unset, field.1 = false) ∧
        (if (fileEvents (first :: rest)).isEmpty then pure ⟨⟩
          else recordBatch insert atCommit (fileEvents (first :: rest)))
          (c.afterEvents first rest) = .ok ⟨⟩ d := by
  have hset : ∀ f : TapeFileWritten,
      checkTapeFileWrittenFieldsAreSet "filesWrittenToTape" f = .ok ⟨⟩ ↔
        ∀ field ∈ f.unset, field.1 = false := fun f => checkFieldsAreSet_eq_ok
  rw [bulkFilesWrittenToTape, bind_eq_ok]
  constructor
  · rintro ⟨⟨⟩, u, hfirst, hrun⟩
    obtain ⟨-, rfl⟩ := ofResult_eq_ok.mp hfirst
    obtain ⟨n, v, hselect, hchecks⟩ := bind_eq_ok.mp (transaction_eq_ok.mp hrun)
    obtain ⟨tape, htape, rfl, rfl⟩ := selectLastFSeq_eq_ok.mp hselect
    obtain ⟨⟨⟩, w, hevents, hupdate⟩ := bind_eq_ok.mp hchecks
    obtain ⟨hok, rfl⟩ := ofResult_eq_ok.mp hevents
    obtain ⟨hfollows, hfiles⟩ := (checkEvents_iff_follows _ _ htape).mp hok
    rw [bind_ok updateTapeAfter_run] at hupdate
    exact ⟨tape, hfollows, fun f hf => (hset f).mp (hfiles f hf), hupdate⟩
  · rintro ⟨tape, hfollows, hfiles, hrun⟩
    have hok := (checkEvents_iff_follows (·.fSeq)
      (checkTapeFileWrittenFieldsAreSet "filesWrittenToTape") hfollows.found_first).mpr
      ⟨hfollows, fun f hf => (hset f).mpr (hfiles f hf)⟩
    refine ⟨⟨⟩, c, ofResult_eq_ok.mpr ⟨hfollows.checkFirst, rfl⟩, transaction_eq_ok.mpr ?_⟩
    rw [recordEvents, selectTapeForUpdateAndGetLastFSeq,
      bind_ok (selectLastFSeq_eq_ok.mpr ⟨tape, hfollows.found_first, rfl, rfl⟩),
      bind_ok (ofResult_eq_ok.mpr ⟨hok, rfl⟩), bind_ok updateTapeAfter_run]
    exact hrun

theorem bulkFilesWrittenToTape_error {e : Error}
    (h : bulkFilesWrittenToTape insert atCommit events c = .error e d) : d = c := by
  cases events with
  | nil => cases h
  | cons first rest =>
    rw [bulkFilesWrittenToTape] at h
    cases hfirst : checkTapeItemWrittenFieldsAreSet "filesWrittenToTape" first.toItem with
    | error x =>
      rw [bind_error (ofResult_error hfirst)] at h
      cases h
      rfl
    | ok a =>
      rw [bind_ok (ofResult_eq_ok.mpr ⟨hfirst, rfl⟩)] at h
      exact transaction_error h

theorem FilesOk.bulkFilesWrittenToTape_ok (h : FilesOk c (fileEvents (first :: rest)))
    (hf : Follows c (first :: rest) tape)
    (hinsert : ∀ c f, Insertable c f → insert f c = .ok ⟨⟩ (c.addArchiveFiles [f]))
    (hcommit : ∀ c files, FilesOk c files →
      atCommit (c.recordFiles files) = .ok ⟨⟩ (c.recordFiles files)) :
    bulkFilesWrittenToTape insert atCommit (first :: rest) c =
      .ok ⟨⟩ ((c.afterEvents first rest).recordFiles (fileEvents (first :: rest))) := by
  have hok : FilesOk (c.afterEvents first rest) _ := filesOk_afterEvents.mpr h
  rw [bulkFilesWrittenToTape_eq_ok]
  refine ⟨tape, hf, h.fieldsSet, ?_⟩
  by_cases hempty : (fileEvents (first :: rest)).isEmpty = true
  · rw [if_pos hempty, List.isEmpty_iff.mp hempty, Tables.recordFiles_nil]
    rfl
  · rw [if_neg hempty]
    exact hok.recordBatch_ok (fun f hf' => hf.tape?_file hf') hinsert (hcommit _ _ hok)

end

theorem SqliteCatalogue.run_of_follows (h : Follows c (first :: rest) tape) :
    SqliteCatalogue.filesWrittenToTape (first :: rest) c =
      forEach SqliteCatalogue.fileWrittenToTape (fileEvents (first :: rest))
        (c.afterEvents first rest) := by
  have hok := (checkEvents_iff_follows (fun _ => first.fSeq) (fun _ => pure ⟨⟩) h.found_first).mpr
    ⟨h, fun _ _ => rfl⟩
  rw [SqliteCatalogue.filesWrittenToTape, bind_ok (ofResult_eq_ok.mpr ⟨h.checkFirst, rfl⟩),
    getTapeLastFSeq, bind_ok (selectLastFSeq_eq_ok.mpr ⟨tape, h.found_first, rfl, rfl⟩),
    bind_ok (ofResult_eq_ok.mpr ⟨hok, rfl⟩), bind_ok updateTapeAfter_run]

theorem SqliteCatalogue.run_of_not_follows (h : ∀ tape, ¬Follows c (first :: rest) tape) :
    ∃ e, SqliteCatalogue.filesWrittenToTape (first :: rest) c = .error e c := by
  rw [SqliteCatalogue.filesWrittenToTape]
  cases hfirst : checkTapeItemWrittenFieldsAreSet "filesWrittenToTape" first.toItem with
  | error x => exact ⟨x, bind_error (ofResult_error rfl) _⟩
  | ok a =>
    rw [bind_ok (ofResult_eq_ok.mpr ⟨rfl, rfl⟩)]
    cases htape : c.tape? first.vid with
    | none =>
      refine ⟨_, bind_error (s := c) (e := .exception ("No such tape with vid=" ++ first.vid)) ?_ _⟩
      simp [getTapeLastFSeq, selectLastFSeq, exec, htape]
    | some tape =>
      rw [getTapeLastFSeq, bind_ok (selectLastFSeq_eq_ok.mpr ⟨tape, htape, rfl, rfl⟩)]
      cases hall : checkEvents first.vid (fun _ => first.fSeq) (fun _ => pure ⟨⟩)
          (tape.lastFSeq + 1) (first :: rest) with
      | error x => exact ⟨x, bind_error (ofResult_error rfl) _⟩
      | ok a => exact absurd ((checkEvents_iff_follows _ _ htape).mp hall).1 (h tape)

/-- Whether it is recorded or not, a file leaves the tape rows and the storage classes alone. -/
theorem SqliteCatalogue.fileWrittenToTape_keeps (t : List TapeRow) (l : List String)
    (f : TapeFileWritten) : Keeps (fun c => c.tapes = t ∧ c.storageClasses = l)
      (SqliteCatalogue.fileWrittenToTape f) := by
  have hinsert : Keeps (fun c => c.tapes = t ∧ c.storageClasses = l)
      (RdbmsCatalogue.insertArchiveFile f.archiveFileRow) := by
    intro c hc
    unfold RdbmsCatalogue.insertArchiveFile
    by_cases hclass : f.archiveFileRow.storageClassName ∈ c.storageClasses
    · rw [if_pos hclass]
      refine (Keeps.exec fun s a u hs hrun => ?_ : Keeps _ (insertArchiveFileRow false _)) c hc
      obtain ⟨-, rfl⟩ := insertArchiveFileRow_eq_ok.mp (exec_eq_ok.mpr hrun)
      exact hs
    · rw [if_neg hclass]
      exact hc
  have hrow : ∀ r, Keeps (fun c => c.tapes = t ∧ c.storageClasses = l) (insertTapeFileRow r) :=
    fun r => Keeps.exec fun s a u hs hrun => by
      obtain ⟨-, rfl⟩ := insertTapeFileRow_eq_ok.mp (exec_eq_ok.mpr hrun)
      exact hs
  refine Triple.bind Keeps.ofResult fun _ => Triple.bind hinsert.ignoring fun _ =>
    Triple.bind (Triple.get.consequence (fun _ => id) (fun _ _ h => h.2) fun _ _ => id) fun _ =>
      Triple.bind Keeps.ofResult fun _ => Triple.bind (Keeps.exec fun s a u hs hrun => ?_) fun _ =>
        Triple.bind (Keeps.forEach hrow _) fun _ => Triple.modify fun s hs => ?_
  · cases hrun
    rw [Tables.insertOldCopies_eq]
    exact hs
  · rw [Tables.deleteTapeFiles_eq]
    exact hs

theorem SqliteCatalogue.tapes_ne_of_error (h : Follows c (first :: rest) tape) {e : Error}
    (hrun : SqliteCatalogue.filesWrittenToTape (first :: rest) c = .error e d) :
    d.tapes ≠ c.tapes := by
  rw [SqliteCatalogue.run_of_follows h] at hrun
  have hkeeps := (Keeps.forEach (SqliteCatalogue.fileWrittenToTape_keeps
    (c.afterEvents first rest).tapes c.storageClasses) _).of_error ⟨rfl, rfl⟩ hrun
  rw [hkeeps.1]
  exact h.tapes_ne

theorem SqliteCatalogue.storageClass_of_run (h : Follows c (first :: rest) tape)
    (hrun : SqliteCatalogue.filesWrittenToTape (first :: rest) c = .ok ⟨⟩ d) :
    ∀ f ∈ fileEvents (first :: rest), f.storageClassName ∈ c.storageClasses := by
  rw [SqliteCatalogue.run_of_follows h] at hrun
  have hclasses : (c.afterEvents first rest).storageClasses = c.storageClasses := rfl
  generalize c.afterEvents first rest = s at hrun hclasses
  generalize fileEvents (first :: rest) = files at hrun ⊢
  induction files generalizing s with
  | nil => exact fun f hf => absurd hf List.not_mem_nil
  | cons f fs ih =>
    obtain ⟨⟨⟩, u, hfile, hfiles⟩ := bind_eq_ok.mp hrun
    have hkeeps := (SqliteCatalogue.fileWrittenToTape_keeps s.tapes c.storageClasses f).of_ok
      ⟨rfl, hclasses⟩ hfile
    refine List.forall_mem_cons.mpr ⟨?_, ih u hkeeps.2 hfiles⟩
    rw [← hclasses]
    exact SqliteCatalogue.storageClass_of_fileWrittenToTape hfile

/-- The tape ends with the last event, each file is on the tape files, and its old copies have
been moved to the recycle log. -/
structure Recorded (c : Tables) (events : List Event) (d : Tables) : Prop where
  lastFSeq : ∀ e ∈ events, ∃ tape tape', c.tape? e.vid = some tape ∧ d.tape? e.vid = some tape' ∧
    tape'.lastFSeq = tape.lastFSeq + events.length
  files : ∀ f ∈ fileEvents events, f.tapeFileRow ∈ d.tapeFiles
  oldCopies : ∀ f ∈ fileEvents events, ∀ t ∈ c.tapeFiles, t.archiveFileId = f.archiveFileId →
    t.copyNb = f.copyNb → t.place ∉ d.tapeFiles.map (·.place) ∧
      ∃ r ∈ d.fileRecycleLog, r.place = t.place ∧ r.blockId = t.blockId ∧ r.copyNb = t.copyNb

def AllOrNothing (c : Tables) (events : List Event) :
    EStateM.Result Error Tables Unit → Prop
  | .ok _ d => Recorded c events d
  | .error _ d => d.archiveFiles = c.archiveFiles ∧ d.tapeFiles = c.tapeFiles ∧ d.tapes = c.tapes

def SameOutcome : EStateM.Result Error Tables Unit → EStateM.Result Error Tables Unit → Prop
  | .ok _ d, .ok _ d' => d = d'
  | .error _ _, .error _ _ => True
  | _, _ => False

/-- Recording the events is all or nothing on every backend, and the backends agree. -/
def RecordingAgrees (c : Tables) (events : List Event) : Prop :=
  AllOrNothing c events (PostgresCatalogue.filesWrittenToTape events c) ∧
  AllOrNothing c events (OracleCatalogue.filesWrittenToTape events c) ∧
  AllOrNothing c events (SqliteCatalogue.filesWrittenToTape events c) ∧
  SameOutcome (PostgresCatalogue.filesWrittenToTape events c)
    (OracleCatalogue.filesWrittenToTape events c) ∧
  SameOutcome (PostgresCatalogue.filesWrittenToTape events c)
    (SqliteCatalogue.filesWrittenToTape events c)

theorem recorded (hf : Follows c (first :: rest) tape)
    (h : FilesOk c (fileEvents (first :: rest))) : Recorded c (first :: rest)
      ((c.afterEvents first rest).recordFiles (fileEvents (first :: rest))) where
  lastFSeq e he := by
    obtain ⟨tape', hfound, hseq⟩ := hf.tape_after he
    exact ⟨tape, tape', hf.found e he, hfound, hseq⟩
  files f hmem := by
    refine List.mem_filter.mpr ⟨List.mem_append_right _ (List.mem_map_of_mem hmem), ?_⟩
    refine decide_eq_true fun hold => h.place_notMem hmem ?_
    obtain ⟨u, hu, hplace⟩ := List.mem_map.mp hold
    exact hplace ▸ Tables.place_of_replaced hu
  oldCopies f hmem t ht hid hcopy := by
    have hother : t.place ≠ f.tapeFileRow.place := fun heq =>
      h.place_notMem hmem (heq ▸ List.mem_map_of_mem ht)
    have hold : t ∈ c.oldCopies f.tapeFileRow :=
      Tables.mem_oldCopies.mpr ⟨ht, hid, hcopy, hother⟩
    have hreplaced : t ∈ (fileEvents (first :: rest)).flatMap (c.oldCopies ·.tapeFileRow) :=
      List.mem_flatMap.mpr ⟨f, hmem, hold⟩
    refine ⟨fun hkept => ?_, t.recycled none getRepackReasonLog (c.archived f),
      List.mem_append_right _ (List.mem_flatMap.mpr ⟨f, hmem, List.mem_map_of_mem hold⟩),
      rfl, rfl, rfl⟩
    obtain ⟨u, hu, hplace⟩ := List.mem_map.mp hkept
    have hnot := of_decide_eq_true (List.mem_filter.mp hu).2
    exact hnot (hplace ▸ List.mem_map_of_mem hreplaced)

theorem filesOk_nil (hc : c.Consistent) : FilesOk c [] where
  fieldsSet _ hf := absurd hf List.not_mem_nil
  distinct := List.nodup_nil
  storageClass _ hf := absurd hf List.not_mem_nil
  sameAsRecorded _ hf := absurd hf List.not_mem_nil
  diskInstance _ hf := absurd hf List.not_mem_nil
  diskFiles := by simpa [Tables.newFiles] using hc.diskFiles
  places := by simpa using hc.places
  blocks := by simpa using hc.blocks

theorem PostgresCatalogue.filesWrittenToTape_eq_ok (hc : c.Consistent) :
    PostgresCatalogue.filesWrittenToTape (first :: rest) c = .ok ⟨⟩ d ↔
      ∃ tape, Follows c (first :: rest) tape ∧ FilesOk c (fileEvents (first :: rest)) ∧
        d = (c.afterEvents first rest).recordFiles (fileEvents (first :: rest)) := by
  have hok : ∀ tape, Follows c (first :: rest) tape → FilesOk c (fileEvents (first :: rest)) →
      PostgresCatalogue.filesWrittenToTape (first :: rest) c = .ok ⟨⟩
        ((c.afterEvents first rest).recordFiles (fileEvents (first :: rest))) :=
    fun tape hf h => h.bulkFilesWrittenToTape_ok hf PostgresCatalogue.insertArchiveFile_ok
      fun _ _ => PostgresCatalogue.commit_recordFiles
  constructor
  · intro h
    obtain ⟨tape, hf, hset, hbatch⟩ := bulkFilesWrittenToTape_eq_ok.mp h
    have hfiles : FilesOk c (fileEvents (first :: rest)) := by
      by_cases hempty : (fileEvents (first :: rest)).isEmpty = true
      · rw [List.isEmpty_iff.mp hempty]
        exact filesOk_nil hc
      · rw [if_neg hempty] at hbatch
        exact filesOk_afterEvents.mp
          (PostgresCatalogue.filesOk_of_recordBatch hc.afterEvents hset hbatch)
    refine ⟨tape, hf, hfiles, ?_⟩
    rw [hok tape hf hfiles] at h
    cases h
    rfl
  · rintro ⟨tape, hf, hfiles, rfl⟩
    exact hok tape hf hfiles

theorem agrees_of_filesOk (hf : Follows c (first :: rest) tape)
    (h : FilesOk c (fileEvents (first :: rest)))
    (hs : ∀ f ∈ fileEvents (first :: rest), f.storageClassName ∈ c.storageClasses) :
    RecordingAgrees c (first :: rest) := by
  have hpostgres : PostgresCatalogue.filesWrittenToTape (first :: rest) c = .ok ⟨⟩ _ :=
    h.bulkFilesWrittenToTape_ok hf PostgresCatalogue.insertArchiveFile_ok
      fun _ _ => PostgresCatalogue.commit_recordFiles
  have horacle : OracleCatalogue.filesWrittenToTape (first :: rest) c = .ok ⟨⟩ _ :=
    h.bulkFilesWrittenToTape_ok hf (fun _ _ => OracleCatalogue.insertArchiveFile_ok)
      fun _ _ _ => rfl
  have hsqlite := (filesOk_afterEvents.mpr h :
    FilesOk (c.afterEvents first rest) _).filesWrittenToTape_ok hs
    fun f hmem => hf.tape?_file hmem
  rw [← SqliteCatalogue.run_of_follows hf] at hsqlite
  rw [RecordingAgrees, hpostgres, horacle, hsqlite]
  have hrecorded := recorded hf h
  exact ⟨hrecorded, hrecorded, hrecorded, rfl, rfl⟩

/-- Every backend refuses a batch that does not follow the tape, and leaves everything alone. -/
theorem agrees_of_not_follows (h : ∀ tape, ¬Follows c (first :: rest) tape) :
    RecordingAgrees c (first :: rest) := by
  have hbulk : ∀ insert atCommit, ∃ e,
      bulkFilesWrittenToTape insert atCommit (first :: rest) c = .error e c := by
    intro insert atCommit
    cases hrun : bulkFilesWrittenToTape insert atCommit (first :: rest) c with
    | ok a d =>
      obtain ⟨tape, hf, -⟩ := bulkFilesWrittenToTape_eq_ok.mp hrun
      exact absurd hf (h tape)
    | error e d => exact ⟨e, by rw [bulkFilesWrittenToTape_error hrun]⟩
  obtain ⟨e, hpostgres⟩ := hbulk PostgresCatalogue.insertArchiveFile PostgresCatalogue.commit
  obtain ⟨e', horacle⟩ := hbulk OracleCatalogue.insertArchiveFile (pure ⟨⟩)
  obtain ⟨e'', hsqlite⟩ := SqliteCatalogue.run_of_not_follows h
  rw [RecordingAgrees, PostgresCatalogue.filesWrittenToTape, OracleCatalogue.filesWrittenToTape,
    hpostgres, horacle, hsqlite]
  exact ⟨⟨rfl, rfl, rfl⟩, ⟨rfl, rfl, rfl⟩, ⟨rfl, rfl, rfl⟩, trivial, trivial⟩

theorem filesOk_of_agrees (hc : c.Consistent) (hf : Follows c (first :: rest) tape)
    (h : RecordingAgrees c (first :: rest)) : FilesOk c (fileEvents (first :: rest)) ∧
      ∀ f ∈ fileEvents (first :: rest), f.storageClassName ∈ c.storageClasses := by
  obtain ⟨-, -, hsqlite, -, hsame⟩ := h
  cases hrun : SqliteCatalogue.filesWrittenToTape (first :: rest) c with
  | error e d =>
    rw [hrun] at hsqlite
    exact absurd hsqlite.2.2 (SqliteCatalogue.tapes_ne_of_error hf hrun)
  | ok a d =>
    have hclass := SqliteCatalogue.storageClass_of_run hf hrun
    rw [hrun] at hsame
    cases hpostgres : PostgresCatalogue.filesWrittenToTape (first :: rest) c with
    | error e d' =>
      rw [hpostgres] at hsame
      exact hsame.elim
    | ok a d' =>
      exact ⟨(PostgresCatalogue.filesWrittenToTape_eq_ok hc).mp hpostgres |>.choose_spec.2.1, hclass⟩

end

/-- Recording is all or nothing and the same on every backend exactly for the batches that are
refused before the tape row changes and the batches whose files can all be recorded. -/
theorem recordingAgrees_iff (hc : c.Consistent) : RecordingAgrees c events ↔
    events = [] ∨ (∀ tape, ¬Follows c events tape) ∨
      (FilesOk c (fileEvents events) ∧
        ∀ f ∈ fileEvents events, f.storageClassName ∈ c.storageClasses) := by
  cases events with
  | nil =>
    have hnone : Recorded c [] c := ⟨by simp, by simp [fileEvents], by simp [fileEvents]⟩
    exact ⟨fun _ => .inl rfl, fun _ => ⟨hnone, hnone, hnone, rfl, rfl⟩⟩
  | cons first rest =>
    by_cases hf : ∃ tape, Follows c (first :: rest) tape
    · obtain ⟨tape, hf⟩ := hf
      constructor
      · exact fun h => .inr (.inr (filesOk_of_agrees hc hf h))
      · rintro (hnil | hnot | hok)
        · cases hnil
        · exact absurd hf (hnot tape)
        · exact agrees_of_filesOk hf hok.1 hok.2
    · have hnot := not_exists.mp hf
      exact ⟨fun _ => .inr (.inl hnot), fun _ => agrees_of_not_follows hnot⟩

def blankTape : TapeRow :=
  { vid := "V1", lastFSeq := 0, dataInBytes := 0, masterDataInBytes := 0, nbMasterFiles := 0
    lastWriteDrive := none }

def oneFileCatalogue : Tables :=
  { storageClasses := ["sc"]
    diskInstances := ["eos"]
    tapes := [blankTape, { blankTape with vid := "V2", lastFSeq := 1 }]
    archiveFiles := [
      { archiveFileId := 2, diskInstance := "eos", diskFileId := "f2", diskFileOwnerUid := 1
        diskFileGid := 1, size := 5, checksumBlob := [(.ADLER32, [1, 2, 3, 4])]
        storageClassName := "sc" }]
    tapeFiles := [
      { vid := "V2", fSeq := 1, blockId := 0, fileSize := 5, copyNb := 2, archiveFileId := 2 }]
    fileRecycleLog := [] }

def newFile : TapeFileWritten :=
  { vid := "V1", fSeq := 1, tapeDrive := "drive", archiveFileId := 1, diskInstance := "eos"
    diskFileId := "f1", diskFileOwnerUid := 1, diskFileGid := 1, size := 7
    checksumBlob := [(.ADLER32, [5, 6, 7, 8])], storageClassName := "sc", blockId := 0
    copyNb := 1 }

def secondCopy (size : Nat) : TapeFileWritten :=
  { newFile with
    fSeq := 2, archiveFileId := 2, diskFileId := "f2", size := size
    checksumBlob := [(.ADLER32, [1, 2, 3, 4])], blockId := 10 }

theorem oneFileCatalogue_consistent : oneFileCatalogue.Consistent where
  archiveFileIds := by decide
  diskFiles := by decide
  places := by decide
  blocks := by decide
  archived := by decide

theorem sqlite_keeps_first_file :
    ¬RecordingAgrees oneFileCatalogue [.file newFile, .file (secondCopy 6)] := by
  have hfiles : (match SqliteCatalogue.filesWrittenToTape
      [.file newFile, .file (secondCopy 6)] oneFileCatalogue with
    | .ok _ _ => none
    | .error e d => some (e, d.tapeFiles.length)) = some (.fileSizeMismatch
      "File size mismatch: expected=5, actual=6: archiveFileId=2, diskInstanceName=eos, diskFileId=f2",
      2) := by decide +kernel
  intro h
  have hsqlite := h.2.2.1
  cases hrun : SqliteCatalogue.filesWrittenToTape [.file newFile, .file (secondCopy 6)]
      oneFileCatalogue with
  | ok a d =>
    rw [hrun] at hfiles
    cases hfiles
  | error e d =>
    rw [hrun] at hfiles hsqlite
    have htwo : d.tapeFiles.length = 2 := congrArg Prod.snd (Option.some.inj hfiles)
    rw [hsqlite.2.1] at htwo
    cases htwo

/-- With the recorded size the two files are recorded on every backend. -/
theorem recordingAgrees_second_copy :
    RecordingAgrees oneFileCatalogue [.file newFile, .file (secondCopy 5)] :=
  (recordingAgrees_iff oneFileCatalogue_consistent).mpr (.inr (.inr ⟨
    { fieldsSet := by decide
      distinct := by decide
      storageClass := by decide
      sameAsRecorded := by
        intro f hf r hr
        have hmem : f = newFile ∨ f = secondCopy 5 := by simpa [fileEvents, Event.file?] using hf
        cases hmem with
        | inl heq =>
          subst heq
          cases hr
        | inr heq =>
          subst heq
          cases hr
          exact ⟨rfl, rfl⟩
      diskInstance := by decide
      diskFiles := by decide
      places := by decide
      blocks := by decide }, by decide⟩))

end Cta.Catalogue

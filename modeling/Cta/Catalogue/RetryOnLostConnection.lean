import Cta.Catalogue.BackendAgreement

/-! Trying again after the connection to the database is lost, over an operation that is not
idempotent. -/
namespace Cta.Catalogue
open Cta.Lib.Transactions Cta.Lib.Triples

inductive Loss
  | none | beforeCommit | afterCommit
  deriving DecidableEq, Repr

/-- A transaction over a connection that may be lost. An exception of its own comes before the
commit, so that there is no answer to lose. -/
def overConnection (loss : Loss) (x : Program Unit) : Program Unit := fun c =>
  match loss with
  | .none => x c
  | .beforeCommit => .error (.lostDatabaseConnection "") c
  | .afterCommit =>
    match x c with
    | .ok _ d => .error (.lostDatabaseConnection "") d
    | .error e d => .error e d

def PostgresCatalogue.filesWrittenToTapeOver (loss : Loss) : List Event → Program Unit
  | [] => pure ⟨⟩
  | first :: rest => do
    ofResult (checkTapeItemWrittenFieldsAreSet "filesWrittenToTape" first.toItem)
    overConnection loss (transaction (recordEvents insertArchiveFile commit first rest))

theorem PostgresCatalogue.filesWrittenToTapeOver_none {events : List Event} :
    PostgresCatalogue.filesWrittenToTapeOver .none events =
      PostgresCatalogue.filesWrittenToTape events := by
  cases events with
  | nil => rfl
  | cons first rest => rfl

def attempts (lost : Error) : List (Program Unit) → Program Unit
  | [] => throw lost
  | callable :: later => fun c =>
    match callable c with
    | .error (.lostDatabaseConnection _) d => attempts lost later d
    | .error e d => .error e d
    | .ok a d => .ok a d

def lostAfter (maxTriesToConnect : Nat) : Error :=
  .exception ("Lost the database connection after trying " ++ toString maxTriesToConnect ++
    " times")

def retryOnLostConnection (callable : Loss → Program Unit) (losses : List Loss) : Program Unit :=
  attempts (lostAfter losses.length) (losses.map callable)

def CatalogueRetryWrapper.filesWrittenToTape (losses : List Loss) (events : List Event) :
    Program Unit :=
  retryOnLostConnection (PostgresCatalogue.filesWrittenToTapeOver · events) losses

/-- A normal return means that the batch was recorded once, and nothing but the lost connection is
reported when it was. -/
def ExactlyOnce (c : Tables) (events : List Event) (tries : Nat) :
    EStateM.Result Error Tables Unit → Prop
  | .ok _ d => PostgresCatalogue.filesWrittenToTape events c = .ok ⟨⟩ d
  | .error e d => PostgresCatalogue.filesWrittenToTape events c = .ok ⟨⟩ d → e = lostAfter tries

def NothingAfterLostAnswer : List Loss → Prop
  | [] => True
  | .none :: _ => True
  | .beforeCommit :: later => NothingAfterLostAnswer later
  | .afterCommit :: later => ∀ l ∈ later, l = .beforeCommit

section
variable {c d : Tables} {callable : Loss → Program Unit} {lost : Error} {losses : List Loss}

theorem attempts_cons {x : Program Unit} {later : List (Program Unit)} :
    attempts lost (x :: later) c = match x c with
      | .error (.lostDatabaseConnection _) d => attempts lost later d
      | .error e d => .error e d
      | .ok a d => .ok a d := rfl

theorem attempts_error (h : ∀ l, ∃ e, callable l c = .error e c) :
    ∃ e, attempts lost (losses.map callable) c = .error e c := by
  induction losses with
  | nil => exact ⟨lost, rfl⟩
  | cons l ls ih =>
    obtain ⟨e, he⟩ := h l
    rw [List.map_cons, attempts_cons, he]
    cases e with
    | lostDatabaseConnection m => exact ih
    | _ => exact ⟨_, rfl⟩

theorem attempts_again {m : String} (hlost : ∀ l, callable l d = match l with
      | .beforeCommit => .error (.lostDatabaseConnection "") d
      | _ => .error (.tapeFseqMismatch m) d) :
    attempts lost (losses.map callable) d =
      if ∀ l ∈ losses, l = .beforeCommit then .error lost d
      else .error (.tapeFseqMismatch m) d := by
  induction losses with
  | nil => rfl
  | cons l ls ih =>
    rw [List.map_cons, attempts_cons, hlost l]
    cases l with
    | none => simp
    | afterCommit => simp
    | beforeCommit => simp [ih]

def DoneOnce (d : Tables) (lost : Error) : EStateM.Result Error Tables Unit → Prop
  | .ok _ d' => d' = d
  | .error e d' => d' = d → e = lost

theorem attempts_doneOnce_iff {m : String} (losses : List Loss) (hne : c ≠ d)
    (hm : lost ≠ .tapeFseqMismatch m)
    (hfirst : ∀ l, callable l c = match l with
      | .none => .ok ⟨⟩ d
      | .beforeCommit => .error (.lostDatabaseConnection "") c
      | .afterCommit => .error (.lostDatabaseConnection "") d)
    (hlost : ∀ l, callable l d = match l with
      | .beforeCommit => .error (.lostDatabaseConnection "") d
      | _ => .error (.tapeFseqMismatch m) d) :
    DoneOnce d lost (attempts lost (losses.map callable) c) ↔ NothingAfterLostAnswer losses := by
  induction losses with
  | nil => exact ⟨fun _ => trivial, fun _ heq => absurd heq hne⟩
  | cons l ls ih =>
    rw [List.map_cons, attempts_cons, hfirst l]
    cases l with
    | none => exact ⟨fun _ => trivial, fun _ => rfl⟩
    | beforeCommit => exact ih
    | afterCommit =>
      change DoneOnce d lost (attempts lost (ls.map callable) d) ↔ ∀ l ∈ ls, l = .beforeCommit
      rw [attempts_again hlost]
      by_cases hall : ∀ l ∈ ls, l = .beforeCommit
      · rw [if_pos hall]
        exact ⟨fun _ => hall, fun _ _ => rfl⟩
      · rw [if_neg hall]
        exact ⟨fun h => absurd (h rfl).symm hm, fun h => absurd h hall⟩

end

section
variable {c d : Tables} {first : Event} {rest events : List Event} {tape : TapeRow}
  {losses : List Loss}

theorem recordEvents_mismatch (insert : TapeFileWritten → Program Unit) (atCommit : Program Unit)
    (rest : List Event) (htape : c.tape? first.vid = some tape)
    (hset : ∀ field ∈ first.toItem.unset, field.1 = false)
    (hseq : tape.lastFSeq + 1 ≠ first.fSeq) :
    ∃ m, transaction (recordEvents insert atCommit first rest) c =
      .error (.tapeFseqMismatch m) c := by
  have hcheck : checkTapeItemWrittenFieldsAreSet "filesWrittenToTape" first.toItem = .ok ⟨⟩ :=
    checkFieldsAreSet_eq_ok.mpr hset
  have hevents : ∃ m, checkEvents first.vid (·.fSeq)
      (checkTapeFileWrittenFieldsAreSet "filesWrittenToTape") (tape.lastFSeq + 1)
      (first :: rest) = .error (.tapeFseqMismatch m) := by
    rw [checkEvents]
    unfold checkEvent
    rw [hcheck]
    simp [bind, Except.bind, throw, throwThe, MonadExceptOf.throw, hseq]
  obtain ⟨m, hevents⟩ := hevents
  refine ⟨m, ?_⟩
  rw [transaction, recordEvents, selectTapeForUpdateAndGetLastFSeq,
    bind_ok (selectLastFSeq_eq_ok.mpr ⟨tape, htape, rfl, rfl⟩), bind_error (ofResult_error hevents)]

theorem Follows.mismatch_after (h : Follows c (first :: rest) tape)
    (files : List TapeFileWritten) : ∃ tape',
      ((c.afterEvents first rest).recordFiles files).tape? first.vid = some tape' ∧
      tape'.lastFSeq + 1 ≠ first.fSeq := by
  obtain ⟨tape', hfound, hseq⟩ := h.tape_after List.mem_cons_self
  refine ⟨tape', hfound, ?_⟩
  have hfirst := h.fSeqs
  rw [List.map_cons, List.length_cons, List.range'_succ, List.cons.injEq] at hfirst
  rw [hseq, hfirst.1, List.length_cons]
  omega

theorem exactlyOnce_of_recordable (hc : c.Consistent) (hf : Follows c (first :: rest) tape)
    (hfiles : FilesOk c (fileEvents (first :: rest))) :
    ExactlyOnce c (first :: rest) losses.length
        (CatalogueRetryWrapper.filesWrittenToTape losses (first :: rest) c) ↔
      NothingAfterLostAnswer losses := by
  obtain ⟨d, hd⟩ : ∃ d, PostgresCatalogue.filesWrittenToTape (first :: rest) c = .ok ⟨⟩ d :=
    ⟨_, (PostgresCatalogue.filesWrittenToTape_eq_ok hc).mpr ⟨tape, hf, hfiles, rfl⟩⟩
  obtain ⟨-, -, -, heq⟩ := (PostgresCatalogue.filesWrittenToTape_eq_ok hc).mp hd
  obtain ⟨tape', htape', hseq⟩ := hf.mismatch_after (fileEvents (first :: rest))
  rw [← heq] at htape'
  obtain ⟨m, hm⟩ := recordEvents_mismatch PostgresCatalogue.insertArchiveFile PostgresCatalogue.commit
    rest htape'
    (hf.fieldsSet first List.mem_cons_self) hseq
  have hne : c ≠ d := by
    intro hcd
    refine hf.tapes_ne ?_
    have htapes := congrArg Tables.tapes (hcd.trans heq)
    exact htapes.symm
  have hcheck : ∀ s l, PostgresCatalogue.filesWrittenToTapeOver l (first :: rest) s =
      overConnection l (transaction (recordEvents PostgresCatalogue.insertArchiveFile
        PostgresCatalogue.commit first rest)) s := fun s l =>
    bind_ok (ofResult_eq_ok.mpr ⟨hf.checkFirst, rfl⟩) _
  have hrun : transaction (recordEvents PostgresCatalogue.insertArchiveFile
      PostgresCatalogue.commit first rest) c = .ok ⟨⟩ d := by
    rw [← PostgresCatalogue.filesWrittenToTapeOver_none, hcheck c .none] at hd
    exact hd
  have honce : DoneOnce d (lostAfter losses.length)
      (CatalogueRetryWrapper.filesWrittenToTape losses (first :: rest) c) ↔
      NothingAfterLostAnswer losses := by
    refine attempts_doneOnce_iff losses hne (m := m) nofun (fun l => ?_) fun l => ?_
    · rw [hcheck c l]
      cases l with
      | none => exact hrun
      | beforeCommit => rfl
      | afterCommit =>
        rw [overConnection, hrun]
    · rw [hcheck d l]
      cases l with
      | none => exact hm
      | beforeCommit => rfl
      | afterCommit =>
        rw [overConnection, hm]
  rw [← honce]
  cases CatalogueRetryWrapper.filesWrittenToTape losses (first :: rest) c with
  | ok a d' =>
    change PostgresCatalogue.filesWrittenToTape (first :: rest) c = .ok ⟨⟩ d' ↔ d' = d
    rw [hd]
    simp [eq_comm]
  | error e d' =>
    change (PostgresCatalogue.filesWrittenToTape (first :: rest) c = .ok ⟨⟩ d' → _) ↔ (d' = d → _)
    rw [hd]
    simp [eq_comm]

theorem exactlyOnce_of_error {e : Error}
    (h : PostgresCatalogue.filesWrittenToTape (first :: rest) c = .error e c) :
    ExactlyOnce c (first :: rest) losses.length
      (CatalogueRetryWrapper.filesWrittenToTape losses (first :: rest) c) := by
  have hrefused : ∀ l, ∃ e,
      PostgresCatalogue.filesWrittenToTapeOver l (first :: rest) c = .error e c := by
    intro l
    rw [PostgresCatalogue.filesWrittenToTape, bulkFilesWrittenToTape] at h
    rw [PostgresCatalogue.filesWrittenToTapeOver]
    cases hfirst : checkTapeItemWrittenFieldsAreSet "filesWrittenToTape" first.toItem with
    | error x => exact ⟨x, bind_error (ofResult_error rfl) _⟩
    | ok a =>
      rw [hfirst, bind_ok (ofResult_eq_ok.mpr ⟨rfl, rfl⟩)] at h
      rw [bind_ok (ofResult_eq_ok.mpr ⟨rfl, rfl⟩)]
      cases l with
      | none => exact ⟨e, h⟩
      | beforeCommit => exact ⟨_, rfl⟩
      | afterCommit => exact ⟨e, by rw [overConnection, h]⟩
  obtain ⟨x, hx⟩ : ∃ x,
      CatalogueRetryWrapper.filesWrittenToTape losses (first :: rest) c = .error x c :=
    attempts_error hrefused
  rw [hx]
  intro hok
  rw [h] at hok
  cases hok

/-- Trying again is exactly once exactly when there is no batch to record, when the catalogue
refuses it, or when no attempt gets as far as its commit after one whose answer was lost. -/
theorem retry_exactlyOnce_iff (hc : c.Consistent) (losses : List Loss) :
    ExactlyOnce c events losses.length
      (CatalogueRetryWrapper.filesWrittenToTape losses events c) ↔
    events = [] ∨ (∀ tape, ¬Follows c events tape) ∨ ¬FilesOk c (fileEvents events) ∨
      NothingAfterLostAnswer losses := by
  cases events with
  | nil =>
    refine ⟨fun _ => .inl rfl, fun _ => ?_⟩
    cases losses with
    | nil => exact fun _ => rfl
    | cons l ls => exact rfl
  | cons first rest =>
    by_cases hrecordable : ∃ tape, Follows c (first :: rest) tape ∧
        FilesOk c (fileEvents (first :: rest))
    · obtain ⟨tape, hf, hfiles⟩ := hrecordable
      rw [exactlyOnce_of_recordable hc hf hfiles]
      constructor
      · exact fun h => .inr (.inr (.inr h))
      · rintro (hnil | hnot | hnot | h)
        · cases hnil
        · exact absurd hf (hnot tape)
        · exact absurd hfiles hnot
        · exact h
    · have hrefused : ∃ e, PostgresCatalogue.filesWrittenToTape (first :: rest) c = .error e c := by
        cases hrun : PostgresCatalogue.filesWrittenToTape (first :: rest) c with
        | ok a d =>
          obtain ⟨tape, hf, hfiles, -⟩ := (PostgresCatalogue.filesWrittenToTape_eq_ok hc).mp hrun
          exact absurd ⟨tape, hf, hfiles⟩ hrecordable
        | error e d => exact ⟨e, by rw [bulkFilesWrittenToTape_error hrun]⟩
      obtain ⟨e, he⟩ := hrefused
      refine ⟨fun _ => .inr ?_, fun _ => exactlyOnce_of_error he⟩
      by_cases hfiles : FilesOk c (fileEvents (first :: rest))
      · exact .inl fun tape hf => hrecordable ⟨tape, hf, hfiles⟩
      · exact .inr (.inl hfiles)

def outcome : EStateM.Result Error Tables Unit → Option Error × Tables
  | .ok _ d => (none, d)
  | .error e d => (some e, d)

/-- The file is recorded, and the second attempt reports that it does not follow the tape. -/
theorem mismatch_after_lost_answer :
    ¬ExactlyOnce oneFileCatalogue [.file newFile] 2
      (CatalogueRetryWrapper.filesWrittenToTape [.afterCommit, .none] [.file newFile]
        oneFileCatalogue) := by
  have hdone : (outcome (PostgresCatalogue.filesWrittenToTape [.file newFile]
      oneFileCatalogue)).1 = none := by decide +kernel
  have hagain : outcome (CatalogueRetryWrapper.filesWrittenToTape [.afterCommit, .none]
      [.file newFile] oneFileCatalogue) =
      (some (.tapeFseqMismatch "FSeq mismatch for tape V1: expected=2 actual=1"),
        (outcome (PostgresCatalogue.filesWrittenToTape [.file newFile] oneFileCatalogue)).2) := by
    decide +kernel
  cases hrun : PostgresCatalogue.filesWrittenToTape [.file newFile] oneFileCatalogue with
  | error e d =>
    rw [hrun] at hdone
    cases hdone
  | ok a d =>
    rw [hrun] at hagain
    cases hretry : CatalogueRetryWrapper.filesWrittenToTape [.afterCommit, .none]
        [.file newFile] oneFileCatalogue with
    | ok a' d' =>
      rw [hretry] at hagain
      cases hagain
    | error e d' =>
      rw [hretry] at hagain
      cases hagain
      intro h
      cases h hrun

theorem exactlyOnce_lost_for_good : ExactlyOnce oneFileCatalogue [.file newFile] 3
    (CatalogueRetryWrapper.filesWrittenToTape [.beforeCommit, .afterCommit, .beforeCommit]
      [.file newFile] oneFileCatalogue) :=
  (retry_exactlyOnce_iff oneFileCatalogue_consistent [.beforeCommit, .afterCommit, .beforeCommit]).mpr
    (.inr (.inr (.inr fun _ hl => List.mem_singleton.mp hl)))

end

end Cta.Catalogue

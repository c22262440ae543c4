import Cta.TapeFile.RoundTrip

/-! What the calls of a reader do to the drive, whatever is on the tape. -/
namespace Cta.TapeFile.ReaderSafety
open Cta.Lib.FixedWidth Cta.Lib.Triples
open Cta.TapeFile.Structures Cta.TapeFile.HeaderChecker Cta.TapeFile.Drive
open Cta.TapeFile.LabelSession Cta.TapeFile.CtaFileReader Cta.TapeFile.RoundTrip
open Cta.Tape.DriveGeneric (LbpToUse)

variable {tape before : List Object} {vid : Text} {ws : List Nat}

theorem objects_moveTo (n : Nat) (d : TapeDrive) : (d.moveTo n).objects = d.objects := by
  simp [TapeDrive.moveTo, TapeDrive.objects]

theorem pass_cons {d : TapeDrive} {o : Object} {next : List Object} (h : d.next = o :: next) :
    d.pass.objects = d.objects ∧ d.pass.before = o :: d.before := by
  unfold TapeDrive.pass
  rw [h]
  exact ⟨by simp [TapeDrive.objects, h], rfl⟩

/-- A drive with this tape, and this before its head. -/
structure DriveAt (tape before : List Object) (d : TapeDrive) : Prop where
  objects : d.objects = tape
  before : d.before = before

theorem DriveAt.pass {d : TapeDrive} (h : DriveAt tape before d) {o : Object} {next : List Object}
    (ho : d.next = o :: next) : DriveAt tape (o :: before) d.pass := by
  obtain ⟨hobjects, hbefore⟩ := pass_cons ho
  exact ⟨hobjects.trans h.objects, by rw [hbefore, h.before]⟩

/-- A call changes nothing on the tape if it does not where the drive works. -/
theorem attempt_spec {α : Type} {P : TapeDrive → Prop} {Q : α → TapeDrive → Prop}
    {call : TapeDrive → EStateM.Result Failure TapeDrive α} (what : String)
    (htape : ∀ d, P d → d.objects = tape) (hfaults : ∀ d faults, P d → P { d with faults })
    (hcall : Triple P call Q fun _ d => d.objects = tape) :
    Triple P (attempt what call) Q fun _ d => d.objects = tape := by
  intro d hd
  unfold attempt
  cases d.faults with
  | nil => exact hcall d hd
  | cons fault faults =>
    cases fault with
    | none => exact hcall _ (hfaults d faults hd)
    | some n => exact (objects_moveTo n _).trans (htape d hd)

theorem DriveAt.faults {d : TapeDrive} (h : DriveAt tape before d) (faults : List (Option Nat)) :
    DriveAt tape before { d with faults } := ⟨h.objects, h.before⟩

/-- What a reader makes of a record: the label that it is, or spaces if its checksum does not
match. -/
def Reads (o : Object) (r : Record Char ws) : Prop :=
  ∃ b, o = .block b ∧ b.data.length = ws.sum ∧
    (b.data = r.pack ∨ r.pack = List.replicate ws.sum ' ')

theorem readExactBlock_spec (memory : Text) (context : String) :
    Triple (DriveAt tape before) (readExactBlock memory context)
      (fun t d => ∃ b : Block, b.data.length = memory.length ∧ (b.data = t.1 ∨ t.1 = memory) ∧
        DriveAt tape (.block b :: before) d) fun _ d => d.objects = tape := by
  unfold readExactBlock
  refine attempt_spec _ (fun _ h => DriveAt.objects h) (fun _ faults h => h.faults faults) ?_
  rintro ⟨passed, next, l, faults⟩ hd
  cases next with
  | nil => exact hd.objects
  | cons o next =>
    have hpass := hd.pass rfl
    cases o with
    | fileMark => exact hpass.objects
    | block b =>
      simp only []
      by_cases hlong : memory.length < b.data.length
      · rw [if_pos hlong]
        exact hpass.objects
      · rw [if_neg hlong]
        by_cases hlength : b.data.length = memory.length
        · rw [dif_pos hlength]
          by_cases hsum : l ≠ .disabled ∧ (!b.intact) = true
          · rw [if_pos hsum]
            exact ⟨b, hlength, Or.inr rfl, hpass⟩
          · rw [if_neg hsum]
            exact ⟨b, hlength, Or.inl rfl, hpass⟩
        · rw [dif_neg hlength]
          exact hpass.objects

theorem readLabel_spec (ws : List Nat) (context : String) :
    Triple (DriveAt tape before) (readLabel ws context)
      (fun r d => ∃ o, Reads o r ∧ DriveAt tape (o :: before) d) fun _ d => d.objects = tape := by
  refine (readExactBlock_spec (List.replicate ws.sum ' ') context).bind fun t => ?_
  refine Triple.exists_pre fun b => Triple.and_pre fun hlength => Triple.and_pre fun hdata => ?_
  refine Triple.pure fun d hd => ⟨.block b, ⟨b, rfl, ?_, ?_⟩, hd⟩
  · rw [hlength, List.length_replicate]
  · rw [Record.pack_unpack]
    exact hdata

theorem readFileMark_spec (context : String) :
    Triple (DriveAt tape before) (readFileMark context)
      (fun _ d => DriveAt tape (.fileMark :: before) d) fun _ d => d.objects = tape := by
  unfold readFileMark
  refine attempt_spec _ (fun _ h => DriveAt.objects h) (fun _ faults h => h.faults faults) ?_
  rintro ⟨passed, next, l, faults⟩ hd
  cases next with
  | nil => exact hd.objects
  | cons o next =>
    have hpass := hd.pass rfl
    cases o with
    | fileMark => exact hpass
    | block b =>
      simp only []
      by_cases hshort : b.data.length ≤ 4
      · rw [if_pos hshort]
        exact hpass.objects
      · rw [if_neg hshort]
        exact hpass.objects

theorem readBlock_spec (count : Nat) :
    Triple (DriveAt tape before) (readBlock count)
      (fun data d => (data = [] ∧ DriveAt tape (.fileMark :: before) d) ∨
        ∃ b : Block, b.data = data ∧ DriveAt tape (.block b :: before) d)
      fun _ d => d.objects = tape := by
  unfold readBlock
  refine attempt_spec _ (fun _ h => DriveAt.objects h) (fun _ faults h => h.faults faults) ?_
  rintro ⟨passed, next, l, faults⟩ hd
  cases next with
  | nil => exact hd.objects
  | cons o next =>
    have hpass := hd.pass rfl
    cases o with
    | fileMark => exact Or.inl ⟨rfl, hpass⟩
    | block b =>
      simp only []
      by_cases hlong : count < b.data.length
      · rw [if_pos hlong]
        exact hpass.objects
      · rw [if_neg hlong]
        by_cases hsum : l ≠ .disabled ∧ (!b.intact) = true
        · rw [if_pos hsum]
          exact hpass.objects
        · rw [if_neg hsum]
          exact Or.inr ⟨b, rfl, hpass⟩

def Holds (tape : List Object) (d : TapeDrive) : Prop := d.objects = tape

/-- A program that leaves the tape as it is. -/
def KeepsTape {α : Type} (x : DriveM α) : Prop :=
  ∀ tape, Triple (Holds tape) x (fun _ => Holds tape) fun _ => Holds tape

theorem anywhere {α : Type} {x : DriveM α} {Q : α → TapeDrive → Prop}
    {E : Failure → TapeDrive → Prop} (h : ∀ before, Triple (DriveAt tape before) x Q E) :
    Triple (Holds tape) x Q E := fun d hd => h d.before d ⟨hd, rfl⟩

theorem KeepsTape.attempt {α : Type} {call : TapeDrive → EStateM.Result Failure TapeDrive α}
    (what : String) (h : ∀ tape, Triple (Holds tape) call (fun _ => Holds tape) fun _ => Holds tape) :
    KeepsTape (attempt what call) := fun tape =>
  attempt_spec what (fun _ hd => hd) (fun _ _ hd => hd) (h tape)

theorem keepsTape_pure {α : Type} (a : α) : KeepsTape (pure a) := fun _ =>
  Triple.pure fun _ hd => hd

theorem keepsTape_throw {α : Type} (e : Failure) : KeepsTape (throw e : DriveM α) := fun _ =>
  Triple.throw fun _ hd => hd

theorem KeepsTape.bind {α β : Type} {x : DriveM α} {f : α → DriveM β} (hx : KeepsTape x)
    (hf : ∀ a, KeepsTape (f a)) : KeepsTape (x >>= f) := fun tape =>
  (hx tape).bind fun a => hf a tape

theorem keepsTape_rewind : KeepsTape rewind :=
  KeepsTape.attempt _ fun _ d hd => (objects_moveTo 0 d).trans hd

theorem keepsTape_positionToLogicalObject (blockId : Nat) :
    KeepsTape (positionToLogicalObject blockId) := by
  refine KeepsTape.attempt _ fun tape d hd => ?_
  simp only []
  by_cases h : blockId ≤ d.objects.length
  · rw [if_pos h]
    exact (objects_moveTo _ d).trans hd
  · rw [if_neg h]
    exact (objects_moveTo _ d).trans hd

theorem spaceFileMarks_objects {count : Nat} {next passed next' passed' : List Object}
    (h : spaceFileMarks count next passed = some (next', passed')) :
    passed'.reverse ++ next' = passed.reverse ++ next := by
  induction next generalizing count passed with
  | nil =>
    cases count with
    | zero =>
      cases h
      rfl
    | succ count => cases h
  | cons o next ih =>
    cases count with
    | zero =>
      cases h
      rfl
    | succ count =>
      cases o with
      | block b =>
        rw [ih h]
        simp
      | fileMark =>
        rw [ih h]
        simp

theorem keepsTape_spaceFileMarksForward (count : Nat) :
    KeepsTape (spaceFileMarksForward count) := by
  unfold spaceFileMarksForward
  by_cases h0 : count = 0
  · rw [if_pos h0]
    exact keepsTape_pure ()
  · rw [if_neg h0]
    refine KeepsTape.attempt _ fun tape d hd => ?_
    cases h : spaceFileMarks count d.next d.before with
    | none =>
      exact (objects_moveTo _ d).trans hd
    | some place =>
      exact (spaceFileMarks_objects h).trans hd

theorem keepsTape_spaceFileMarksBackwards (count : Nat) :
    KeepsTape (spaceFileMarksBackwards count) := by
  unfold spaceFileMarksBackwards
  by_cases h0 : count = 0
  · rw [if_pos h0]
    exact keepsTape_pure ()
  · rw [if_neg h0]
    refine KeepsTape.attempt _ fun tape d hd => ?_
    cases h : spaceFileMarks count d.before d.next with
    | none =>
      exact (objects_moveTo _ d).trans hd
    | some place =>
      have hreversed := congrArg List.reverse (spaceFileMarks_objects h)
      simp only [List.reverse_append, List.reverse_reverse] at hreversed
      exact hreversed.trans hd

theorem verified_spec {σ : Type} {P : σ → Prop} (o : Option String) :
    Triple P (verified o) (fun _ s => o = none ∧ P s)
      fun e s => (∃ what, o = some what ∧ e = .tapeFormatError what) ∧ P s := by
  cases o with
  | none => exact Triple.pure fun _ hs => ⟨rfl, hs⟩
  | some what => exact Triple.throw fun _ hs => ⟨⟨what, rfl, rfl⟩, hs⟩

theorem keepsTape_verified (o : Option String) : KeepsTape (verified o) := fun _ =>
  (verified_spec o).consequence (fun _ hd => hd) (fun _ _ hd => hd.2) fun _ _ hd => hd.2

theorem keepsTape_readLabel (ws : List Nat) (context : String) :
    KeepsTape (readLabel ws context) := fun _ => anywhere fun _ =>
  (readLabel_spec ws context).consequence (fun _ h => h) (fun _ _ ⟨_, _, hd⟩ => hd.objects)
    fun _ _ h => h

theorem keepsTape_readFileMark (context : String) : KeepsTape (readFileMark context) := fun _ =>
  anywhere fun _ => (readFileMark_spec context).consequence (fun _ h => h)
    (fun _ _ hd => hd.objects) fun _ _ h => h

theorem keepsTape_moveToFirstHeaderBlock : KeepsTape FileReader.moveToFirstHeaderBlock :=
  keepsTape_rewind.bind fun _ => (keepsTape_readLabel _ _).bind fun _ => keepsTape_verified _

theorem keepsTape_moveReaderByFSeqDelta (fSeq_delta : Int) :
    KeepsTape (FileReader.moveReaderByFSeqDelta fSeq_delta) := by
  unfold FileReader.moveReaderByFSeqDelta
  by_cases h0 : fSeq_delta = 0
  · rw [if_pos h0]
    exact keepsTape_pure ()
  rw [if_neg h0]
  by_cases hpos : 0 < fSeq_delta
  · rw [if_pos hpos]
    exact keepsTape_spaceFileMarksForward _
  · rw [if_neg hpos]
    exact (keepsTape_spaceFileMarksBackwards _).bind fun _ => keepsTape_readFileMark _

/-- What a reader knows, other than its drive. -/
structure Frame (vid : Text) (code : PositioningMethod) (part : PartOfFile) (fseq : Nat)
    (r : FileReader) : Prop where
  vid : r.session.vid = vid
  locked : r.session.locked = true
  corrupted : r.session.corrupted = false
  part : r.session.currentFilePart = part
  fseq : r.session.fseq = fseq
  code : r.positionCommandCode = code

variable {code : PositioningMethod} {part : PartOfFile} {fseq : Nat}

/-- A reader of this tape with this before its head. -/
def At (tape : List Object) (vid : Text) (code : PositioningMethod) (part : PartOfFile) (fseq : Nat)
    (before : List Object) (r : FileReader) : Prop :=
  DriveAt tape before r.session.drive ∧ Frame vid code part fseq r

/-- A reader that a failure left in the middle of a file. -/
structure Failed (tape : List Object) (vid : Text) (code : PositioningMethod) (r : FileReader) :
    Prop where
  holds : Holds tape r.session.drive
  vid : r.session.vid = vid
  locked : r.session.locked = true
  part : r.session.currentFilePart ≠ .header
  code : r.positionCommandCode = code

theorem Frame.failed {r : FileReader} (h : Frame vid code part fseq r) (hpart : part ≠ .header)
    (hd : Holds tape r.session.drive) : Failed tape vid code r :=
  ⟨hd, h.vid, h.locked, h.part ▸ hpart, h.code⟩

theorem At.failed {r : FileReader} (hpart : part ≠ .header)
    (h : At tape vid code part fseq before r) : Failed tape vid code r :=
  h.2.failed hpart h.1.objects

theorem Frame.withDrive {r : FileReader} (h : Frame vid code part fseq r) (drive : TapeDrive) :
    Frame vid code part fseq { r with session := { r.session with drive } } :=
  ⟨h.vid, h.locked, h.corrupted, h.part, h.fseq, h.code⟩

theorem onDrive_spec {α : Type} {x : DriveM α} {P : TapeDrive → Prop} {Q : α → TapeDrive → Prop}
    (hpart : part ≠ .header) (h : Triple P x Q fun _ => Holds tape) :
    Triple (fun r => P r.session.drive ∧ Frame vid code part fseq r) (FileReader.onDrive x)
      (fun a r => Q a r.session.drive ∧ Frame vid code part fseq r)
      fun _ => Failed tape vid code :=
  (h.onPart (fun _ _ => rfl) fun drive _ hr => hr.withDrive drive).consequence (fun _ hr => hr)
    (fun _ _ hr => hr) fun _ _ hr => hr.2.failed hpart hr.1

theorem readLabel_at (hpart : part ≠ .header) (ws : List Nat) (context : String) :
    Triple (At tape vid code part fseq before) (FileReader.onDrive (readLabel ws context))
      (fun a r => ∃ o, Reads o a ∧ At tape vid code part fseq (o :: before) r)
      fun _ => Failed tape vid code :=
  (onDrive_spec hpart (readLabel_spec ws context)).consequence (fun _ hr => hr)
    (fun _ _ ⟨⟨o, ho, hd⟩, hr⟩ => ⟨o, ho, hd, hr⟩) fun _ _ hr => hr

theorem readFileMark_at (hpart : part ≠ .header) (context : String) :
    Triple (At tape vid code part fseq before) (FileReader.onDrive (readFileMark context))
      (fun _ => At tape vid code part fseq (.fileMark :: before))
      fun _ => Failed tape vid code := onDrive_spec hpart (readFileMark_spec context)

theorem setCurrentFilePart_at (part' : PartOfFile) {E : Failure → FileReader → Prop} :
    Triple (At tape vid code part fseq before) (FileReader.setCurrentFilePart part')
      (fun _ => At tape vid code part' fseq before) E :=
  Triple.modify fun _ ⟨hd, hr⟩ => ⟨hd, hr.vid, hr.locked, hr.corrupted, rfl, hr.fseq, hr.code⟩

theorem setCurrentFseq_at (n : Nat) {E : Failure → FileReader → Prop} :
    Triple (At tape vid code part fseq before) (FileReader.setCurrentFseq n)
      (fun _ => At tape vid code part (n % 2 ^ 32) before) E :=
  Triple.modify fun _ ⟨hd, hr⟩ => ⟨hd, hr.vid, hr.locked, hr.corrupted, hr.part, rfl, hr.code⟩

theorem throwIf_spec {σ : Type} {P : σ → Prop} {c : Prop} [Decidable c] (e : Failure) :
    Triple P (throwIf c e) (fun _ s => ¬c ∧ P s) fun _ => P := by
  unfold throwIf
  by_cases h : c
  · rw [if_pos h]
    exact Triple.throw fun _ hs => hs
  · rw [if_neg h]
    exact Triple.pure fun _ hs => ⟨h, hs⟩

theorem setBlockSize_at (hpart : part ≠ .header) (uhl1 : UHL1UTL1) :
    Triple (At tape vid code part fseq before) (FileReader.setBlockSize uhl1)
      (fun _ => At tape vid code part fseq before) fun _ => Failed tape vid code := by
  have hmodify : ∀ r : FileReader, At tape vid code part fseq before r →
      At tape vid code part fseq before
        { r with currentBlockSize := (atol uhl1.actualBlockSize % 2 ^ 64).toNat } :=
    fun _ ⟨hd, hr⟩ => ⟨hd, hr.vid, hr.locked, hr.corrupted, hr.part, hr.fseq, hr.code⟩
  refine (Triple.modify (R := fun _ => At tape vid code part fseq before) hmodify).bind fun _ => ?_
  exact (throwIf_spec _).consequence (fun _ hr => hr) (fun _ _ hr => hr.2) fun _ _ hr =>
    hr.failed hpart

end Cta.TapeFile.ReaderSafety

import Cta.TapeFile.Drive
import Cta.TapeFile.HeaderChecker

/-! The label of a volume: how it is written, and what a session makes of it. -/
namespace Cta.TapeFile.LabelSession
open Cta.Lib.FixedWidth Cta.Lib.Numerals Cta.Lib.Triples
open Cta.TapeFile.Structures Cta.TapeFile.HeaderChecker Cta.TapeFile.Drive
open Cta.Tape.DriveGeneric (LbpToUse)

def DoNotUse : Nat := 0
def ReedSolomon : Nat := 1
def CRC32C : Nat := 2

/-- `stoi` in base 16, of a text without more than two characters. -/
def stoi (s : Text) : Option Int :=
  let s := s.dropWhile isSpace
  let ds := readDigits 16 (unsigned s)
  if ds = [] then none
  else if s.head? = some '-' then some (-(value 16 ds : Int))
  else some (value 16 ds)

def getLBPMethod (v : VOL1) : Except Failure Nat :=
  if !strncmp v.LBPMethod "  ".toList then .ok DoNotUse
  else
    match stoi v.LBPMethod with
    | none => .error (.invalidArgument
        ("In VOL1::getLBPMethod(): syntax error for numeric value: " ++ text v.LBPMethod))
    | some n =>
      let hexValue := (n % 2 ^ 8).toNat
      if hexValue = DoNotUse ∨ hexValue = CRC32C ∨ hexValue = ReedSolomon then .ok hexValue
      else .error (.invalidArgument
        ("In VOL1::getLBPMethod(): unexpected value: " ++ text v.LBPMethod))

def label (vid : Text) (lbp : Bool) (time : LocalTime) : DriveM Unit := do
  let vol1 := VOL1.fill vid (if lbp then CRC32C else DoNotUse)
  writeBlock vol1.pack
  writeBlock (HDR1PRELABEL.fill time vid).pack
  writeSyncFileMarks 1

def readLabel (ws : List Nat) (context : String) : DriveM (Record Char ws) := do
  let t ← readExactBlock (List.replicate ws.sum ' ') context
  pure (Record.unpack t.1 (t.2.trans List.length_replicate))

def throwIf {σ : Type} (c : Prop) [Decidable c] (e : Failure) : EStateM Failure σ Unit :=
  if c then throw e else pure ()

/-- Exceptions of a check are turned into one about the format of the tape. -/
def verified {σ : Type} : Option String → EStateM Failure σ Unit
  | some what => throw (.tapeFormatError what)
  | none => pure ()

/-- Whether logical block protection is detected; `onCRC32C` is what the session does then. -/
def detectLbp (session : String) (onCRC32C : DriveM Unit) (vol1 : VOL1) : DriveM Bool :=
  match getLBPMethod vol1 with
  | .error e => throw e
  | .ok 2 => do
    onCRC32C
    pure true
  | .ok 1 =>
    throw (.exception ("In " ++ session ++ "::" ++ session ++
      "(): ReedSolomon LBP method not supported"))
  | .ok 0 => do
    disableLogicalBlockProtection
    pure false
  | .ok _ => throw (.exception ("In " ++ session ++ "::" ++ session ++ "(): unknown LBP method"))

/-- What a session does first. The head is behind the label of the volume then. -/
def openTape (session : String) (onCRC32C : DriveM Unit) (vid : Text) : DriveM Bool := do
  throwIf (vid = []) (.invalidArgument "")
  let blank ← isTapeBlank
  throwIf blank (.exception ("[" ++ session ++ "::" ++ session ++
    "()] - Tape is blank, cannot proceed with constructing the " ++ session))
  rewind
  disableLogicalBlockProtection
  let vol1 ← readLabel VOL1.widths ("[" ++ session ++ "::" ++ session ++ "()] - Reading VOL1")
  let detectedLbp ← detectLbp session onCRC32C vol1
  -- from this point the right mode is set
  rewind
  let vol1 ← readLabel VOL1.widths ("[" ++ session ++ "::" ++ session ++ "()] - Reading VOL1")
  verified (VOL1.verify vol1)
  verified (checkVOL1 vol1 vid)
  pure detectedLbp

section
variable {before next : List Object} {l : LbpToUse} {ws : List Nat} {α : Type}

theorem attempt_run (what : String) (call : TapeDrive → EStateM.Result Failure TapeDrive α) :
    attempt what call ⟨before, next, l, []⟩ = call ⟨before, next, l, []⟩ := rfl

theorem rewind_run :
    rewind ⟨before, next, l, []⟩ = .ok () ⟨[], before.reverse ++ next, l, []⟩ := rfl

theorem isTapeBlank_run (h : before.reverse ++ next ≠ []) :
    isTapeBlank ⟨before, next, l, []⟩ = .ok false ⟨[], before.reverse ++ next, l, []⟩ := by
  have hblank : decide (before.reverse ++ next = []) = false := decide_eq_false h
  change EStateM.Result.ok (decide (before.reverse ++ next = [])) _ = _
  rw [hblank]
  rfl

theorem setLogicalBlockProtection_run (l' : LbpToUse) :
    setLogicalBlockProtection l' ⟨before, next, l, []⟩ = .ok () ⟨before, next, l', []⟩ := rfl

theorem readFileMark_run (context : String) :
    readFileMark context ⟨before, .fileMark :: next, l, []⟩ =
      .ok () ⟨.fileMark :: before, next, l, []⟩ := rfl

def labelBlock (r : Record Char ws) (h : 0 < ws.sum) : Object :=
  .block ⟨r.pack, true, List.ne_nil_of_length_pos (r.length_pack.symm ▸ h)⟩

theorem readExactBlock_run {b : Block} (hb : b.intact = true) {memory : Text}
    (h : b.data.length = memory.length) (context : String) :
    readExactBlock memory context ⟨before, .block b :: next, l, []⟩ =
      .ok ⟨b.data, h⟩ ⟨.block b :: before, next, l, []⟩ := by
  unfold readExactBlock
  rw [attempt_run]
  simp only [TapeDrive.pass, hb, Bool.not_true, Bool.false_eq_true, and_false, if_false]
  rw [if_neg (by omega), dif_pos h]

theorem readLabel_run (r : Record Char ws) (h : 0 < ws.sum) (context : String) :
    readLabel ws context ⟨before, labelBlock r h :: next, l, []⟩ =
      .ok r ⟨labelBlock r h :: before, next, l, []⟩ := by
  have hlength : r.pack.length = (List.replicate ws.sum ' ').length := by
    rw [r.length_pack, List.length_replicate]
  unfold readLabel
  have hne : r.pack ≠ [] := List.ne_nil_of_length_pos (r.length_pack.symm ▸ h)
  have hread : readExactBlock (List.replicate ws.sum ' ') context
      ⟨before, .block ⟨r.pack, true, hne⟩ :: next, l, []⟩ =
      .ok ⟨r.pack, hlength⟩ ⟨.block ⟨r.pack, true, hne⟩ :: before, next, l, []⟩ :=
    readExactBlock_run rfl hlength context
  rw [labelBlock, bind_ok hread]
  change EStateM.Result.ok (Record.unpack r.pack _) _ = _
  rw [Record.unpack_pack]

theorem writeBlock_run (hl : l ≠ .crc32cReadOnly) (r : Record Char ws) (h : 0 < ws.sum) :
    writeBlock r.pack ⟨before, next, l, []⟩ = .ok () ⟨labelBlock r h :: before, [], l, []⟩ := by
  have hne : r.pack ≠ [] := List.ne_nil_of_length_pos (r.length_pack.symm ▸ h)
  unfold writeBlock
  rw [if_neg hl, attempt_run, dif_neg hne]
  rfl

theorem throwIf_run {σ : Type} {c : Prop} [Decidable c] (h : ¬c) (e : Failure) (s : σ) :
    throwIf c e s = .ok () s := by
  rw [throwIf, if_neg h]
  rfl

theorem verified_none {σ : Type} (s : σ) : (verified none : EStateM Failure σ Unit) s = .ok () s :=
  rfl

end

theorem getLBPMethod_fill (vid : Text) (lbp : Bool) :
    getLBPMethod (VOL1.fill vid (if lbp then CRC32C else DoNotUse)) =
      .ok (if lbp then CRC32C else DoNotUse) := by
  have hfield : ∀ m, (VOL1.fill vid m).LBPMethod = setString 2 (padded 16 2 m) := fun _ => rfl
  unfold getLBPMethod
  rw [hfield]
  cases lbp with
  | false => decide +kernel
  | true => decide +kernel

theorem VSN_fill {vid : Text} (h : vid.length = 6) (m : Nat) : (VOL1.fill vid m).VSN = vid := by
  change setString 6 vid = vid
  rw [setString, h, List.take_of_length_le (Nat.le_of_eq h)]
  simp

def volumeLabel (vid : Text) (lbp : Bool) : Object :=
  labelBlock (VOL1.fill vid (if lbp then CRC32C else DoNotUse)) (by decide)

theorem detectLbp_run {session : String} {onCRC32C : DriveM Unit} {vid : Text} {lbp : Bool}
    {mode : LbpToUse} {before next : List Object} {l : LbpToUse}
    (hon : lbp = true → onCRC32C ⟨before, next, l, []⟩ = .ok () ⟨before, next, mode, []⟩) :
    detectLbp session onCRC32C (VOL1.fill vid (if lbp then CRC32C else DoNotUse))
        ⟨before, next, l, []⟩ =
      .ok lbp ⟨before, next, if lbp then mode else .disabled, []⟩ := by
  unfold detectLbp
  rw [getLBPMethod_fill]
  cases lbp with
  | false => rfl
  | true => exact bind_ok (hon rfl) fun _ => pure true

theorem openTape_run {session : String} {onCRC32C : DriveM Unit} {vid : Text} {lbp : Bool}
    {mode : LbpToUse} {before next rest : List Object} {l : LbpToUse} (hvid : vid.length = 6)
    (hblank : ¬Blank 6 vid)
    (hon : lbp = true → ∀ before next l,
      onCRC32C ⟨before, next, l, []⟩ = .ok () ⟨before, next, mode, []⟩)
    (htape : before.reverse ++ next = volumeLabel vid lbp :: rest) :
    openTape session onCRC32C vid ⟨before, next, l, []⟩ =
      .ok lbp ⟨[volumeLabel vid lbp], rest, if lbp then mode else .disabled, []⟩ := by
  have hne : vid ≠ [] := by
    intro h
    rw [h] at hvid
    cases hvid
  have hnotBlank : before.reverse ++ next ≠ [] := by
    rw [htape]
    exact List.cons_ne_nil _ _
  have hread : ∀ b l c, readLabel VOL1.widths c ⟨b, volumeLabel vid lbp :: rest, l, []⟩ =
      .ok _ ⟨volumeLabel vid lbp :: b, rest, l, []⟩ := fun _ _ c => readLabel_run _ _ c
  unfold openTape
  rw [bind_ok (throwIf_run hne _ _), bind_ok (isTapeBlank_run hnotBlank), htape,
    bind_ok (throwIf_run (by decide) _ _), bind_ok rewind_run]
  simp only [List.reverse_nil, List.nil_append]
  rw [disableLogicalBlockProtection, bind_ok (setLogicalBlockProtection_run _),
    bind_ok (hread _ _ _), bind_ok (detectLbp_run fun h => hon h _ _ _), bind_ok rewind_run]
  simp only [List.reverse_singleton, List.singleton_append]
  rw [bind_ok (hread _ _ _), VOL1.verify_fill hblank, bind_ok (verified_none _),
    checkVOL1_none.mpr (VSN_fill hvid _), bind_ok (verified_none _)]
  rfl

/-- What a session refuses to do for logical block protection keeps it from a tape that is labelled
with it. -/
theorem openTape_refused {session : String} {onCRC32C : DriveM Unit} {vid : Text} {e : Failure}
    {before next rest : List Object} {l : LbpToUse} (hvid : vid.length = 6)
    (hon : onCRC32C = throw e)
    (htape : before.reverse ++ next = volumeLabel vid true :: rest) :
    ∃ e d, openTape session onCRC32C vid ⟨before, next, l, []⟩ = .error e d := by
  have hne : vid ≠ [] := by
    intro h
    rw [h] at hvid
    cases hvid
  have hnotBlank : before.reverse ++ next ≠ [] := by
    rw [htape]
    exact List.cons_ne_nil _ _
  have hdetect : ∀ d, detectLbp session onCRC32C (VOL1.fill vid (if true then CRC32C else DoNotUse))
      d = .error e d := by
    intro d
    unfold detectLbp
    rw [getLBPMethod_fill, hon]
    rfl
  unfold openTape
  rw [bind_ok (throwIf_run hne _ _), bind_ok (isTapeBlank_run hnotBlank), htape,
    bind_ok (throwIf_run (by decide) _ _), bind_ok rewind_run]
  simp only [List.reverse_nil, List.nil_append]
  rw [disableLogicalBlockProtection, bind_ok (setLogicalBlockProtection_run _), volumeLabel,
    bind_ok (readLabel_run _ _ _), bind_error (hdetect _)]
  exact ⟨e, _, rfl⟩

end Cta.TapeFile.LabelSession

import Mathlib.Algebra.Ring.Nat
import Mathlib.Tactic.Common

/-! The library slots of drives, and the texts they are parsed from. -/
namespace Cta.MediaChanger.LibrarySlots

inductive TapeLibraryType
  | dummy | scsi
  deriving DecidableEq, Repr

inductive LibrarySlot
  | dummy (str : List Char)
  | scsi (drvOrd : UInt16)
  deriving DecidableEq, Repr

def smc : List Char := ['s', 'm', 'c']
def dummy : List Char := ['d', 'u', 'm', 'm', 'y']

def librarySlotToString (drvOrd : UInt16) : List Char := smc ++ Nat.toDigits 10 drvOrd.toNat

def LibrarySlot.str : LibrarySlot → List Char
  | dummy str => str
  | scsi drvOrd => librarySlotToString drvOrd

def isDummy (str : List Char) : Bool := dummy.isPrefixOf str
def isScsi (str : List Char) : Bool := smc.isPrefixOf str

def getLibrarySlotType (str : List Char) : Except String TapeLibraryType :=
  if isDummy str then .ok .dummy
  else if isScsi str then .ok .scsi
  else .error ("Cannot determine library slot type: str=" ++ String.ofList str)

def isValidUInt (str : List Char) : Bool :=
  !str.isEmpty && str.all fun c => !(c < '0' || '9' < c)

/-- `strtol` of a text of digits; it stops at the largest `long`. -/
def strtol (digits : List Char) : Nat := min (Nat.ofDigitChars 10 digits 0) (2^63 - 1)

def atoi (digits : List Char) : Int32 := Int32.ofNat (strtol digits)

def parseDummyLibrarySlot (str : List Char) : Except String LibrarySlot :=
  if isDummy str then .ok (.dummy str)
  else .error ("Failed to construct DummyLibrarySlot: Library slot must start with dummy: str=" ++
    String.ofList str)

def parseScsiLibrarySlot (str : List Char) : Except String LibrarySlot :=
  let drvOrdStr := str.drop 3
  if !isScsi str then
    .error ("Failed to construct ScsiLibrarySlot: Library slot must start with smc: slot=" ++
      String.ofList str)
  else if drvOrdStr.isEmpty then
    .error ("Failed to construct ScsiLibrarySlot: Missing drive ordinal: slot=" ++
      String.ofList str)
  else if !isValidUInt drvOrdStr then
    .error ("Failed to construct ScsiLibrarySlot: Drive ordinal " ++ String.ofList drvOrdStr ++
      " is not a valid unsigned integer: slot=" ++ String.ofList str)
  else .ok (.scsi (atoi drvOrdStr).toUInt32.toUInt16)

def parseOfType (libraryType : TapeLibraryType) (str : List Char) : Except String LibrarySlot :=
  match libraryType with
  | .dummy => parseDummyLibrarySlot str
  | .scsi => parseScsiLibrarySlot str

def parse (str : List Char) : Except String LibrarySlot :=
  match (getLibrarySlotType str).bind fun libraryType => parseOfType libraryType str with
  | .ok slot => .ok slot
  | .error message =>
    .error ("Failed to parse library slot from string representation: " ++ message)

def Digits (digits : List Char) : Prop := digits ≠ [] ∧ ∀ c ∈ digits, '0' ≤ c ∧ c ≤ '9'

/-- `smc` and the digits of a number. -/
def Designates (str : List Char) (n : Nat) : Prop :=
  ∃ digits, Digits digits ∧ str = smc ++ digits ∧ Nat.ofDigitChars 10 digits 0 = n

/-- The text is parsed as it should be: to the drive it designates, or refused. -/
def Right (str : List Char) : Prop :=
  (∀ drvOrd : UInt16, parse str = .ok (.scsi drvOrd) ↔ Designates str drvOrd.toNat) ∧
    (¬ dummy <+: str → (∀ drvOrd : UInt16, ¬ Designates str drvOrd.toNat) →
      ∃ message, parse str = .error message)

theorem isValidUInt_iff (str : List Char) : isValidUInt str ↔ Digits str := by
  simp [isValidUInt, Digits]

theorem designates_iff (digits : List Char) (n : Nat) :
    Designates (smc ++ digits) n ↔ Digits digits ∧ Nat.ofDigitChars 10 digits 0 = n := by
  constructor
  · rintro ⟨digits', hdigits, heq, hn⟩
    obtain rfl := List.append_cancel_left heq
    exact ⟨hdigits, hn⟩
  · rintro ⟨hdigits, hn⟩
    exact ⟨digits, hdigits, rfl, hn⟩

theorem parse_dummy {str : List Char} (h : dummy <+: str) : parse str = .ok (.dummy str) := by
  have hd : isDummy str := List.isPrefixOf_iff_prefix.mpr h
  simp [parse, getLibrarySlotType, hd, Except.bind, parseOfType, parseDummyLibrarySlot]

theorem not_dummy_of_smc (digits : List Char) : ¬ dummy <+: smc ++ digits := by
  intro h
  have := (List.cons_prefix_cons.mp h).1
  exact absurd this (by decide)

theorem parse_other {str : List Char} (hdummy : ¬ dummy <+: str) (hsmc : ¬ smc <+: str) :
    ∃ message, parse str = .error message := by
  have hd : ¬ isDummy str := fun h => hdummy (List.isPrefixOf_iff_prefix.mp h)
  have hs : ¬ isScsi str := fun h => hsmc (List.isPrefixOf_iff_prefix.mp h)
  simp [parse, getLibrarySlotType, hd, hs, Except.bind]

theorem parse_smc (digits : List Char) :
    (Digits digits → parse (smc ++ digits) = .ok (.scsi (atoi digits).toUInt32.toUInt16)) ∧
      (¬ Digits digits → ∃ message, parse (smc ++ digits) = .error message) := by
  have hd : ¬ isDummy (smc ++ digits) := fun h =>
    not_dummy_of_smc digits (List.isPrefixOf_iff_prefix.mp h)
  have hs : isScsi (smc ++ digits) = true := by simp [isScsi]
  have hdrop : (smc ++ digits).drop 3 = digits := rfl
  constructor
  · intro h
    have hvalid := (isValidUInt_iff digits).mpr h
    simp [parse, getLibrarySlotType, hd, hs, Except.bind, parseOfType, parseScsiLibrarySlot, hdrop,
      hvalid, h.1]
  · intro h
    have hvalid : isValidUInt digits = false := by
      simpa using fun hv => h ((isValidUInt_iff digits).mp hv)
    by_cases hempty : digits = []
    · subst hempty
      simp [parse, getLibrarySlotType, Except.bind, parseOfType, parseScsiLibrarySlot, isDummy,
        isScsi, smc, dummy]
    · simp [parse, getLibrarySlotType, hd, hs, Except.bind, parseOfType, parseScsiLibrarySlot,
        hdrop, hvalid, hempty]

theorem ordinal_of_lt (digits : List Char) (h : Nat.ofDigitChars 10 digits 0 < 2^16) :
    (atoi digits).toUInt32.toUInt16.toNat = Nat.ofDigitChars 10 digits 0 := by
  have hmin : strtol digits = Nat.ofDigitChars 10 digits 0 := by
    unfold strtol
    omega
  rw [atoi, hmin, UInt32.toNat_toUInt16]
  have hword : (Int32.ofNat (Nat.ofDigitChars 10 digits 0)).toUInt32 =
      UInt32.ofNat (Nat.ofDigitChars 10 digits 0) := rfl
  rw [hword, UInt32.toNat_ofNat']
  omega

theorem digits_toDigits (n : Nat) : Digits (Nat.toDigits 10 n) := by
  refine ⟨Nat.toDigits_ne_nil, fun c hc => ?_⟩
  have h := Nat.isDigit_of_mem_toDigits (by omega) (by omega) hc
  have hrange : 48 ≤ c.val ∧ c.val ≤ 57 := by simpa [Char.isDigit] using h
  exact hrange

theorem parse_str (drvOrd : UInt16) :
    parse (LibrarySlot.scsi drvOrd).str = .ok (.scsi drvOrd) := by
  have hvalue : Nat.ofDigitChars 10 (Nat.toDigits 10 drvOrd.toNat) 0 = drvOrd.toNat :=
    Nat.ofDigitChars_toDigits (by omega) (by omega)
  have hlt := drvOrd.toNat_lt
  have hord := ordinal_of_lt (Nat.toDigits 10 drvOrd.toNat) (by omega)
  rw [LibrarySlot.str, librarySlotToString, (parse_smc _).1 (digits_toDigits _),
    UInt16.toNat.inj (hord.trans hvalue)]

theorem right_of_not_smc {str : List Char} (hsmc : ¬ smc <+: str) : Right str := by
  have hnot (n : Nat) : ¬ Designates str n := fun ⟨digits, _, heq, _⟩ => hsmc ⟨digits, heq.symm⟩
  by_cases hdummy : dummy <+: str
  · refine ⟨fun drvOrd => iff_of_false ?_ (hnot _), fun h => absurd hdummy h⟩
    simp [parse_dummy hdummy]
  · obtain ⟨message, hparse⟩ := parse_other hdummy hsmc
    exact ⟨fun drvOrd => iff_of_false (by simp [hparse]) (hnot _), fun _ _ => ⟨message, hparse⟩⟩

/-- The texts of slots are read back, and every text is parsed as it should be unless it designates
a number that is not a drive ordinal. -/
theorem parse_right_iff (str : List Char) :
    (∀ drvOrd : UInt16, parse (LibrarySlot.scsi drvOrd).str = .ok (.scsi drvOrd)) ∧
      (Right str ↔ ∀ n, Designates str n → n < 2^16) := by
  refine ⟨parse_str, ?_⟩
  by_cases hsmc : smc <+: str
  · obtain ⟨digits, rfl⟩ := hsmc
    by_cases hdigits : Digits digits
    · have hparse := (parse_smc digits).1 hdigits
      have hiff (n : Nat) := designates_iff digits n
      constructor
      · intro hright n hn
        have hord := (hright.1 _).mp hparse
        obtain ⟨-, hvalue⟩ := (hiff n).mp hn
        obtain ⟨-, hvalue'⟩ := (hiff _).mp hord
        rw [← hvalue, hvalue']
        exact UInt16.toNat_lt _
      · intro hlt
        have hvalue := ordinal_of_lt _ (hlt _ ((hiff _).mpr ⟨hdigits, rfl⟩))
        have hdrive : Designates (smc ++ digits) (atoi digits).toUInt32.toUInt16.toNat :=
          (hiff _).mpr ⟨hdigits, hvalue.symm⟩
        refine ⟨fun drvOrd => ?_, fun _ hnone => absurd hdrive (hnone _)⟩
        rw [hparse, hiff, ← hvalue, UInt16.toNat_inj]
        simp [hdigits]
    · obtain ⟨message, hparse⟩ := (parse_smc digits).2 hdigits
      have hnot (n : Nat) : ¬ Designates (smc ++ digits) n := fun h =>
        hdigits ((designates_iff digits n).mp h).1
      refine iff_of_true ⟨fun drvOrd => ?_, fun _ _ => ⟨message, hparse⟩⟩ fun n hn =>
        absurd hn (hnot n)
      exact iff_of_false (by simp [hparse]) (hnot _)
  · refine iff_of_true (right_of_not_smc hsmc) fun n hn => ?_
    obtain ⟨digits, -, heq, -⟩ := hn
    exact absurd ⟨digits, heq.symm⟩ hsmc

/-- The text of drive 65536 is parsed to drive 0. -/
theorem parse_truncates :
    parse ['s', 'm', 'c', '6', '5', '5', '3', '6'] = .ok (.scsi 0) ∧
      ¬ Right ['s', 'm', 'c', '6', '5', '5', '3', '6'] := by
  have hparse : parse ['s', 'm', 'c', '6', '5', '5', '3', '6'] = .ok (.scsi 0) := by decide
  refine ⟨hparse, fun h => ?_⟩
  obtain ⟨digits, -, heq, hvalue⟩ := (h.1 0).mp hparse
  have hdigits : ['6', '5', '5', '3', '6'] = digits := by simpa [smc] using heq
  subst hdigits
  exact absurd hvalue (by decide)

end Cta.MediaChanger.LibrarySlots

import Cta.Lib.FixedWidth
import Cta.Lib.Numerals
import Cta.Tape.DataPipeline

/-! The labels at the beginning of a tape, and before and behind each file. -/
namespace Cta.TapeFile.Structures
open Cta.Lib.FixedWidth Cta.Lib.Numerals
open Cta.Tape.DataPipeline (toInt)

/-- Characters as they are in memory, one byte each. -/
abbrev Text := List Char

/-- A field of `n` characters: a text that is cut off, or padded with spaces. -/
def setString (n : Nat) (s : Text) : Text := s.take n ++ List.replicate (n - s.length) ' '

/-- The `n` characters that are left of an `int` once it is taken modulo `10 ^ n`. -/
def setInt (n : Nat) (i : Int) : Text :=
  let r := i.tmod (10 ^ n)
  ((if r < 0 then ['-'] else []) ++ padded 10 n r.natAbs).take n

/-- Whether two texts of `n` characters differ, as far as `strncmp` looks. -/
def strncmp : Text → Text → Bool
  | a :: as, b :: bs => if a ≠ b then true else if a = Char.ofNat 0 then false else strncmp as bs
  | _, _ => false

/-- Whether a field differs from a text that is padded with spaces. -/
def cmpString (t : Text) (s : Text) : Bool := strncmp (setString t.length s) t

structure LocalTime where
  tmYear : Nat
  tmYday : Nat
  deriving DecidableEq, Repr

/-- A date as cyyddd. -/
def setDate (t : LocalTime) : Text :=
  setString 6 ((if t.tmYear / 100 ≠ 0 then '0' else ' ') :: numeral 10 (t.tmYear % 100) ++
    padded 10 3 (t.tmYday + 1))

theorem length_setString (n : Nat) (s : Text) : (setString n s).length = n := by
  rw [setString, List.length_append, List.length_take, List.length_replicate]
  omega

theorem length_setInt (n : Nat) (i : Int) : (setInt n i).length = n := by
  have hlt : (i.tmod (10 ^ n)).natAbs < 10 ^ n := by
    have hpos : (0 : Int) < 10 ^ n := by positivity
    have hlt := Int.tmod_lt_of_pos i hpos
    have hgt := Int.lt_tmod_of_pos i hpos
    zify
    rw [abs_lt]
    exact ⟨hgt, hlt⟩
  have hdigits := length_padded (b := 10) (by omega) hlt
  unfold setInt
  simp only [List.length_take, List.length_append, hdigits]
  omega

theorem length_setDate (t : LocalTime) : (setDate t).length = 6 := length_setString 6 _

/-- A check of `verify` and what it throws where it fails. -/
abbrev Check := Bool × String

def firstFailed (checks : List Check) : Option String :=
  (checks.find? fun c => !c.1).map (·.2)

def quoted (message : String) (field : Text) : String := message ++ String.ofList field

/-- The field is the text. -/
def isText (field : Text) (s : String) (message : String) : Check :=
  (!cmpString field s.toList, quoted message field)

/-- The field is not blank. -/
def notBlank (field : Text) (message : String) : Check :=
  (cmpString field [], quoted message field)

/-- The field is blank. -/
def isBlank (field : Text) (message : String) : Check := (!cmpString field [], message)

abbrev VOL1.widths : List Nat := [4, 6, 1, 13, 13, 14, 26, 2, 1]
abbrev VOL1 := Record Char VOL1.widths

namespace VOL1

def label (v : VOL1) : Text := v.field 0
def VSN (v : VOL1) : Text := v.field 1
def accessibility (v : VOL1) : Text := v.field 2
def reserved1 (v : VOL1) : Text := v.field 3
def implID (v : VOL1) : Text := v.field 4
def ownerID (v : VOL1) : Text := v.field 5
def reserved2 (v : VOL1) : Text := v.field 6
def LBPMethod (v : VOL1) : Text := v.field 7
def lblStandard (v : VOL1) : Text := v.field 8

def fill (vsn : Text) (lbpMethod : Nat) : VOL1 where
  fields := [setString 4 "VOL1".toList, setString 6 vsn, setString 1 [], setString 13 [],
    setString 13 [], setString 14 "CASTOR".toList, setString 26 [],
    setString 2 (padded 16 2 lbpMethod), setString 1 "3".toList]
  widths := by simp only [List.map_cons, List.map_nil, length_setString]

def verify (v : VOL1) : Option String := firstFailed [
  isText v.label "VOL1" "Failed verify for the VOL1: ",
  notBlank v.VSN "Failed verify for the VSN: ",
  isText v.lblStandard "3" "Failed verify for the label standard: expected=3 actual=",
  isBlank v.accessibility "accessibility is not empty",
  isBlank v.reserved1 "reserved1 is not empty",
  isBlank v.implID "implID is not empty",
  isBlank v.reserved2 "reserved2 is not empty"]

end VOL1

abbrev HDR1EOF1.widths : List Nat := [4, 17, 6, 4, 4, 4, 2, 6, 6, 1, 6, 13, 7]
abbrev HDR1EOF1 := Record Char HDR1EOF1.widths

namespace HDR1EOF1

def label (h : HDR1EOF1) : Text := h.field 0
def fileId (h : HDR1EOF1) : Text := h.field 1
def VSN (h : HDR1EOF1) : Text := h.field 2
def fSec (h : HDR1EOF1) : Text := h.field 3
def fSeq (h : HDR1EOF1) : Text := h.field 4
def genNum (h : HDR1EOF1) : Text := h.field 5
def verNumOfGen (h : HDR1EOF1) : Text := h.field 6
def creationDate (h : HDR1EOF1) : Text := h.field 7
def expirationDate (h : HDR1EOF1) : Text := h.field 8
def accessibility (h : HDR1EOF1) : Text := h.field 9
def blockCount (h : HDR1EOF1) : Text := h.field 10
def sysCode (h : HDR1EOF1) : Text := h.field 11
def reserved (h : HDR1EOF1) : Text := h.field 12

/-- `fillCommon` with the label and the block count, which are filled in before. -/
def fill (label blockCount : Text) (hcount : blockCount.length = 6) (time : LocalTime)
    (fileId vsn : Text) (fSeq : Int) : HDR1EOF1 where
  fields := [setString 4 label, setString 17 fileId, setString 6 vsn, setString 4 "0001".toList,
    setInt 4 fSeq, setString 4 "0001".toList, setString 2 "00".toList, setDate time, setDate time,
    setString 1 [], blockCount, setString 13 "CASTOR 2.1.15".toList, setString 7 []]
  widths := by
    simp only [List.map_cons, List.map_nil, length_setString, length_setInt, length_setDate, hcount]

def verifyCommon (h : HDR1EOF1) : List Check := [
  notBlank h.fileId "Failed verify for the fileId: ",
  notBlank h.VSN "Failed verify for the VSN: ",
  isText h.fSec "0001" "Failed verify for the fSec: ",
  notBlank h.fSeq "Failed verify for the fSeq: ",
  isText h.genNum "0001" "Failed verify for the genNum: ",
  isText h.verNumOfGen "00" "Failed verify for the verNumOfGen: ",
  notBlank h.creationDate "Failed verify for the creationDate: ",
  notBlank h.expirationDate "Failed verify for the expirationDate: ",
  isBlank h.accessibility "accessibility is not empty",
  notBlank h.sysCode "Failed verify for the sysCode: ",
  isBlank h.reserved "reserved is not empty"]

end HDR1EOF1

namespace HDR1

def fill (time : LocalTime) (fileId vsn : Text) (fSeq : Int) : HDR1EOF1 :=
  HDR1EOF1.fill "HDR1".toList (setString 6 "000000".toList) (length_setString 6 _) time fileId vsn
    fSeq

def verify (h : HDR1EOF1) : Option String := firstFailed (
  isText h.label "HDR1" "Failed verify for the HDR1: " ::
  isText h.blockCount "000000" "Failed verify for the blockCount: " :: h.verifyCommon)

end HDR1

namespace HDR1PRELABEL

def fill (time : LocalTime) (vsn : Text) : HDR1EOF1 := HDR1.fill time "PRELABEL".toList vsn 1

end HDR1PRELABEL

namespace EOF1

def fill (time : LocalTime) (fileId vsn : Text) (fSeq blockCount : Int) : HDR1EOF1 :=
  HDR1EOF1.fill "EOF1".toList (setInt 6 blockCount) (length_setInt 6 _) time fileId vsn fSeq

def verify (h : HDR1EOF1) : Option String := firstFailed (
  isText h.label "EOF1" "Failed verify for the EOF1: " ::
  notBlank h.blockCount "Failed verify for the blockCount: " :: h.verifyCommon)

end EOF1

abbrev HDR2EOF2.widths : List Nat := [4, 1, 5, 5, 1, 18, 2, 14, 2, 28]
abbrev HDR2EOF2 := Record Char HDR2EOF2.widths

namespace HDR2EOF2

def label (h : HDR2EOF2) : Text := h.field 0
def recordFormat (h : HDR2EOF2) : Text := h.field 1
def blockLength (h : HDR2EOF2) : Text := h.field 2
def recordLength (h : HDR2EOF2) : Text := h.field 3
def tapeDensity (h : HDR2EOF2) : Text := h.field 4
def reserved1 (h : HDR2EOF2) : Text := h.field 5
def recTechnique (h : HDR2EOF2) : Text := h.field 6
def reserved2 (h : HDR2EOF2) : Text := h.field 7
def aulId (h : HDR2EOF2) : Text := h.field 8
def reserved3 (h : HDR2EOF2) : Text := h.field 9

/-- Lengths from 100000 on are written as zero. -/
def shownLength (blockLength : Int) : Int := if blockLength < 100000 then blockLength else 0

def fill (label : Text) (blockLength : Int) (driveHasCompression : Bool) : HDR2EOF2 where
  fields := [setString 4 label, setString 1 "F".toList, setInt 5 (shownLength blockLength),
    setInt 5 (shownLength blockLength), setString 1 [], setString 18 [],
    setString 2 (if driveHasCompression then "P ".toList else []), setString 14 [],
    setString 2 "00".toList, setString 28 []]
  widths := by simp only [List.map_cons, List.map_nil, length_setString, length_setInt]

def verify (h : HDR2EOF2) (label message : String) : Option String := firstFailed [
  isText h.label label message,
  isText h.recordFormat "F" "Failed verify for the recordFormat: ",
  notBlank h.blockLength "Failed verify for the blockLength: ",
  notBlank h.recordLength "Failed verify for the recordLength: ",
  isText h.aulId "00" "Failed verify for the aulId: ",
  isBlank h.reserved1 "reserved1 is not empty",
  isBlank h.reserved2 "reserved2 is not empty",
  isBlank h.reserved3 "reserved3 is not empty"]

end HDR2EOF2

namespace HDR2

def fill (blockLength : Int) (compression : Bool) : HDR2EOF2 :=
  HDR2EOF2.fill "HDR2".toList blockLength compression

def verify (h : HDR2EOF2) : Option String := h.verify "HDR2" "Failed verify for the HDR2: "

end HDR2

namespace EOF2

def fill (blockLength : Int) (compression : Bool) : HDR2EOF2 :=
  HDR2EOF2.fill "EOF2".toList blockLength compression

def verify (h : HDR2EOF2) : Option String := h.verify "EOF2" "Failed verify for the EOF2: "

end EOF2

/-- What the drive says about itself. -/
structure DeviceInfo where
  vendor : Text
  product : Text
  serialNumber : Text
  deriving DecidableEq, Repr

abbrev UHL1UTL1.widths : List Nat := [4, 10, 10, 10, 8, 10, 8, 8, 12]
abbrev UHL1UTL1 := Record Char UHL1UTL1.widths

namespace UHL1UTL1

def label (h : UHL1UTL1) : Text := h.field 0
def actualfSeq (h : UHL1UTL1) : Text := h.field 1
def actualBlockSize (h : UHL1UTL1) : Text := h.field 2
def actualRecordLength (h : UHL1UTL1) : Text := h.field 3
def site (h : UHL1UTL1) : Text := h.field 4
def moverHost (h : UHL1UTL1) : Text := h.field 5
def driveVendor (h : UHL1UTL1) : Text := h.field 6
def driveModel (h : UHL1UTL1) : Text := h.field 7
def serialNumber (h : UHL1UTL1) : Text := h.field 8

def fill (label : Text) (fSeq blockSize : Int) (siteName hostName : Text) (d : DeviceInfo) :
    UHL1UTL1 where
  fields := [setString 4 label, setInt 10 fSeq, setInt 10 blockSize, setInt 10 blockSize,
    setString 8 siteName, setString 10 hostName, setString 8 d.vendor, setString 8 d.product,
    setString 12 d.serialNumber]
  widths := by simp only [List.map_cons, List.map_nil, length_setString, length_setInt]

def verify (h : UHL1UTL1) (label message : String) : Option String := firstFailed [
  isText h.label label message,
  notBlank h.actualfSeq "Failed verify for the actualfSeq: ",
  notBlank h.actualBlockSize "Failed verify for the actualBlockSize: ",
  notBlank h.actualRecordLength "Failed verify for the actualRecordLength: ",
  notBlank h.site "Failed verify for site: ",
  notBlank h.moverHost "Failed verify for moverHost: ",
  notBlank h.driveVendor "Failed verify for driveVendor: ",
  notBlank h.driveModel "Failed verify for driveModel: ",
  notBlank h.serialNumber "Failed verify for serialNumber: "]

end UHL1UTL1

namespace UHL1

def fill (fSeq blockSize : Int) (siteName hostName : Text) (d : DeviceInfo) : UHL1UTL1 :=
  UHL1UTL1.fill "UHL1".toList fSeq blockSize siteName hostName d

def verify (h : UHL1UTL1) : Option String := h.verify "UHL1" "Failed verify for the UHL1: "

end UHL1

namespace UTL1

def fill (fSeq blockSize : Int) (siteName hostName : Text) (d : DeviceInfo) : UHL1UTL1 :=
  UHL1UTL1.fill "UTL1".toList fSeq blockSize siteName hostName d

def verify (h : UHL1UTL1) : Option String := h.verify "UTL1" "Failed verify for the UTL1: "

end UTL1

/-- A text is blank in a field of `n` characters. -/
def Blank (n : Nat) (s : Text) : Prop := setString n s = List.replicate n ' '

instance (n : Nat) (s : Text) : Decidable (Blank n s) := inferInstanceAs (Decidable (_ = _))

theorem strncmp_self (t : Text) : strncmp t t = false := by
  induction t with
  | nil => rfl
  | cons c t ih => simp [strncmp, ih]

theorem cmpString_setString (n : Nat) (s : Text) : cmpString (setString n s) s = false := by
  rw [cmpString, length_setString, strncmp_self]

/-- A blank text differs from all others. -/
theorem strncmp_spaces (t : Text) (h : t ≠ List.replicate t.length ' ') :
    strncmp (List.replicate t.length ' ') t = true := by
  induction t with
  | nil => exact absurd rfl h
  | cons c t ih =>
    rw [List.length_cons, List.replicate_succ, strncmp]
    by_cases hc : ' ' = c
    · subst hc
      have hspace : ' ' ≠ Char.ofNat 0 := by decide
      rw [if_neg (by simp), if_neg hspace]
      refine ih fun ht => h ?_
      rw [List.length_cons, List.replicate_succ, ← ht]
    · rw [if_pos hc]

theorem cmpString_nil (t : Text) (h : t ≠ List.replicate t.length ' ') : cmpString t [] = true := by
  have hblank : setString t.length [] = List.replicate t.length ' ' := by simp [setString]
  rw [cmpString, hblank, strncmp_spaces t h]

theorem cmpString_of_mem {t : Text} {c : Char} (hc : c ∈ t) (h : c ≠ ' ') : cmpString t [] = true :=
  cmpString_nil t fun ht => h (List.eq_of_mem_replicate (ht ▸ hc))

theorem cmpString_of_not_blank {n : Nat} {s : Text} (h : ¬Blank n s) :
    cmpString (setString n s) [] = true := by
  refine cmpString_nil _ fun hs => h ?_
  rwa [length_setString] at hs

theorem significant_ne_space {base n : Nat} {c : Char} (hb : 1 < base) (hb' : base ≤ 16)
    (h : c ∈ significant base n) : c ≠ ' ' := by
  obtain ⟨d, hd, rfl⟩ := List.mem_map.mp h
  have hlt := digits_lt hb d hd
  have hall : ∀ d < 16, Nat.digitChar d ≠ ' ' := by decide
  exact hall d (by omega)

theorem numeral_ne_space {c : Char} {n : Nat} (h : c ∈ numeral 10 n) : c ≠ ' ' := by
  unfold numeral at h
  split at h
  · rw [List.mem_singleton.mp h]
    decide
  · exact significant_ne_space (by omega) (by omega) h

theorem padded_ne_space {width n : Nat} {c : Char} (h : c ∈ padded 10 width n) : c ≠ ' ' := by
  cases List.mem_append.mp h with
  | inl h =>
    rw [List.eq_of_mem_replicate h]
    decide
  | inr h => exact significant_ne_space (by omega) (by omega) h

/-- A number is not blank. -/
theorem cmpString_setInt {n : Nat} (hn : 0 < n) (i : Int) : cmpString (setInt n i) [] = true := by
  have hlength := length_setInt n i
  obtain ⟨c, hc⟩ : ∃ c, c ∈ setInt n i := by
    cases hs : setInt n i with
    | nil =>
      rw [hs] at hlength
      rw [← hlength] at hn
      cases hn
    | cons c s => exact ⟨c, List.mem_cons_self⟩
  refine cmpString_of_mem hc ?_
  unfold setInt at hc
  cases List.mem_append.mp (List.mem_of_mem_take hc) with
  | inl hc =>
    split at hc
    · rw [List.mem_singleton.mp hc]
      decide
    · cases hc
  | inr hc => exact padded_ne_space hc

theorem cmpString_setDate (time : LocalTime) : cmpString (setDate time) [] = true := by
  obtain ⟨d, ds, hd⟩ : ∃ d ds, numeral 10 (time.tmYear % 100) = d :: ds := by
    cases hs : numeral 10 (time.tmYear % 100) with
    | nil =>
      unfold numeral significant at hs
      split at hs
      · cases hs
      · next hne =>
        have hnil := List.reverse_eq_nil_iff.mp (List.map_eq_nil_iff.mp hs)
        exact absurd (Nat.digits_eq_nil_iff_eq_zero.mp hnil) hne
    | cons d ds => exact ⟨d, ds, rfl⟩
  have hspace : d ≠ ' ' := numeral_ne_space (hd ▸ List.mem_cons_self)
  refine cmpString_of_mem (c := d) ?_ hspace
  simp [setDate, setString, hd]

theorem firstFailed_none {checks : List Check} (h : ∀ c ∈ checks, c.1 = true) :
    firstFailed checks = none := by
  have hnone : (checks.find? fun c => !c.1) = none := by
    rw [List.find?_eq_none]
    intro c hc
    simp [h c hc]
  rw [firstFailed, hnone]
  rfl

theorem isText_setString (n : Nat) (s message : String) :
    (isText (setString n s.toList) s message).1 = true := by
  simp [isText, cmpString_setString]

theorem isBlank_setString (n : Nat) (message : String) :
    (isBlank (setString n []) message).1 = true := by
  simp [isBlank, cmpString_setString]

theorem notBlank_setString {n : Nat} {s : Text} (h : ¬Blank n s) (message : String) :
    (notBlank (setString n s) message).1 = true := cmpString_of_not_blank h

theorem notBlank_setInt {n : Nat} (hn : 0 < n) (i : Int) (message : String) :
    (notBlank (setInt n i) message).1 = true := cmpString_setInt hn i

theorem notBlank_setDate (time : LocalTime) (message : String) :
    (notBlank (setDate time) message).1 = true := cmpString_setDate time

theorem VOL1.verify_fill {vsn : Text} (h : ¬Blank 6 vsn) (lbpMethod : Nat) :
    (VOL1.fill vsn lbpMethod).verify = none := by
  refine firstFailed_none ?_
  simp only [List.forall_mem_cons, List.not_mem_nil, false_implies, implies_true, and_true]
  exact ⟨isText_setString _ _ _, notBlank_setString h _, isText_setString _ _ _,
    isBlank_setString _ _, isBlank_setString _ _, isBlank_setString _ _, isBlank_setString _ _⟩

section
variable {label blockCount fileId vsn : Text} {hcount : blockCount.length = 6} {time : LocalTime}
  {fSeq : Int}

theorem HDR1EOF1.verifyCommon_fill (hid : ¬Blank 17 fileId) (hvsn : ¬Blank 6 vsn) :
    ∀ c ∈ (HDR1EOF1.fill label blockCount hcount time fileId vsn fSeq).verifyCommon,
      c.1 = true := by
  simp only [HDR1EOF1.verifyCommon, List.forall_mem_cons, List.not_mem_nil, false_implies,
    implies_true, and_true]
  have hsys : ¬Blank 13 "CASTOR 2.1.15".toList := by decide
  exact ⟨notBlank_setString hid _, notBlank_setString hvsn _, isText_setString _ _ _,
    notBlank_setInt (by omega) _ _, isText_setString _ _ _, isText_setString _ _ _,
    notBlank_setDate _ _, notBlank_setDate _ _, isBlank_setString _ _, notBlank_setString hsys _,
    isBlank_setString _ _⟩

theorem HDR1.verify_fill (hid : ¬Blank 17 fileId) (hvsn : ¬Blank 6 vsn) :
    HDR1.verify (HDR1.fill time fileId vsn fSeq) = none := by
  refine firstFailed_none ?_
  rw [List.forall_mem_cons, List.forall_mem_cons]
  exact ⟨isText_setString _ _ _, isText_setString _ _ _, HDR1EOF1.verifyCommon_fill hid hvsn⟩

theorem EOF1.verify_fill (hid : ¬Blank 17 fileId) (hvsn : ¬Blank 6 vsn) (count : Int) :
    EOF1.verify (EOF1.fill time fileId vsn fSeq count) = none := by
  refine firstFailed_none ?_
  rw [List.forall_mem_cons, List.forall_mem_cons]
  exact ⟨isText_setString _ _ _, notBlank_setInt (by omega) _ _,
    HDR1EOF1.verifyCommon_fill hid hvsn⟩

end

theorem HDR2EOF2.verify_fill (label : String) (blockLength : Int) (compression : Bool)
    (message : String) :
    (HDR2EOF2.fill label.toList blockLength compression).verify label message = none := by
  refine firstFailed_none ?_
  simp only [List.forall_mem_cons, List.not_mem_nil, false_implies, implies_true, and_true]
  exact ⟨isText_setString _ _ _, isText_setString _ _ _, notBlank_setInt (by omega) _ _,
    notBlank_setInt (by omega) _ _, isText_setString _ _ _, isBlank_setString _ _,
    isBlank_setString _ _, isBlank_setString _ _⟩

/-- No text of the label of a file would be blank. -/
structure NotBlank (siteName hostName : Text) (d : DeviceInfo) : Prop where
  site : ¬Blank 8 siteName
  host : ¬Blank 10 hostName
  vendor : ¬Blank 8 d.vendor
  product : ¬Blank 8 d.product
  serialNumber : ¬Blank 12 d.serialNumber

theorem UHL1UTL1.verify_fill {siteName hostName : Text} {d : DeviceInfo}
    (h : NotBlank siteName hostName d) (label : String) (fSeq blockSize : Int) (message : String) :
    (UHL1UTL1.fill label.toList fSeq blockSize siteName hostName d).verify label message =
      none := by
  refine firstFailed_none ?_
  simp only [List.forall_mem_cons, List.not_mem_nil, false_implies, implies_true, and_true]
  exact ⟨isText_setString _ _ _, notBlank_setInt (by omega) _ _, notBlank_setInt (by omega) _ _,
    notBlank_setInt (by omega) _ _, notBlank_setString h.site _, notBlank_setString h.host _,
    notBlank_setString h.vendor _, notBlank_setString h.product _,
    notBlank_setString h.serialNumber _⟩

end Cta.TapeFile.Structures

import Cta.Lib.Numerals
import Cta.MediaChanger.RmcRequests

/-! The handlers of the media changer daemon, with the replies that they send. -/
namespace Cta.MediaChanger.RmcHandlers
open Cta.Lib.Triples Cta.Lib.Wire
open Cta.MediaChanger.RmcMarshal (CA_MAXVIDLEN)
open Cta.MediaChanger.RmcRequests

def RMC_REPBUFSZ : Nat := 524288
def RMC_PRTBUFSZ : Nat := 180
def ERMCRBTERR : Int := 2202
def ERMCUNREC : Int := ERMCRBTERR + 1

inductive Reply
  | msgErr (text : List Char)
  | msgData (bytes : List UInt8)
  | rmcRc (rc : Int)
  deriving DecidableEq, Repr

/-- How much of the reply buffer it takes, behind three numbers. -/
def Reply.length : Reply → Nat
  | .msgErr text => text.length + 1
  | .msgData bytes => bytes.length
  | .rmcRc _ => 0

def Reply.Fits (r : Reply) : Prop := r.length ≤ RMC_REPBUFSZ - 3 * 4

instance : DecidablePred Reply.Fits := fun r =>
  inferInstanceAs (Decidable (r.length ≤ RMC_REPBUFSZ - 3 * 4))

def Argument.text : Argument → List Char
  | .loader => "loader".toList
  | .vid => "vid".toList
  | .template => "template".toList
  | .type => "type".toList
  | .nbelem => "nbelem".toList

def decimal (n : Int) : List Char :=
  if n < 0 then '-' :: Lib.Numerals.numeral 10 n.natAbs else Lib.Numerals.numeral 10 n.natAbs

def rmc02 (func msgaddr : List Char) : List Char :=
  "RMC02 - ".toList ++ func ++ " error : ".toList ++ msgaddr ++ ['\n']

def rmc03 (n : Int) : List Char := "RMC03 - illegal function ".toList ++ decimal n ++ ['\n']

def rmc05 : List Char := "RMC05 - cannot allocate enough memory\n".toList

def rmc06 (name : Argument) : List Char :=
  "RMC06 - invalid value for ".toList ++ Argument.text name ++ ['\n']

/-- An element, as `get_element_info` fills it in. -/
structure SmcElementInfo where
  elementAddress : Nat
  elementType : Nat
  state : Nat
  asc : Nat
  ascq : Nat
  flags : Nat
  sourceAddress : Nat
  name : List UInt8
  length_name : name.length ≤ CA_MAXVIDLEN

/-- A text that was written to an array of this size. -/
abbrev Text (n : Nat) := { text : List Char // text.length < n }

/-- `rc` of a failed command, and what `smc_lasterror` says of it. -/
structure SmcError where
  rc : Int
  msgaddr : Text 132

structure RobotInfo where
  inquiry : List UInt8
  transportStart : Nat
  transportCount : Nat
  slotStart : Nat
  slotCount : Nat
  portStart : Nat
  portCount : Nat
  deviceStart : Nat
  deviceCount : Nat
  length_inquiry : inquiry.length ≤ 28

/-- What the library, and the machine of the daemon, make of the requests. The commands that move a
cartridge tell the user what goes wrong. -/
structure Library where
  robotInfo : RobotInfo
  smcMount : Nat → List UInt8 → Nat → List (Text RMC_PRTBUFSZ) × Int
  smcDismount : Nat → List UInt8 → List (Text RMC_PRTBUFSZ) × Int
  smcExport : List UInt8 → List (Text RMC_PRTBUFSZ) × Int
  smcImport : List UInt8 → List (Text RMC_PRTBUFSZ) × Int
  smcFindCartridge : List UInt8 → Int → Int → Int → Except SmcError (List SmcElementInfo)
  smcReadElemStatus : Int → Int → Int → Except SmcError (List SmcElementInfo)
  malloc : Nat → Bool

/-- A handler decodes its fields, refuses what it does not take, and acts. -/
structure Handler where
  fields : List Field
  refusal : Library → Values fields → Option (List Char)
  act : Library → Values fields → List Reply × Int

/-- How far the request was decoded when it was not refused, the replies, and what is returned. -/
structure Handled where
  decoded : Option Nat
  replies : List Reply
  rc : Int

def Handler.handle (h : Handler) (lib : Library) (reqData : Memory) : Handled :=
  match unmarshallAll reqData h.fields 0 with
  | .error name _ => ⟨none, [.msgErr (rmc06 name)], ERMCUNREC⟩
  | .ok values rbp =>
    match h.refusal lib values with
    | some text => ⟨none, [.msgErr text], ERMCUNREC⟩
    | none => ⟨some rbp, (h.act lib values).1, (h.act lib values).2⟩

def moved (outcome : List (Text RMC_PRTBUFSZ) × Int) : List Reply × Int :=
  (outcome.1.map fun text => .msgErr text.val,
    if outcome.2 ≠ 0 then outcome.2 + ERMCRBTERR else outcome.2)

def rmcSrvMount : Handler where
  fields := rmcSrvMountFields
  refusal _ _ := none
  act lib values :=
    let request := MountRequest.ofValues values
    moved (lib.smcMount request.drvord request.vid request.invert)

def rmcSrvUnmount : Handler where
  fields := rmcSrvUnmountFields
  refusal _ _ := none
  act lib values :=
    let request := UnmountRequest.ofValues values
    moved (lib.smcDismount request.drvord (if request.force = 0 then request.vid else []))

def rmcSrvExport : Handler where
  fields := requestFields [.stringN (CA_MAXVIDLEN + 1) .vid]
  refusal _ _ := none
  act lib := fun (_, _, _, vid, _) => moved (lib.smcExport vid)

def rmcSrvImport : Handler where
  fields := requestFields [.stringN (CA_MAXVIDLEN + 1) .vid]
  refusal _ _ := none
  act lib := fun (_, _, _, vid, _) => moved (lib.smcImport vid)

def RobotInfo.marshall (r : RobotInfo) : List UInt8 :=
  marshallString r.inquiry ++ marshallLong r.transportStart ++ marshallLong r.transportCount ++
    marshallLong r.slotStart ++ marshallLong r.slotCount ++ marshallLong r.portStart ++
    marshallLong r.portCount ++ marshallLong r.deviceStart ++ marshallLong r.deviceCount

def rmcSrvGetgeom : Handler where
  fields := requestFields []
  refusal _ _ := none
  act lib _ := ([.msgData lib.robotInfo.marshall], 0)

def marshallByte (n : Nat) : List UInt8 := [UInt8.ofNat n]

def rmcMarshallElement (e : SmcElementInfo) : List UInt8 :=
  marshallWord e.elementAddress ++ marshallByte e.elementType ++ marshallByte e.state ++
    marshallByte e.asc ++ marshallByte e.ascq ++ marshallByte e.flags ++
    marshallWord e.sourceAddress ++ marshallString e.name

def marshallElements (elements : List SmcElementInfo) : List UInt8 :=
  marshallLong elements.length ++ elements.flatMap rmcMarshallElement

def elementInfoSize : Nat := 36

def asInt (n : Nat) : Int := if n < 2 ^ 31 then n else (n : Int) - 2 ^ 32

/-- The checks of a number of elements, and of the memory for them. -/
def refuseElements (lib : Library) (nbelem : Int) : Option (List Char) :=
  if nbelem < 1 then some (rmc06 .nbelem)
  else if lib.malloc (nbelem.toNat * elementInfoSize) then none
  else some rmc05

def listed (lib : Library) (func : List Char) :
    Except SmcError (List SmcElementInfo) → List Reply × Int
  | .error e => ([.msgErr (rmc02 func e.msgaddr.val)], e.rc + ERMCRBTERR)
  | .ok elements =>
    if lib.malloc (elements.length * 18 + 4) then ([.msgData (marshallElements elements)], 0)
    else ([.msgErr rmc05], ERMCUNREC)

def rmcSrvReadelem : Handler where
  fields := requestFields [.long, .long, .long]
  refusal lib := fun (_, _, _, type, _, nbelem, _) =>
    if asInt type < 0 ∨ asInt type > 4 then some (rmc06 .type)
    else refuseElements lib (asInt nbelem)
  act lib := fun (_, _, _, type, startaddr, nbelem, _) =>
    listed lib "smc_read_elem_status".toList
      (lib.smcReadElemStatus (asInt type) (asInt startaddr) (asInt nbelem))

def rmcSrvFindcart : Handler where
  fields := requestFields [.stringN 40 .template, .long, .long, .long]
  refusal lib := fun (_, _, _, _, _, _, nbelem, _) => refuseElements lib (asInt nbelem)
  act lib := fun (_, _, _, template, type, startaddr, nbelem, _) =>
    listed lib "smc_find_cartridge".toList
      (lib.smcFindCartridge template (asInt type) (asInt startaddr) (asInt nbelem))

def rmcDispatchRqstHandler (reqType : Int) : Option Handler :=
  if reqType = 4 then some rmcSrvMount
  else if reqType = 5 then some rmcSrvUnmount
  else if reqType = 6 then some rmcSrvExport
  else if reqType = 7 then some rmcSrvImport
  else if reqType = 1 then some rmcSrvGetgeom
  else if reqType = 3 then some rmcSrvReadelem
  else if reqType = 2 then some rmcSrvFindcart
  else none

theorem fits_rmcRc (rc : Int) : (Reply.rmcRc rc).Fits := Nat.zero_le _

theorem fits_rmc05 : (Reply.msgErr rmc05).Fits := by decide +kernel

theorem fits_rmc06 (name : Argument) : (Reply.msgErr (rmc06 name)).Fits := by
  cases name <;> decide +kernel

theorem fits_text (text : Text RMC_PRTBUFSZ) : (Reply.msgErr text.val).Fits := by
  have htext := text.property
  simp only [RMC_PRTBUFSZ, Reply.Fits, Reply.length, RMC_REPBUFSZ] at htext ⊢
  omega

theorem fits_rmc02 {func : List Char} (hfunc : func.length ≤ 20) (msgaddr : Text 132) :
    (Reply.msgErr (rmc02 func msgaddr.val)).Fits := by
  have hmsgaddr := msgaddr.property
  have hbegin : "RMC02 - ".toList.length = 8 := by decide +kernel
  have herror : " error : ".toList.length = 9 := by decide +kernel
  have happend : ∀ b c : List Char, (b ++ func ++ c ++ msgaddr.val ++ ['\n']).length =
      b.length + func.length + c.length + msgaddr.val.length + 1 := fun b c => by
    simp only [List.length_append, List.length_singleton]
  have hlength : (rmc02 func msgaddr.val).length = 8 + func.length + 9 + msgaddr.val.length + 1 :=
    hbegin ▸ herror ▸ happend _ _
  simp only [Reply.Fits, Reply.length, RMC_REPBUFSZ, hlength]
  omega

theorem length_decimal {n : Int} (h : n.natAbs < 10 ^ 10) : (decimal n).length ≤ 11 := by
  have hnumeral : (Lib.Numerals.numeral 10 n.natAbs).length ≤ 10 := by
    unfold Lib.Numerals.numeral
    split
    · simp
    · exact Lib.Numerals.length_significant_le (by decide) h
  unfold decimal
  split
  · rw [List.length_cons]
    omega
  · omega

theorem fits_rmc03 {n : Int} (h : n.natAbs < 10 ^ 10) : (Reply.msgErr (rmc03 n)).Fits := by
  have hdecimal := length_decimal h
  have hbegin : "RMC03 - illegal function ".toList.length = 25 := by decide +kernel
  have happend : ∀ b : List Char, (b ++ decimal n ++ ['\n']).length =
      b.length + (decimal n).length + 1 := fun b => by
    simp only [List.length_append, List.length_singleton]
  have hlength : (rmc03 n).length = 25 + (decimal n).length + 1 := hbegin ▸ happend _
  simp only [Reply.Fits, Reply.length, RMC_REPBUFSZ, hlength]
  omega

theorem natAbs_asInt {n : Nat} (h : n < 256 ^ 4) : (asInt n).natAbs < 10 ^ 10 := by
  unfold asInt
  split
  · omega
  · omega

theorem fits_robotInfo (r : RobotInfo) : (Reply.msgData r.marshall).Fits := by
  have hinquiry := r.length_inquiry
  simp only [Reply.Fits, Reply.length, RobotInfo.marshall, List.length_append, marshallLong,
    length_bytesOf, marshallString, List.length_singleton, RMC_REPBUFSZ]
  omega

/-- The elements take less than the reply buffer: ten bytes and a name each. -/
def ShortList (elements : List SmcElementInfo) : Prop :=
  4 + (elements.map fun e => 10 + e.name.length).sum ≤ RMC_REPBUFSZ - 3 * 4

theorem length_rmcMarshallElement (e : SmcElementInfo) :
    (rmcMarshallElement e).length = 10 + e.name.length := by
  simp only [rmcMarshallElement, List.length_append, marshallWord, marshallByte, marshallString,
    length_bytesOf, List.length_singleton]
  omega

theorem fits_marshallElements (elements : List SmcElementInfo) :
    (Reply.msgData (marshallElements elements)).Fits ↔ ShortList elements := by
  have hlength : (marshallElements elements).length =
      4 + (elements.map fun e => 10 + e.name.length).sum := by
    simp only [marshallElements, List.length_append, marshallLong, length_bytesOf,
      List.length_flatMap, length_rmcMarshallElement]
  rw [Reply.Fits, Reply.length, hlength, ShortList]

section
variable {lib : Library} {func : List Char} {r : Reply}

theorem fits_moved {outcome : List (Text RMC_PRTBUFSZ) × Int} (h : r ∈ (moved outcome).1) :
    r.Fits := by
  obtain ⟨text, -, rfl⟩ := List.mem_map.mp h
  exact fits_text text

theorem fits_listed (hfunc : func.length ≤ 20) {found : Except SmcError (List SmcElementInfo)} :
    (∀ r ∈ (listed lib func found).1, r.Fits) ↔ ∀ elements, found = .ok elements →
      lib.malloc (elements.length * 18 + 4) = true → ShortList elements := by
  cases found with
  | error e =>
    refine iff_of_true (fun r hr => ?_) nofun
    rw [List.mem_singleton.mp hr]
    exact fits_rmc02 hfunc e.msgaddr
  | ok elements =>
    rw [listed]
    cases hmalloc : lib.malloc (elements.length * 18 + 4) with
    | true =>
      simp only [if_true, List.forall_mem_singleton, fits_marshallElements]
      constructor
      · rintro h _ ⟨⟩ -
        exact h
      · exact fun h => h elements rfl hmalloc
    | false =>
      simp only [Bool.false_eq_true, if_false, List.forall_mem_singleton]
      refine iff_of_true fits_rmc05 ?_
      rintro _ ⟨⟩ hyes
      exact absurd (hmalloc.symm.trans hyes) (by simp)

theorem Handler.handle_cases (h : Handler) (lib : Library) (mem : Memory) :
    (∃ values n, unmarshallAll mem h.fields 0 = .ok values n ∧ h.refusal lib values = none ∧
      h.handle lib mem = ⟨some n, (h.act lib values).1, (h.act lib values).2⟩) ∨
    ∃ text, h.handle lib mem = ⟨none, [.msgErr text], ERMCUNREC⟩ ∧
      ((∃ name, text = rmc06 name) ∨ ∃ values, h.refusal lib values = some text) := by
  unfold Handler.handle
  cases hfields : unmarshallAll mem h.fields 0 with
  | error name n => exact .inr ⟨_, rfl, .inl ⟨name, rfl⟩⟩
  | ok values n =>
    cases hrefusal : h.refusal lib values with
    | some text => exact .inr ⟨text, by simp only [hrefusal], .inr ⟨values, hrefusal⟩⟩
    | none => exact .inl ⟨values, n, rfl, hrefusal, by simp only [hrefusal]⟩

theorem Handler.handle_accepted {h : Handler} {mem : Memory} {values : Values h.fields} {n : Nat}
    (hfields : unmarshallAll mem h.fields 0 = .ok values n)
    (hrefusal : h.refusal lib values = none) :
    h.handle lib mem = ⟨some n, (h.act lib values).1, (h.act lib values).2⟩ := by
  simp only [Handler.handle, hfields, hrefusal]

theorem fits_refuseElements {nbelem : Int} {text : List Char}
    (h : refuseElements lib nbelem = some text) : (Reply.msgErr text).Fits := by
  unfold refuseElements at h
  split at h
  · cases h
    exact fits_rmc06 .nbelem
  · split at h
    · cases h
    · cases h
      exact fits_rmc05

end

end Cta.MediaChanger.RmcHandlers

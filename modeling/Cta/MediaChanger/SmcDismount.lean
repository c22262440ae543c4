import Cta.Lib.Runs
import Cta.MediaChanger.CartridgePattern
import Cta.MediaChanger.RmcHandlers

/-! The dismount of a cartridge, which waits for the library. -/
namespace Cta.MediaChanger.SmcDismount
open Cta.Lib.Runs
open Cta.MediaChanger.CartridgePattern (vmatch)
open Cta.MediaChanger.RmcHandlers (SmcElementInfo RobotInfo)

def RBT_OK : Nat := 0
def RBT_NORETRY : Nat := 1
def RBT_FAST_RETRY : Nat := 3
def RBT_UNLD_DMNT : Nat := 9
def RBT_XTRA_PROC : Nat := 10
def EBUSY : Nat := 16

/-- What a command leaves behind that failed, also after the retries of a paused library. -/
structure ScsiError where
  rc : Int
  serrno : Nat
  nbSense : Nat
  sensekey : Nat
  asc : Nat
  ascq : Nat
  deriving DecidableEq, Repr

def ScsiError.skvalid (e : ScsiError) : Bool := e.rc = -4 && 14 ≤ e.nbSense

structure ScsierrCodact where
  sensekey : Nat
  asc : Nat
  ascq : Nat
  action : Nat
  deriving DecidableEq, Repr

def scsierrActtbl : List ScsierrCodact := [
    ⟨0x02, 0x04, 0x00, RBT_FAST_RETRY⟩, ⟨0x02, 0x04, 0x01, RBT_FAST_RETRY⟩,
    ⟨0x02, 0x04, 0x02, RBT_NORETRY⟩, ⟨0x02, 0x04, 0x03, RBT_NORETRY⟩,
    ⟨0x0B, 0x08, 0x00, RBT_NORETRY⟩, ⟨0x0B, 0x08, 0x01, RBT_NORETRY⟩,
    ⟨0x05, 0x1A, 0x00, RBT_NORETRY⟩, ⟨0x05, 0x20, 0x00, RBT_NORETRY⟩,
    ⟨0x05, 0x21, 0x01, RBT_NORETRY⟩, ⟨0x05, 0x24, 0x00, RBT_NORETRY⟩,
    ⟨0x05, 0x25, 0x00, RBT_NORETRY⟩, ⟨0x05, 0x26, 0x00, RBT_NORETRY⟩,
    ⟨0x05, 0x26, 0x01, RBT_NORETRY⟩, ⟨0x05, 0x26, 0x02, RBT_NORETRY⟩,
    ⟨0x06, 0x28, 0x00, RBT_FAST_RETRY⟩, ⟨0x06, 0x28, 0x01, RBT_FAST_RETRY⟩,
    ⟨0x06, 0x29, 0x00, RBT_FAST_RETRY⟩, ⟨0x06, 0x2A, 0x01, RBT_FAST_RETRY⟩,
    ⟨0x05, 0x30, 0x00, RBT_NORETRY⟩, ⟨0x00, 0x30, 0x03, RBT_FAST_RETRY⟩,
    ⟨0x05, 0x39, 0x00, RBT_NORETRY⟩, ⟨0x05, 0x3A, 0x00, RBT_XTRA_PROC⟩,
    ⟨0x05, 0x3B, 0x0D, RBT_XTRA_PROC⟩, ⟨0x05, 0x3B, 0x0E, RBT_XTRA_PROC⟩,
    ⟨0x04, 0x40, 0x01, RBT_NORETRY⟩, ⟨0x04, 0x40, 0x02, RBT_NORETRY⟩,
    ⟨0x04, 0x40, 0x03, RBT_NORETRY⟩, ⟨0x0B, 0x43, 0x00, RBT_NORETRY⟩,
    ⟨0x02, 0x44, 0x00, RBT_NORETRY⟩, ⟨0x0B, 0x45, 0x00, RBT_NORETRY⟩,
    ⟨0x0B, 0x47, 0x00, RBT_NORETRY⟩, ⟨0x0B, 0x48, 0x00, RBT_NORETRY⟩,
    ⟨0x02, 0x4C, 0x00, RBT_NORETRY⟩, ⟨0x05, 0x4E, 0x00, RBT_NORETRY⟩,
    ⟨0x05, 0x53, 0x02, RBT_NORETRY⟩, ⟨0x06, 0x54, 0x00, RBT_NORETRY⟩,
    ⟨0x02, 0x5A, 0x01, RBT_NORETRY⟩]

def smc_lasterror (e : ScsiError) : Nat :=
  if (e.rc = -1 ∨ e.rc = -2) ∧ e.serrno = EBUSY then EBUSY
  else if e.skvalid then
    match scsierrActtbl.find? fun t =>
      e.asc = t.asc ∧ e.ascq = t.ascq ∧ e.sensekey = t.sensekey with
    | some t => t.action
    | none => RBT_NORETRY
  else RBT_NORETRY

theorem smc_lasterror_ne_zero (e : ScsiError) : smc_lasterror e ≠ RBT_OK := by
  have hall : ∀ t ∈ scsierrActtbl, t.action ≠ RBT_OK := by decide
  unfold smc_lasterror
  split
  · decide
  · split
    · split
      · next t h => exact hall t (List.mem_of_find?_eq_some h)
      · decide
    · decide

def ascii (s : String) : List UInt8 := s.toList.map fun c => UInt8.ofNat c.toNat

def spectraLikeLibs : List (List UInt8 × List UInt8) :=
  [(ascii "SPECTRA", []), (ascii "IBM", ascii "3573-TL")]

def isspace (c : UInt8) : Bool := c = 32 || (9 ≤ c && c ≤ 13)

def trimTrailingSpaces (field : List UInt8) : List UInt8 :=
  ((field.takeWhile (· ≠ 0)).reverse.dropWhile isspace).reverse

def toLower (c : UInt8) : UInt8 := if 65 ≤ c ∧ c ≤ 90 then c + 32 else c

def sameIgnoringCase (s t : List UInt8) : Bool := s.map toLower = t.map toLower

def is_library_spectra_like (robotInfo : RobotInfo) : Bool :=
  let vendorId := trimTrailingSpaces (robotInfo.inquiry.take 8)
  let productId := trimTrailingSpaces ((robotInfo.inquiry.drop 8).take 16)
  spectraLikeLibs.any fun lib =>
    sameIgnoringCase vendorId lib.1 && (lib.2.isEmpty || sameIgnoringCase productId lib.2)

/-- What the library answers to the commands of one search, each in case that it is sent. One
element is asked for, so that a report has at most one. `beyond` is what `vmatch` returns for a
name when it has read behind the end of it. -/
structure SearchReplies where
  sendVolumeTag : Except ScsiError Unit
  requestVolumeElementAddress : Except ScsiError (Option SmcElementInfo)
  getGeometry : Except ScsiError Unit
  malloc : Except ScsiError Unit
  readElementStatus : Except ScsiError (List SmcElementInfo)
  beyond : List UInt8 → Nat

structure Found where
  element : Option SmcElementInfo
  passedEnd : Bool

/-- `none`: the end of the name was passed. -/
def compared (findTemplate name : List UInt8) : Option Nat :=
  if findTemplate.contains 42 || findTemplate.contains 63 then vmatch findTemplate name
  else some (if findTemplate = name then 0 else 1)

def searchInventory (findTemplate : List UInt8) (beyond : List UInt8 → Nat) :
    List SmcElementInfo → Found
  | [] => ⟨none, false⟩
  | info :: rest =>
    if info.state % 2 = 1 then
      match compared findTemplate info.name with
      | some 0 => ⟨some info, false⟩
      | some _ => searchInventory findTemplate beyond rest
      | none =>
        ⟨if beyond info.name = 0 then some info
          else (searchInventory findTemplate beyond rest).element, true⟩
    else searchInventory findTemplate beyond rest

def smc_find_cartridgeWithoutSendVolumeTag (findTemplate : List UInt8) (r : SearchReplies) :
    Except ScsiError Found := do
  r.getGeometry
  r.malloc
  let inventoryInfo ← r.readElementStatus
  return searchInventory findTemplate r.beyond inventoryInfo

def smc_find_cartridge (robotInfo : RobotInfo) (findTemplate : List UInt8) (r : SearchReplies) :
    Except ScsiError Found :=
  if is_library_spectra_like robotInfo then smc_find_cartridgeWithoutSendVolumeTag findTemplate r
  else
    match r.sendVolumeTag with
    | .error e =>
      if e.skvalid && e.sensekey = 5 then smc_find_cartridgeWithoutSendVolumeTag findTemplate r
      else .error e
    | .ok () => r.requestVolumeElementAddress.map fun element => ⟨element, false⟩

inductive Phase where
  | readElemStatus (nbElementStatusReads : Nat)
  | moveMedium (source destination : Nat) (invert : Bool)
  | findCartridge (findTemplate : List UInt8)
  | returned (rc : Nat)
  deriving DecidableEq

/-- What the library answers. `garbage` is what an element variable happens to hold before a
search. -/
inductive Answer where
  | elemStatus (reply : Except ScsiError (Option SmcElementInfo))
  | moved (reply : Except ScsiError Unit)
  | searched (replies : SearchReplies) (garbage : SmcElementInfo)

/-- The call, with what the library has told: `filled` as long as each decision was taken on
information that the last command filled in, whether the drive was reported empty, what the last
search came to. -/
structure State where
  phase : Phase
  driveElementInfo : SmcElementInfo
  filled : Bool
  driveEmpty : Bool
  lastSearch : Option (Except ScsiError Found)

section
variable (robotInfo : RobotInfo) (drvord : Nat) (vid : List UInt8)

def maxElementStatusReads : Nat := 20

def afterReads (info : SmcElementInfo) (driveNotUnloaded : Bool) : Phase :=
  if driveNotUnloaded then .returned RBT_UNLD_DMNT
  else if vid ≠ [] ∧ info.name ≠ vid then .returned RBT_NORETRY
  else .moveMedium (robotInfo.deviceStart + drvord) info.sourceAddress (info.flags / 64 % 2 = 1)

def afterElemStatus (nbElementStatusReads : Nat) (info : SmcElementInfo) : Phase :=
  if info.state % 2 = 0 then .returned RBT_OK
  else
    let driveNotUnloaded : Bool := info.state / 8 % 2 = 0
    if driveNotUnloaded && nbElementStatusReads + 1 < maxElementStatusReads then
      .readElemStatus (nbElementStatusReads + 1)
    else afterReads robotInfo drvord vid info driveNotUnloaded

def afterSearch (findTemplate : List UInt8) (volElementInfo : SmcElementInfo) : Phase :=
  if volElementInfo.elementType = 2 then .returned RBT_OK else .findCartridge findTemplate

def smc_dismount (s : State) (answer : Answer) : State :=
  match s.phase, answer with
  | .readElemStatus _, .elemStatus (.error e) => { s with phase := .returned (smc_lasterror e) }
  | .readElemStatus n, .elemStatus (.ok none) =>
    { s with phase := afterElemStatus robotInfo drvord vid n s.driveElementInfo, filled := false }
  | .readElemStatus n, .elemStatus (.ok (some info)) =>
    { s with phase := afterElemStatus robotInfo drvord vid n info, driveElementInfo := info,
             driveEmpty := info.state % 2 = 0 }
  | .moveMedium .., .moved (.error e) => { s with phase := .returned (smc_lasterror e) }
  | .moveMedium .., .moved (.ok ()) =>
    { s with phase := .findCartridge s.driveElementInfo.name }
  | .findCartridge template, .searched replies garbage =>
    let found := smc_find_cartridge robotInfo template replies
    let s := { s with lastSearch := some found }
    match found with
    | .error e => { s with phase := .returned (smc_lasterror e) }
    | .ok ⟨none, _⟩ => { s with phase := afterSearch template garbage, filled := false }
    | .ok ⟨some info, passedEnd⟩ =>
      { s with phase := afterSearch template info, filled := s.filled && !passedEnd }
  | _, _ => s

def start (garbage : SmcElementInfo) : State where
  phase := .readElemStatus 0
  driveElementInfo := garbage
  filled := true
  driveEmpty := false
  lastSearch := none

/-- The element that was found has the name of the cartridge, as far as one can tell. -/
def Found.Names (name : List UInt8) (found : Found) : Prop :=
  ∃ info, found.element = some info ∧ info.name = name

/-- The cartridge that was in the drive was last reported in a storage slot, by its label. -/
def State.InSlot (s : State) : Prop :=
  ∃ info passedEnd, s.lastSearch = some (.ok ⟨some info, passedEnd⟩) ∧ info.elementType = 2 ∧
    info.name = s.driveElementInfo.name ∧ info.name ≠ []

def State.SearchOver (s : State) : Prop :=
  (∃ e, s.lastSearch = some (.error e)) ∨
    ∃ found, s.lastSearch = some (.ok found) ∧ ¬found.Names s.driveElementInfo.name

/-- The dismount is right so far: it decides on what it was told, reports success only of a drive
that is empty or of a cartridge in its slot, and does not wait for what is not found. -/
structure State.Right (s : State) : Prop where
  filled : s.filled = true
  truthful : s.phase = .returned RBT_OK → s.driveEmpty = true ∨ s.InSlot
  ends : s.SearchOver → ∃ rc, s.phase = .returned rc

/-- A search has found the cartridge without a look behind the end of a name, and by its label if it
is in a storage slot. -/
def Found.Fits (name : List UInt8) (found : Found) : Prop :=
  found.passedEnd = false ∧ ∃ info, found.element = some info ∧ info.name = name ∧
    (info.elementType = 2 → name ≠ [])

/-- The answer to an element status that was sent does not come without an element, and the answer
to a search finds what it is about. -/
def Reports (s : State) (answer : Answer) : Prop :=
  match s.phase, answer with
  | .readElemStatus _, .elemStatus reply => reply ≠ .ok none
  | .findCartridge template, .searched replies _ =>
    ∀ found, smc_find_cartridge robotInfo template replies = .ok found → found.Fits template
  | _, _ => True

/-- The search is for the name that was read in the drive, which was not empty. -/
structure State.OfDrive (s : State) : Prop where
  template : ∀ template, s.phase = .findCartridge template → s.driveElementInfo.name = template
  loaded : (∀ rc, s.phase ≠ .returned rc) → s.driveEmpty = false
  unsearched : (∀ rc, s.phase ≠ .returned rc) → (∀ template, s.phase ≠ .findCartridge template) →
    s.lastSearch = none

variable {robotInfo drvord vid} {s : State} {n : Nat} {info : SmcElementInfo}
  {template : List UInt8}

theorem not_searchOver (h : s.lastSearch = none) : ¬s.SearchOver := by
  rintro (⟨e, he⟩ | ⟨found, hfound, -⟩)
  · cases h.symm.trans he
  · cases h.symm.trans hfound

theorem State.Right.failed (hs : s.Right) (e : ScsiError)
    (last : Option (Except ScsiError Found)) :
    State.Right { s with phase := .returned (smc_lasterror e), lastSearch := last } where
  filled := hs.filled
  truthful h := absurd (Phase.returned.inj h) (smc_lasterror_ne_zero e)
  ends _ := ⟨_, rfl⟩

theorem State.OfDrive.returned (rc : Nat) (h : s.phase = .returned rc) : s.OfDrive where
  template template ht := by cases h.symm.trans ht
  loaded hne := absurd h (hne rc)
  unsearched hne _ := absurd h (hne rc)

theorem afterElemStatus_ok (h : afterElemStatus robotInfo drvord vid n info = .returned RBT_OK) :
    info.state % 2 = 0 := by
  by_contra hfull
  unfold afterElemStatus at h
  simp only [if_neg hfull] at h
  split at h
  · cases h
  · unfold afterReads at h
    split at h
    · exact absurd (Phase.returned.inj h) (by decide)
    · split at h
      · exact absurd (Phase.returned.inj h) (by decide)
      · cases h

theorem State.Right.elemStatus (hs : s.Right) (hnone : s.lastSearch = none)
    (info : SmcElementInfo) :
    State.Right { s with phase := afterElemStatus robotInfo drvord vid n info,
                         driveElementInfo := info, driveEmpty := info.state % 2 = 0 } where
  filled := hs.filled
  truthful h := .inl (decide_eq_true (afterElemStatus_ok h))
  ends hover := absurd hover (not_searchOver hnone)

theorem State.Right.moved (hs : s.Right) (hnone : s.lastSearch = none) (template : List UInt8) :
    State.Right { s with phase := .findCartridge template } where
  filled := hs.filled
  truthful h := by cases h
  ends h := absurd h (not_searchOver hnone)

theorem State.Right.found_iff (hs : s.Right) (hdrive : s.OfDrive)
    (hphase : s.phase = .findCartridge template) (info : SmcElementInfo) (passedEnd : Bool) :
    State.Right { s with lastSearch := some (.ok ⟨some info, passedEnd⟩),
                         phase := afterSearch template info, filled := s.filled && !passedEnd } ↔
      Found.Fits template ⟨some info, passedEnd⟩ := by
  have hname := hdrive.template template hphase
  have hloaded := hdrive.loaded fun rc hrc => by cases hphase.symm.trans hrc
  constructor
  · intro h
    have hfilled : (s.filled && !passedEnd) = true := h.filled
    refine ⟨by simpa [hs.filled] using hfilled, info, rfl, ?_⟩
    by_cases hslot : info.elementType = 2
    · have hreturned : afterSearch template info = .returned RBT_OK := if_pos hslot
      rcases h.truthful hreturned with hempty | ⟨info', _, hlast, -, hsame, hlabel⟩
      · exact absurd (hloaded.symm.trans hempty) Bool.false_ne_true
      · cases hlast
        exact ⟨hsame.trans hname, fun _ hnil => hlabel (hsame.trans (hname.trans hnil))⟩
    · refine ⟨by_contra fun hother => ?_, fun h => absurd h hslot⟩
      have hwaits : afterSearch template info = .findCartridge template := if_neg hslot
      obtain ⟨rc, hrc⟩ := h.ends (.inr ⟨_, rfl, fun ⟨info', hinfo, hsame⟩ => by
        cases hinfo
        exact hother (hsame.trans hname)⟩)
      cases hwaits.symm.trans hrc
  · rintro ⟨hpassed, info', hinfo, hsame, hlabel⟩
    cases hinfo
    refine ⟨by simpa [hs.filled] using hpassed, fun h => .inr ?_, ?_⟩
    · have hslot : info.elementType = 2 := by
        by_contra hslot
        have hwaits : afterSearch template info = .findCartridge template := if_neg hslot
        cases hwaits.symm.trans h
      exact ⟨info, passedEnd, rfl, hslot, hsame.trans hname.symm, hsame ▸ hlabel hslot⟩
    · rintro (⟨e, he⟩ | ⟨found, hfound, hother⟩)
      · cases he
      · cases hfound
        exact absurd ⟨info, rfl, hsame.trans hname.symm⟩ hother

theorem right_smc_dismount_iff (hs : s.Right) (hdrive : s.OfDrive) (answer : Answer) :
    (smc_dismount robotInfo drvord vid s answer).Right ↔ Reports robotInfo s answer := by
  unfold smc_dismount Reports
  cases hphase : s.phase with
  | readElemStatus n =>
    have hnone := hdrive.unsearched (by simp [hphase]) (by simp [hphase])
    cases answer with
    | elemStatus reply =>
      rcases reply with e | _ | info
      · exact iff_of_true (hs.failed e s.lastSearch) (by simp)
      · exact iff_of_false (fun h => Bool.false_ne_true h.filled) fun h => h rfl
      · exact iff_of_true (hs.elemStatus hnone info) (by simp)
    | moved reply => exact iff_of_true hs trivial
    | searched replies garbage => exact iff_of_true hs trivial
  | moveMedium source destination invert =>
    have hnone := hdrive.unsearched (by simp [hphase]) (by simp [hphase])
    cases answer with
    | elemStatus reply => exact iff_of_true hs trivial
    | moved reply =>
      rcases reply with e | _
      · exact iff_of_true (hs.failed e s.lastSearch) trivial
      · exact iff_of_true (hs.moved hnone _) trivial
    | searched replies garbage => exact iff_of_true hs trivial
  | findCartridge template =>
    cases answer with
    | elemStatus reply => exact iff_of_true hs trivial
    | moved reply => exact iff_of_true hs trivial
    | searched replies garbage =>
      rcases hfound : smc_find_cartridge robotInfo template replies with e | ⟨_ | info, passedEnd⟩
      · simp only [hfound]
        exact iff_of_true (hs.failed e _) (by simp)
      · simp only [hfound, Except.ok.injEq, forall_eq']
        exact iff_of_false (fun h => Bool.false_ne_true h.filled) fun ⟨_, _, helement, _⟩ => by
          cases helement
      · simp only [hfound, Except.ok.injEq, forall_eq']
        exact hs.found_iff hdrive hphase info passedEnd
  | returned rc => exact iff_of_true hs (by cases answer <;> trivial)

theorem afterElemStatus_ne (n : Nat) (info : SmcElementInfo) (template : List UInt8) :
    afterElemStatus robotInfo drvord vid n info ≠ .findCartridge template := by
  unfold afterElemStatus
  dsimp only
  split_ifs
  · simp
  · simp
  · unfold afterReads
    split_ifs <;> simp

theorem State.OfDrive.next (hs : s.OfDrive) (answer : Answer) :
    (smc_dismount robotInfo drvord vid s answer).OfDrive := by
  unfold smc_dismount
  cases hphase : s.phase with
  | readElemStatus n =>
    have hloaded := hs.loaded (by simp [hphase])
    have hnone := hs.unsearched (by simp [hphase]) (by simp [hphase])
    cases answer with
    | elemStatus reply =>
      rcases reply with e | _ | info
      · exact .returned _ rfl
      · exact ⟨fun template h => absurd h (afterElemStatus_ne _ _ template), fun _ => hloaded,
          fun _ _ => hnone⟩
      · refine ⟨fun template h => absurd h (afterElemStatus_ne _ _ template), fun h => ?_,
          fun _ _ => hnone⟩
        by_contra hempty
        exact h RBT_OK (if_pos (by simpa using hempty))
    | moved reply => exact hs
    | searched replies garbage => exact hs
  | moveMedium source destination invert =>
    have hloaded := hs.loaded (by simp [hphase])
    cases answer with
    | elemStatus reply => exact hs
    | moved reply =>
      rcases reply with e | _
      · exact .returned _ rfl
      · exact ⟨fun template h => Phase.findCartridge.inj h, fun _ => hloaded,
          fun _ hne => absurd rfl (hne _)⟩
    | searched replies garbage => exact hs
  | findCartridge template =>
    have hloaded := hs.loaded (by simp [hphase])
    have hname : ∀ info template', afterSearch template info = .findCartridge template' →
        s.driveElementInfo.name = template' := by
      intro info template' h
      unfold afterSearch at h
      split_ifs at h
      exact (hs.template template hphase).trans (Phase.findCartridge.inj h)
    have hover : ∀ {last : Option (Except ScsiError Found)} (info : SmcElementInfo),
        (∀ rc, afterSearch template info ≠ .returned rc) →
        (∀ template', afterSearch template info ≠ .findCartridge template') → last = none := by
      intro last info hret hfind
      unfold afterSearch at hret hfind
      split_ifs at hret hfind
      · exact absurd rfl (hret _)
      · exact absurd rfl (hfind _)
    cases answer with
    | elemStatus reply => exact hs
    | moved reply => exact hs
    | searched replies garbage =>
      rcases hfound : smc_find_cartridge robotInfo template replies with e | ⟨_ | info, passedEnd⟩
      · simp only [hfound]
        exact .returned _ rfl
      · simp only [hfound]
        exact ⟨hname garbage, fun _ => hloaded, hover garbage⟩
      · simp only [hfound]
        exact ⟨hname info, fun _ => hloaded, hover info⟩
  | returned rc => cases answer <;> exact hs

theorem right_start (garbage : SmcElementInfo) : (start garbage).Right where
  filled := rfl
  truthful h := by cases h
  ends hover := absurd hover (not_searchOver rfl)

theorem ofDrive_start (garbage : SmcElementInfo) : (start garbage).OfDrive where
  template _ h := by cases h
  loaded _ := rfl
  unsearched _ _ := rfl

end

/-- Whatever the library answers, the dismount is right all along if and only if no element status
comes without an element and each search finds the cartridge, in a slot by its label. -/
theorem dismount_right_iff (robotInfo : RobotInfo) (drvord : Nat) (vid : List UInt8)
    (garbage : SmcElementInfo) (answers : List Answer) :
    AllStates (smc_dismount robotInfo drvord vid) State.Right (start garbage) answers ↔
      AllSteps (smc_dismount robotInfo drvord vid) (Reports robotInfo) (start garbage) answers :=
  allStates_iff_allSteps (fun _ answer hdrive hs => right_smc_dismount_iff hs hdrive answer)
    (fun _ answer hdrive _ _ => hdrive.next answer) (ofDrive_start garbage)
    (right_start garbage)

def library : RobotInfo := ⟨ascii "OTHER", 0, 1, 1, 10, 20, 1, 256, 1, by decide⟩

def unloadedDrive : SmcElementInfo :=
  ⟨256, 4, 9, 0, 0, 0, 1, ascii "V00001", by decide⟩

def nothingFound : SearchReplies :=
  ⟨.ok (), .ok none, .ok (), .ok (), .ok [], fun _ => 1⟩

theorem dismount_waits_for_nothing :
    ¬AllStates (smc_dismount library 0 []) State.Right (start unloadedDrive)
      [.elemStatus (.ok (some unloadedDrive)), .moved (.ok ()),
        .searched nothingFound unloadedDrive] := by
  intro h
  have hwaits : ([Answer.elemStatus (.ok (some unloadedDrive)), .moved (.ok ()),
      .searched nothingFound unloadedDrive].foldl (smc_dismount library 0 [])
        (start unloadedDrive)).phase = .findCartridge (ascii "V00001") := by decide +kernel
  obtain ⟨rc, hrc⟩ := h.last.ends (.inr ⟨_, rfl, fun ⟨_, hnone, _⟩ => by cases hnone⟩)
  cases hwaits.symm.trans hrc

end Cta.MediaChanger.SmcDismount

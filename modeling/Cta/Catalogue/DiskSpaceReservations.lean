import Cta.Catalogue.DriveState
import Cta.Lib.Runs
import Mathlib.Algebra.Ring.Nat
import Mathlib.Data.UInt

/-! The disk space that the mounts reserve, in the rows of their drives. -/
namespace Cta.Catalogue.DiskSpaceReservations
open Cta.Catalogue.DriveState Cta.Lib.Runs

structure DiskSpaceReservationRequest where
  entries : List (String × UInt64)
  sorted : entries.Pairwise (·.1 < ·.1)

def DiskSpaceReservationRequest.bytes (request : DiskSpaceReservationRequest)
    (diskSystem : String) : Nat :=
  ((request.entries.filter (·.1 = diskSystem)).map (·.2.toNat)).sum

def reservedFor (diskSystem : String) (mountId : Nat) (row : TapeDrive) : Bool :=
  row.diskSystemName = some diskSystem ∧ row.reservationSessionId = some mountId

/-- Only the first disk system of a request counts. A reservation for another disk system or mount
than the row's takes its place. -/
def reserveDiskSpace (t : Table) (driveName : String) (mountId : Nat)
    (diskSpaceReservation : DiskSpaceReservationRequest) : Table :=
  match diskSpaceReservation.entries with
  | [] => t
  | (diskSystem, bytes) :: _ =>
    if (t.getTapeDrive driveName).any (reservedFor diskSystem mountId) then
      t.update driveName
        (fun row => { row with reservedBytes := row.reservedBytes.map (· + bytes.toNat) })
        fun _ => rfl
    else
      t.update driveName
        (fun row => { row with
          diskSystemName := some diskSystem
          reservedBytes := some bytes.toNat
          reservationSessionId := some mountId })
        fun _ => rfl

def remaining (reservedBytes : Option Nat) (bytesToSubtract : Nat) : Nat :=
  match reservedBytes with
  | some bytes => if bytes > bytesToSubtract then bytes - bytesToSubtract else 0
  | none => 0

def releaseDiskSpace (t : Table) (driveName : String) (mountId : Nat)
    (diskSpaceReservation : DiskSpaceReservationRequest) : Table :=
  match diskSpaceReservation.entries with
  | [] => t
  | (diskSystem, bytes) :: _ =>
    if (t.getTapeDrive driveName).any (reservedFor diskSystem mountId) then
      t.update driveName
        (fun row => { row with reservedBytes := some (remaining row.reservedBytes bytes.toNat) })
        fun _ => rfl
    else t

def columnOptionalUint64 : Option Nat → Option (Option UInt64)
  | none => some none
  | some n => if n < 2 ^ 64 then some (some (.ofNat n)) else none

def addReservation (t : Table) (ret : String → UInt64) (driveName : String) :
    Option (String → UInt64) := do
  let tdStatus ← t.getTapeDrive driveName
  let reservedBytes ← columnOptionalUint64 tdStatus.reservedBytes
  match tdStatus.diskSystemName with
  | none => some ret
  | some diskSystem =>
    reservedBytes.map fun bytes => Function.update ret diskSystem (ret diskSystem + bytes)

/-- The bytes reserved by disk system, zero for those that are not in the map. -/
def getDiskSpaceReservations (t : Table) : Option (String → UInt64) :=
  t.getTapeDriveNames.foldlM (addReservation t) fun _ => 0

/-- The mount of a drive that reserved last, with what it has reserved and not yet released on each
disk system. -/
structure MountLedger where
  mount : Option Nat := none
  reserved : String → Nat := fun _ => 0

def MountLedger.reserve (l : MountLedger) (mountId : Nat)
    (request : DiskSpaceReservationRequest) : MountLedger :=
  if request.entries = [] then l
  else
    { mount := some mountId
      reserved := fun diskSystem =>
        (if l.mount = some mountId then l.reserved diskSystem else 0) + request.bytes diskSystem }

def MountLedger.release (l : MountLedger) (mountId : Nat)
    (request : DiskSpaceReservationRequest) : MountLedger :=
  if l.mount = some mountId then
    { l with reserved := fun diskSystem => l.reserved diskSystem - request.bytes diskSystem }
  else l

structure State where
  drives : Table
  ledger : String → MountLedger := fun _ => {}

inductive Call
  | reserve (driveName : String) (mountId : Nat) (request : DiskSpaceReservationRequest)
  | release (driveName : String) (mountId : Nat) (request : DiskSpaceReservationRequest)

def next (s : State) : Call → State
  | .reserve driveName mountId request =>
    { drives := reserveDiskSpace s.drives driveName mountId request
      ledger := Function.update s.ledger driveName
        ((s.ledger driveName).reserve mountId request) }
  | .release driveName mountId request =>
    { drives := releaseDiskSpace s.drives driveName mountId request
      ledger := Function.update s.ledger driveName
        ((s.ledger driveName).release mountId request) }

/-- The calls of mounts: their drives are registered, and a mount releases no more than it has
reserved. -/
def OfMount (s : State) : Call → Prop
  | .reserve driveName _ _ => driveName ∈ s.drives.getTapeDriveNames
  | .release driveName mountId request =>
    driveName ∈ s.drives.getTapeDriveNames ∧ (s.ledger driveName).mount = some mountId ∧
      ∀ diskSystem, request.bytes diskSystem ≤ (s.ledger driveName).reserved diskSystem

def State.total (s : State) (diskSystem : String) : Nat :=
  (s.drives.getTapeDriveNames.map fun name => (s.ledger name).reserved diskSystem).sum

def Reported (s : State) : Prop :=
  ∃ ret, getDiskSpaceReservations s.drives = some ret ∧
    ∀ diskSystem, ret diskSystem = .ofNat (s.total diskSystem)

/-- A request names one disk system at most, a mount leaves a disk system for another one only when
nothing is left reserved on it, and the bytes of a drive fit in 64 bits. -/
def OneSystem (s : State) : Call → Prop
  | .reserve driveName mountId request =>
    request.entries.length ≤ 1 ∧
      (∀ entry ∈ request.entries, (s.ledger driveName).mount = some mountId →
        ∀ diskSystem ≠ entry.1, (s.ledger driveName).reserved diskSystem = 0) ∧
      ∀ diskSystem,
        ((s.ledger driveName).reserve mountId request).reserved diskSystem < 2 ^ 64
  | .release _ _ request => request.entries.length ≤ 1

inductive Agrees (row : TapeDrive) (l : MountLedger) : Prop
  | unused : l.mount = none → (∀ x, l.reserved x = 0) → row.diskSystemName = none →
      row.reservedBytes = none → Agrees row l
  | reserved (mountId : Nat) (diskSystem : String) (bytes : Nat) :
      l.mount = some mountId → (∀ x, l.reserved x = if x = diskSystem then bytes else 0) →
      row.diskSystemName = some diskSystem → row.reservedBytes = some bytes →
      row.reservationSessionId = some mountId → bytes < 2 ^ 64 → Agrees row l

def Sound (s : State) : Prop := ∀ row ∈ s.drives.rows, Agrees row (s.ledger row.driveName)

section
variable {row : TapeDrive} {l : MountLedger} {request : DiskSpaceReservationRequest}
  {mountId : Nat} {diskSystem : String} {bytes : UInt64} {s : State} {driveName : String}

theorem bytes_single (h : request.entries = [(diskSystem, bytes)]) (x : String) :
    request.bytes x = if x = diskSystem then bytes.toNat else 0 := by
  rw [DiskSpaceReservationRequest.bytes, h]
  by_cases hx : x = diskSystem
  · simp [hx]
  · simp [hx, Ne.symm hx]

theorem MountLedger.reserve_of_single (h : request.entries = [(diskSystem, bytes)]) :
    l.reserve mountId request =
      { mount := some mountId
        reserved := fun x => (if l.mount = some mountId then l.reserved x else 0) +
          if x = diskSystem then bytes.toNat else 0 } := by
  have hne : request.entries ≠ [] := by simp [h]
  rw [reserve, if_neg hne]
  simp only [bytes_single h]

theorem Agrees.add (h : Agrees row l) (hreq : request.entries = [(diskSystem, bytes)])
    (hrow : reservedFor diskSystem mountId row = true)
    (hfits : (l.reserve mountId request).reserved diskSystem < 2 ^ 64) :
    Agrees { row with reservedBytes := row.reservedBytes.map (· + bytes.toNat) }
      (l.reserve mountId request) := by
  obtain ⟨hname, hsession⟩ := of_decide_eq_true hrow
  cases h with
  | unused hmount hzero hnone hbytes => simp [hname] at hnone
  | reserved m d b hmount hreserved hd hb hm hlt =>
    obtain rfl : m = mountId := by simpa [hm] using hsession
    obtain rfl : d = diskSystem := by simpa [hd] using hname
    rw [MountLedger.reserve_of_single hreq] at hfits ⊢
    refine .reserved m d (b + bytes.toNat) rfl (fun x => ?_) hd (by simp [hb]) hm ?_
    · simp only [hmount, if_true, hreserved x]
      split <;> rfl
    · simpa [hmount, hreserved] using hfits

theorem Agrees.replace (h : Agrees row l) (hreq : request.entries = [(diskSystem, bytes)])
    (hrow : reservedFor diskSystem mountId row = false)
    (hother : l.mount = some mountId → ∀ x ≠ diskSystem, l.reserved x = 0) :
    Agrees { row with
      diskSystemName := some diskSystem
      reservedBytes := some bytes.toNat
      reservationSessionId := some mountId } (l.reserve mountId request) := by
  have hbefore : ∀ x, (if l.mount = some mountId then l.reserved x else 0) = 0 := by
    intro x
    split
    · next hmount =>
      cases h with
      | unused hnone => simp [hmount] at hnone
      | reserved m d b hm hreserved hd hb hsession hlt =>
        obtain rfl : m = mountId := by simpa [hmount] using hm.symm
        have hne : d ≠ diskSystem := by
          rintro rfl
          simp [reservedFor, hd, hsession] at hrow
        have hzero : b = 0 := by simpa [hreserved] using hother hmount d hne
        simp [hreserved, hzero]
    · rfl
  rw [MountLedger.reserve_of_single hreq]
  refine .reserved mountId diskSystem bytes.toNat rfl (fun x => ?_) rfl rfl rfl bytes.toNat_lt
  simp only [hbefore, Nat.zero_add]

theorem Agrees.subtract (h : Agrees row l) (hreq : request.entries = [(diskSystem, bytes)])
    (hrow : reservedFor diskSystem mountId row = true) :
    Agrees { row with reservedBytes := some (remaining row.reservedBytes bytes.toNat) }
      (l.release mountId request) := by
  obtain ⟨hname, hsession⟩ := of_decide_eq_true hrow
  cases h with
  | unused hmount hzero hnone hbytes => simp [hname] at hnone
  | reserved m d b hmount hreserved hd hb hm hlt =>
    obtain rfl : m = mountId := by simpa [hm] using hsession
    obtain rfl : d = diskSystem := by simpa [hd] using hname
    rw [MountLedger.release, if_pos hmount]
    refine .reserved m d (b - bytes.toNat) hmount (fun x => ?_) hd ?_ hm (by omega)
    · simp only [hreserved x, bytes_single hreq]
      split
      · rfl
      · exact Nat.sub_zero 0
    · simp only [hb, remaining, Option.some.injEq]
      split <;> omega

theorem Agrees.ignore (h : Agrees row l) (hreq : request.entries = [(diskSystem, bytes)])
    (hrow : reservedFor diskSystem mountId row = false) :
    Agrees row (l.release mountId request) := by
  rw [MountLedger.release]
  split
  · next hmount =>
    cases h with
    | unused hnone => simp [hmount] at hnone
    | reserved m d b hm hreserved hd hb hsession hlt =>
      obtain rfl : m = mountId := by simpa [hmount] using hm.symm
      have hne : d ≠ diskSystem := by
        rintro rfl
        simp [reservedFor, hd, hsession] at hrow
      refine .reserved m d b hmount (fun x => ?_) hd hb hsession hlt
      simp only [hreserved x, bytes_single hreq]
      split
      · next hx => simp [hx, hne]
      · exact Nat.zero_sub _
  · exact h

theorem exists_row {t : Table} (h : driveName ∈ t.getTapeDriveNames) :
    ∃ row ∈ t.rows, row.driveName = driveName ∧ t.getTapeDrive driveName = some row := by
  obtain ⟨row, hrow, hname⟩ := List.mem_map.mp h
  exact ⟨row, hrow, hname, Table.getTapeDrive_eq_some.mpr ⟨hrow, hname⟩⟩

theorem Sound.update (hs : Sound s) {l' : MountLedger} {change : TapeDrive → TapeDrive}
    {hname : ∀ row, (change row).driveName = row.driveName}
    (h : ∀ row ∈ s.drives.rows, row.driveName = driveName →
      Agrees row (s.ledger driveName) → Agrees (change row) l') :
    Sound ⟨s.drives.update driveName change hname,
      Function.update s.ledger driveName l'⟩ := by
  intro row hrow
  rw [Table.update_rows] at hrow
  obtain ⟨old, hold, rfl⟩ := List.mem_map.mp hrow
  by_cases hdrive : old.driveName = driveName
  · rw [if_pos hdrive]
    simp only [hname, hdrive, Function.update_self]
    exact h old hold hdrive (hdrive ▸ hs old hold)
  · simp only [if_neg hdrive, Function.update_of_ne hdrive]
    exact hs old hold

theorem Sound.keep (hs : Sound s) {l' : MountLedger}
    (h : ∀ row ∈ s.drives.rows, row.driveName = driveName →
      Agrees row (s.ledger driveName) → Agrees row l') :
    Sound ⟨s.drives, Function.update s.ledger driveName l'⟩ := by
  intro row hrow
  by_cases hdrive : row.driveName = driveName
  · simp only [hdrive, Function.update_self]
    exact h row hrow hdrive (hdrive ▸ hs row hrow)
  · simp only [Function.update_of_ne hdrive]
    exact hs row hrow

theorem any_getTapeDrive {t : Table} {p : TapeDrive → Bool} (hrow : row ∈ t.rows)
    (hname : row.driveName = driveName) : (t.getTapeDrive driveName).any p = p row := by
  rw [Table.getTapeDrive_eq_some.mpr ⟨hrow, hname⟩, Option.any_some]

theorem entries_cases (h : request.entries.length ≤ 1) :
    request.entries = [] ∨ ∃ diskSystem bytes, request.entries = [(diskSystem, bytes)] := by
  cases hreq : request.entries with
  | nil => exact .inl rfl
  | cons entry rest =>
    have hrest : rest = [] := by
      rw [hreq, List.length_cons] at h
      exact List.length_eq_zero_iff.mp (by omega)
    exact .inr ⟨entry.1, entry.2, by rw [hrest]⟩

theorem Sound.reserve (hs : Sound s)
    (h : OneSystem s (.reserve driveName mountId request)) :
    Sound (next s (.reserve driveName mountId request)) := by
  obtain ⟨hone, hother, hfits⟩ := h
  rw [next, reserveDiskSpace]
  cases entries_cases hone with
  | inl hnil =>
    have hsame : (s.ledger driveName).reserve mountId request = s.ledger driveName := by
      rw [MountLedger.reserve, if_pos hnil]
    simp only [hnil, hsame, Function.update_eq_self]
    exact hs
  | inr hreq =>
    obtain ⟨diskSystem, bytes, hreq⟩ := hreq
    simp only [hreq]
    split
    · next hany =>
      refine hs.update fun row hrow hname hagrees => hagrees.add hreq ?_ (hfits diskSystem)
      rwa [any_getTapeDrive hrow hname] at hany
    · next hany =>
      refine hs.update fun row hrow hname hagrees => hagrees.replace hreq ?_ ?_
      · rw [any_getTapeDrive hrow hname] at hany
        exact Bool.eq_false_iff.mpr hany
      · exact hother (diskSystem, bytes) (by simp [hreq])

theorem MountLedger.release_of_nil (h : request.entries = []) : l.release mountId request = l := by
  rw [release]
  split
  · simp [DiskSpaceReservationRequest.bytes, h]
  · rfl

theorem Sound.release (hs : Sound s)
    (h : OneSystem s (.release driveName mountId request)) :
    Sound (next s (.release driveName mountId request)) := by
  rw [next, releaseDiskSpace]
  cases entries_cases h with
  | inl hnil =>
    simp only [hnil, MountLedger.release_of_nil hnil, Function.update_eq_self]
    exact hs
  | inr hreq =>
    obtain ⟨diskSystem, bytes, hreq⟩ := hreq
    simp only [hreq]
    split
    · next hany =>
      refine hs.update fun row hrow hname hagrees => hagrees.subtract hreq ?_
      rwa [any_getTapeDrive hrow hname] at hany
    · next hany =>
      refine hs.keep fun row hrow hname hagrees => hagrees.ignore hreq ?_
      rw [any_getTapeDrive hrow hname] at hany
      exact Bool.eq_false_iff.mpr hany

theorem Sound.step {c : Call} (hs : Sound s) (h : OneSystem s c) : Sound (next s c) := by
  cases c with
  | reserve => exact hs.reserve h
  | release => exact hs.release h

theorem Agrees.addReservation {t : Table} (h : Agrees row l)
    (hrow : t.getTapeDrive driveName = some row) (ret : String → UInt64) :
    ∃ ret', addReservation t ret driveName = some ret' ∧
      ∀ x, ret' x = ret x + .ofNat (l.reserved x) := by
  cases h with
  | unused hmount hzero hnone hbytes =>
    refine ⟨ret, ?_, fun x => by simp [hzero]⟩
    simp [DiskSpaceReservations.addReservation, hrow, hnone, hbytes, columnOptionalUint64]
  | reserved m d b hmount hreserved hd hb hm hlt =>
    have hcolumn : columnOptionalUint64 row.reservedBytes = some (some (.ofNat b)) := by
      rw [hb]
      exact if_pos hlt
    refine ⟨Function.update ret d (ret d + .ofNat b), ?_, fun x => ?_⟩
    · simp [DiskSpaceReservations.addReservation, hrow, hd, hcolumn]
    · by_cases hx : x = d
      · simp [hreserved, hx]
      · simp [hreserved, hx]

theorem Sound.foldlM (hs : Sound s) (names : List String)
    (hnames : ∀ name ∈ names, name ∈ s.drives.getTapeDriveNames) (ret : String → UInt64) :
    ∃ ret', names.foldlM (DiskSpaceReservations.addReservation s.drives) ret = some ret' ∧
      ∀ x, ret' x = ret x +
        .ofNat ((names.map fun name => (s.ledger name).reserved x).sum) := by
  induction names generalizing ret with
  | nil => exact ⟨ret, rfl, fun x => by simp⟩
  | cons name names ih =>
    obtain ⟨row, hrow, rfl, hfound⟩ := exists_row (hnames _ List.mem_cons_self)
    obtain ⟨ret', hret', hsum'⟩ := (hs row hrow).addReservation hfound ret
    obtain ⟨ret'', hret'', hsum''⟩ :=
      ih (fun name hname => hnames name (List.mem_cons_of_mem _ hname)) ret'
    refine ⟨ret'', by rw [List.foldlM_cons, hret', Option.bind_eq_bind, Option.bind_some, hret''],
      fun x => ?_⟩
    rw [hsum'', hsum', List.map_cons, List.sum_cons, UInt64.ofNat_add, UInt64.add_assoc]

theorem Sound.reported (hs : Sound s) : Reported s := by
  obtain ⟨ret, hret, hsum⟩ := hs.foldlM s.drives.getTapeDriveNames (fun _ => id) fun _ => 0
  exact ⟨ret, hret, fun x => by rw [hsum, UInt64.zero_add, State.total]⟩

theorem getTapeDriveNames_next {c : Call} :
    (next s c).drives.getTapeDriveNames = s.drives.getTapeDriveNames := by
  cases c with
  | reserve driveName mountId request =>
    rw [next, reserveDiskSpace]
    split
    · rfl
    · split
      · rw [Table.getTapeDriveNames_update]
      · rw [Table.getTapeDriveNames_update]
  | release driveName mountId request =>
    rw [next, releaseDiskSpace]
    split
    · rfl
    · split
      · rw [Table.getTapeDriveNames_update]
      · rfl

theorem MountLedger.release_reserve (h : l.mount = some mountId ∨ ∀ x, l.reserved x = 0)
    (x : String) :
    ((l.reserve mountId request).release mountId request).reserved x = l.reserved x := by
  by_cases hreq : request.entries = []
  · rw [release_of_nil hreq, reserve, if_pos hreq]
  · have hbefore : (if l.mount = some mountId then l.reserved x else 0) = l.reserved x := by
      cases h with
      | inl hmount => rw [if_pos hmount]
      | inr hzero => rw [hzero, ite_self]
    rw [reserve, if_neg hreq, release, if_pos rfl]
    simp only [hbefore, Nat.add_sub_cancel]

end

/-- A reservation and the release of the same request leave the reported reservations as they were,
if the mount is the one that reserved last on its drive or nothing was left of an earlier one. -/
def Restores (s : State) : Prop :=
  ∀ driveName mountId request, OfMount s (.reserve driveName mountId request) →
    OneSystem s (.reserve driveName mountId request) →
    ((s.ledger driveName).mount = some mountId ∨ ∀ x, (s.ledger driveName).reserved x = 0) →
    getDiskSpaceReservations (next (next s (.reserve driveName mountId request))
      (.release driveName mountId request)).drives = getDiskSpaceReservations s.drives

theorem Sound.restores {s : State} (hs : Sound s) : Restores s := by
  intro driveName mountId request _ hone hmount
  have hlater := (hs.step hone).step (c := .release driveName mountId request) hone.1
  obtain ⟨before, hbefore, hsum⟩ := hs.reported
  obtain ⟨after, hafter, hsum'⟩ := hlater.reported
  rw [hafter, hbefore]
  refine congrArg some (funext fun x => ?_)
  rw [hsum, hsum', State.total, State.total, getTapeDriveNames_next, getTapeDriveNames_next]
  have hledger : ∀ name, ((next (next s (.reserve driveName mountId request))
      (.release driveName mountId request)).ledger name).reserved x =
        (s.ledger name).reserved x := by
    intro name
    by_cases hname : name = driveName
    · subst hname
      simp only [next, Function.update_self]
      exact MountLedger.release_reserve hmount x
    · simp only [next, Function.update_of_ne hname]
  simp only [hledger]

def Unreserved (t : Table) : Prop :=
  ∀ row ∈ t.rows, row.diskSystemName = none ∧ row.reservedBytes = none

/-- With one disk system at a time the reported reservations are those of the mounts, whatever the
drives and the order of their calls. -/
theorem reservations_reported (t : Table) (calls : List Call) (ht : Unreserved t)
    (h : AllSteps next (fun s c => OfMount s c ∧ OneSystem s c) { drives := t } calls) :
    AllStates next (fun s => Reported s ∧ Restores s) { drives := t } calls :=
  h.allStates (fun _ _ hs hc => Sound.step hs hc.2)
    (fun _ hs => ⟨Sound.reported hs, hs.restores⟩)
    fun row hrow => .unused rfl (fun _ => rfl) (ht row hrow).1 (ht row hrow).2

def idleDrive (driveName : String) : TapeDrive where
  driveName := driveName
  host := "tpsrv01"
  logicalLibrary := "library"
  desiredUp := true
  desiredForceDown := false

def twoDrives : State where
  drives := ⟨[idleDrive "drive0", idleDrive "drive1"], by decide +kernel⟩

def requestOf (diskSystem : String) (bytes : UInt64) : DiskSpaceReservationRequest :=
  ⟨[(diskSystem, bytes)], List.pairwise_singleton _ _⟩

def requestOfTwo : DiskSpaceReservationRequest :=
  ⟨[("disk0", 1), ("disk1", 2)], by decide +kernel⟩

theorem bytes_requestOf (diskSystem : String) (bytes : UInt64) (x : String) :
    (requestOf diskSystem bytes).bytes x = if x = diskSystem then bytes.toNat else 0 := by
  have hentries : (requestOf diskSystem bytes).entries = [(diskSystem, bytes)] := rfl
  exact bytes_single hentries x

theorem reservations_reported_two_drives :
    AllStates next (fun s => Reported s ∧ Restores s) twoDrives
      [.reserve "drive0" 1 (requestOf "disk0" 5), .release "drive0" 1 (requestOf "disk0" 5)] := by
  have hdrive : "drive0" ∈ twoDrives.drives.getTapeDriveNames := by decide +kernel
  have hreserved : ∀ x, ((twoDrives.ledger "drive0").reserve 1 (requestOf "disk0" 5)).reserved x =
      (requestOf "disk0" 5).bytes x := fun x => Nat.zero_add _
  refine reservations_reported twoDrives.drives _ ?_
    ⟨⟨hdrive, Nat.le_refl 1, ?_, ?_⟩, ⟨⟨?_, rfl, ?_⟩, Nat.le_refl 1⟩, trivial⟩
  · intro row hrow
    have hrows : twoDrives.drives.rows = [idleDrive "drive0", idleDrive "drive1"] := rfl
    simp only [hrows, List.mem_cons, List.not_mem_nil, or_false] at hrow
    cases hrow with
    | inl h => exact h ▸ ⟨rfl, rfl⟩
    | inr h => exact h ▸ ⟨rfl, rfl⟩
  · intro _ _ hmount
    cases hmount
  · intro x
    refine lt_of_eq_of_lt ((hreserved x).trans (bytes_requestOf "disk0" 5 x)) ?_
    split <;> decide
  · rw [getTapeDriveNames_next]
    exact hdrive
  · intro x
    rw [next]
    simp only [Function.update_self]
    exact Nat.le_of_eq (hreserved x).symm

theorem not_reported_of_value {s : State} (diskSystem : String) (bytes : UInt64)
    (hret : (getDiskSpaceReservations s.drives).map (· diskSystem) = some bytes)
    (hne : bytes ≠ .ofNat (s.total diskSystem)) : ¬Reported s := by
  rintro ⟨ret, hsome, hsum⟩
  rw [hsome, Option.map_some, Option.some.injEq] at hret
  exact hne (hret ▸ hsum diskSystem)

theorem ofMount_reserves {s : State} {calls : List Call}
    (h : ∀ c ∈ calls, ∃ driveName mountId request,
      c = .reserve driveName mountId request ∧ driveName ∈ s.drives.getTapeDriveNames) :
    AllSteps next OfMount s calls := by
  induction calls generalizing s with
  | nil => trivial
  | cons c calls ih =>
    refine ⟨?_, ih fun d hd => ?_⟩
    · obtain ⟨driveName, mountId, request, rfl, hname⟩ := h c List.mem_cons_self
      exact hname
    · rw [getTapeDriveNames_next]
      exact h d (List.mem_cons_of_mem c hd)

/-- The reservations after these calls are those of the mounts, if the calls are. -/
def ReportedAfter (calls : List Call) : Prop :=
  AllSteps next OfMount twoDrives calls → Reported (calls.foldl next twoDrives)

/-- A request for two disk systems, a disk system left with bytes reserved on it, and more bytes
than fit in 64 bits. The release of a request does not bring back what its reservation replaced. -/
theorem reservations_not_reported :
    ¬ReportedAfter [.reserve "drive0" 1 requestOfTwo] ∧
    ¬ReportedAfter [.reserve "drive0" 1 (requestOf "disk0" 5),
      .reserve "drive0" 1 (requestOf "disk1" 2)] ∧
    ¬ReportedAfter [.reserve "drive0" 1 (requestOf "disk0" (2 ^ 63)),
      .reserve "drive0" 1 (requestOf "disk0" (2 ^ 63))] ∧
    (let s := next twoDrives (.reserve "drive0" 1 (requestOf "disk0" 5))
     let t := next (next s (.reserve "drive0" 2 (requestOf "disk0" 2)))
      (.release "drive0" 2 (requestOf "disk0" 2))
     getDiskSpaceReservations t.drives ≠ getDiskSpaceReservations s.drives) := by
  have hdrive : "drive0" ∈ twoDrives.drives.getTapeDriveNames := by decide +kernel
  refine ⟨fun h => ?_, fun h => ?_, fun h => ?_, fun h => ?_⟩
  · refine not_reported_of_value "disk1" 0 ?_ ?_ (h (ofMount_reserves ?_))
    · decide +kernel
    · decide +kernel
    · simpa using hdrive
  · refine not_reported_of_value "disk0" 0 ?_ ?_ (h (ofMount_reserves ?_))
    · decide +kernel
    · decide +kernel
    · simpa using hdrive
  · obtain ⟨ret, hret, -⟩ := h (ofMount_reserves (by simpa using hdrive))
    have hthrows : (getDiskSpaceReservations
        ([.reserve "drive0" 1 (requestOf "disk0" (2 ^ 63)),
          .reserve "drive0" 1 (requestOf "disk0" (2 ^ 63))].foldl next
            twoDrives).drives).isNone := by
      decide +kernel
    rw [hret] at hthrows
    cases hthrows
  · have heq := congrArg (Option.map (· "disk0")) h
    revert heq
    decide +kernel

end Cta.Catalogue.DiskSpaceReservations

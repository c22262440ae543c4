import Cta.Catalogue.DiskSpaceReservations
import Cta.Lib.Transactions
import Mathlib.Algebra.Order.BigOperators.Group.List
import Mathlib.Algebra.Order.Group.Nat

/-! Whether the disk systems have the space that a retrieve mount asks for. -/
namespace Cta.Scheduler.DiskSpaceCheck
open Cta.Catalogue.DiskSpaceReservations Cta.Lib.Transactions

structure DiskInstanceSpace where
  name : String
  diskInstance : String
  freeSpaceQueryURL : String
  refreshInterval : UInt64
  deriving DecidableEq, Repr

structure DiskSystem where
  name : String
  diskInstanceSpace : DiskInstanceSpace
  targetedFreeSpace : UInt64
  sleepTime : Int
  deriving DecidableEq, Repr

def DiskSystem.url (ds : DiskSystem) : String := ds.diskInstanceSpace.freeSpaceQueryURL

inductive Failure where
  | outOfRange
  | freeDiskSpaceException
  | exception
  deriving DecidableEq, Repr

/-- What the check meets: the clock, the columns of the disk instance spaces that change, and what
the queries and the writes to the catalogue come to. -/
structure Surroundings where
  currentTime : DiskSystem → UInt64
  lastRefreshTime : DiskInstanceSpace → UInt64
  freeSpace : DiskInstanceSpace → UInt64
  query : DiskSystem → Except Failure UInt64
  modifyDiskInstanceSpaceFreeSpace : DiskInstanceSpace → UInt64 → Except Failure PUnit
  reserveDiskSpace : Except Failure PUnit

def Surroundings.fresh (w : Surroundings) (ds : DiskSystem) : Bool :=
  w.lastRefreshTime ds.diskInstanceSpace + ds.diskInstanceSpace.refreshInterval ≥ w.currentTime ds

def Surroundings.fetchFreeSpace (w : Surroundings) (ds : DiskSystem) : Except Failure UInt64 :=
  if w.fresh ds then .ok (w.freeSpace ds.diskInstanceSpace) else w.query ds

def diskSystemAt (diskSystemList : List DiskSystem) (name : String) : Except Failure DiskSystem :=
  match diskSystemList.find? (·.name = name) with
  | some ds => .ok ds
  | none => .error .outOfRange

def mapAt {α : Type} (entries : List (String × α)) (name : String) : Except Failure α :=
  match entries.lookup name with
  | some value => .ok value
  | none => .error .outOfRange

structure DiskSystemFreeSpace where
  freeSpace : UInt64
  targetedFreeSpace : UInt64
  deriving DecidableEq, Repr

/-- The free space, or nothing for a disk system that could not be queried. -/
def freeSpaceOrFailed (name : String) : Except Failure UInt64 →
    Except Failure (UInt64 × List String)
  | .ok freeSpace => .ok (freeSpace, [])
  | .error .freeDiskSpaceException => .ok (0, [name])
  | .error e => .error e

def Surroundings.keepFreeSpace (w : Surroundings) (ds : DiskSystem) (freeSpace : UInt64) :
    Except Failure PUnit :=
  if w.fresh ds then .ok ⟨⟩
  else w.modifyDiskInstanceSpaceFreeSpace ds.diskInstanceSpace freeSpace

def fetchDiskSystemFreeSpace (w : Surroundings) (diskSystemList : List DiskSystem) :
    List String → Except Failure (List (String × DiskSystemFreeSpace) × List String)
  | [] => .ok ([], [])
  | name :: names => do
    let ds ← diskSystemAt diskSystemList name
    let (freeSpace, failed) ← freeSpaceOrFailed name (w.fetchFreeSpace ds)
    w.keepFreeSpace ds freeSpace
    let (entries, others) ← fetchDiskSystemFreeSpace w diskSystemList names
    return ((name, ⟨freeSpace, ds.targetedFreeSpace⟩) :: entries, failed ++ others)

/-- Reservations of the physical space of the current disk system are added up. -/
def addPreviousReservation (diskSystemList : List DiskSystem) (diskSystem : DiskSystem)
    (total : UInt64) (reservation : String × UInt64) : Except Failure UInt64 :=
  if reservation.2 ≠ 0 then do
    let previousDiskSystem ← diskSystemAt diskSystemList reservation.1
    return if diskSystem.url = previousDiskSystem.url then total + reservation.2 else total
  else .ok total

def previousDrivesReservationTotal (diskSystemList : List DiskSystem) (diskSystem : DiskSystem)
    (reservations : DiskSpaceReservationRequest) : Except Failure UInt64 :=
  reservations.entries.foldlM (addPreviousReservation diskSystemList diskSystem) 0

/-- Reservable, or not, with the queues put to sleep and for how long. -/
inductive Decision where
  | granted
  | refused (asleep : List (String × Int))
  deriving DecidableEq, Repr

def checkFreeSpace (diskSystemList : List DiskSystem)
    (reservations request : DiskSpaceReservationRequest)
    (diskSystemFreeSpace : List (String × DiskSystemFreeSpace)) :
    List String → Except Failure Decision
  | [] => .ok .granted
  | name :: names => do
    let diskSystem ← diskSystemAt diskSystemList name
    let total ← previousDrivesReservationTotal diskSystemList diskSystem reservations
    let entry ← mapAt diskSystemFreeSpace name
    let bytes ← mapAt request.entries name
    if entry.freeSpace < bytes + entry.targetedFreeSpace + total then
      return .refused [(name, diskSystem.sleepTime)]
    else checkFreeSpace diskSystemList reservations request diskSystemFreeSpace names

def sleepTimes (diskSystemList : List DiskSystem) (names : List String) :
    Except Failure (List (String × Int)) :=
  names.mapM fun name => (diskSystemAt diskSystemList name).map fun ds => (name, ds.sleepTime)

def decideReservation (w : Surroundings) (diskSystemList : List DiskSystem)
    (previousDrivesReservations diskSpaceReservationRequest : DiskSpaceReservationRequest) :
    Except Failure Decision := do
  let diskSystemNames := diskSpaceReservationRequest.entries.map (·.1)
  let (diskSystemFreeSpace, failedDiskSystems) ←
    fetchDiskSystemFreeSpace w diskSystemList diskSystemNames
  if failedDiskSystems = [] then
    checkFreeSpace diskSystemList previousDrivesReservations diskSpaceReservationRequest
      diskSystemFreeSpace diskSystemNames
  else return .refused (← sleepTimes diskSystemList failedDiskSystems)

def testReserveDiskSpace (w : Surroundings) (diskSystemList : List DiskSystem)
    (previousDrivesReservations diskSpaceReservationRequest : DiskSpaceReservationRequest) :
    Except Failure Bool := do
  match ← decideReservation w diskSystemList previousDrivesReservations
    diskSpaceReservationRequest with
  | .granted => return true
  | .refused _ => return false

def reserveDiskSpace (w : Surroundings) (diskSystemList : List DiskSystem)
    (previousDrivesReservations diskSpaceReservationRequest : DiskSpaceReservationRequest) :
    Except Failure Bool := do
  match ← decideReservation w diskSystemList previousDrivesReservations
    diskSpaceReservationRequest with
  | .granted =>
    w.reserveDiskSpace
    return true
  | .refused _ => return false

def onSpace (diskSystemList : List DiskSystem) (url : String) (e : String × UInt64) : Bool :=
  (diskSystemList.find? (·.name = e.1)).any (·.url = url)

def bytesOn (diskSystemList : List DiskSystem) (m : DiskSpaceReservationRequest) (url : String) :
    Nat :=
  ((m.entries.filter (onSpace diskSystemList url)).map (·.2.toNat)).sum

def Known (diskSystemList : List DiskSystem) (m : DiskSpaceReservationRequest) : Prop :=
  ∀ e ∈ m.entries, (diskSystemList.find? (·.name = e.1)).isSome

instance (diskSystemList : List DiskSystem) (m : DiskSpaceReservationRequest) :
    Decidable (Known diskSystemList m) := inferInstanceAs (Decidable (∀ e ∈ m.entries, _))

def Physical (w : Surroundings) (diskSystemList : List DiskSystem) (freeSpace : String → UInt64) :
    Prop :=
  ∀ ds ∈ diskSystemList, ∀ bytes, w.fetchFreeSpace ds = .ok bytes → bytes = freeSpace ds.url

/-- A disk system that a request names, and what it asks for there. -/
def Asks (diskSystemList : List DiskSystem) (request : DiskSpaceReservationRequest)
    (ds : DiskSystem) (bytes : UInt64) : Prop :=
  ∃ name, (name, bytes) ∈ request.entries ∧ diskSystemList.find? (·.name = name) = some ds

/-- The free space covers what is targeted, reserved and asked for on each space. -/
def Covers (diskSystemList : List DiskSystem)
    (reservations request : DiskSpaceReservationRequest) (freeSpace : String → UInt64) : Prop :=
  ∀ ds bytes, Asks diskSystemList request ds bytes →
    ds.targetedFreeSpace.toNat + bytesOn diskSystemList reservations ds.url +
      bytesOn diskSystemList request ds.url ≤ (freeSpace ds.url).toNat

/-- Whatever the free spaces are, only what they cover is reserved, and the test says as much. -/
def Guarded (diskSystemList : List DiskSystem)
    (reservations request : DiskSpaceReservationRequest) : Prop :=
  ∀ w freeSpace, Physical w diskSystemList freeSpace →
    (reserveDiskSpace w diskSystemList reservations request = .ok true →
      Covers diskSystemList reservations request freeSpace) ∧
    (∀ answer, reserveDiskSpace w diskSystemList reservations request = .ok answer →
      testReserveDiskSpace w diskSystemList reservations request = .ok answer) ∧
    (w.reserveDiskSpace = .ok ⟨⟩ →
      reserveDiskSpace w diskSystemList reservations request =
        testReserveDiskSpace w diskSystemList reservations request)

/-- The request asks for all the bytes of a space on one disk system, with the largest target, and
nothing exceeds 64 bits. -/
def OneAsksForAll (diskSystemList : List DiskSystem)
    (reservations request : DiskSpaceReservationRequest) : Prop :=
  ∀ ds bytes, Asks diskSystemList request ds bytes →
    ds.targetedFreeSpace.toNat + bytesOn diskSystemList reservations ds.url +
      bytesOn diskSystemList request ds.url < 2 ^ 64 ∧
    ∃ ds' bytes', Asks diskSystemList request ds' bytes' ∧ ds'.url = ds.url ∧
      bytes'.toNat = bytesOn diskSystemList request ds.url ∧
      ds.targetedFreeSpace ≤ ds'.targetedFreeSpace

variable {w : Surroundings} {l : List DiskSystem} {reservations request : DiskSpaceReservationRequest}
  {ds : DiskSystem} {name : String}

theorem diskSystemAt_eq_ok :
    diskSystemAt l name = .ok ds ↔ l.find? (·.name = name) = some ds := by
  unfold diskSystemAt
  cases l.find? (·.name = name) with
  | none => simp
  | some found => simp

theorem mapAt_eq_ok {α : Type} {entries : List (String × α)} {value : α} :
    mapAt entries name = .ok value ↔ entries.lookup name = some value := by
  unfold mapAt
  cases entries.lookup name with
  | none => simp
  | some found => simp

theorem addPreviousReservation_eq {previous : DiskSystem} {total bytes : UInt64}
    (hprevious : l.find? (·.name = name) = some previous) :
    addPreviousReservation l ds total (name, bytes) =
      .ok (if previous.url = ds.url then total + bytes else total) := by
  unfold addPreviousReservation
  by_cases hzero : bytes = 0
  · simp [hzero]
  · rw [if_pos (by simpa using hzero), diskSystemAt_eq_ok.mpr hprevious]
    simp [bind, Except.bind, pure, Except.pure, eq_comm]

theorem foldlM_addPreviousReservation (ds : DiskSystem) {entries : List (String × UInt64)}
    (hknown : ∀ e ∈ entries, (l.find? (·.name = e.1)).isSome) (total : UInt64) :
    entries.foldlM (addPreviousReservation l ds) total =
      .ok (total + .ofNat ((entries.filter (onSpace l ds.url)).map (·.2.toNat)).sum) := by
  induction entries generalizing total with
  | nil => simp [pure, Except.pure]
  | cons e entries ih =>
    obtain ⟨previous, hprevious⟩ := Option.isSome_iff_exists.mp (hknown e List.mem_cons_self)
    have hrest := ih fun x hx => hknown x (List.mem_cons_of_mem e hx)
    rw [List.foldlM_cons, addPreviousReservation_eq hprevious]
    change entries.foldlM (addPreviousReservation l ds) _ = _
    rw [hrest]
    by_cases hurl : previous.url = ds.url
    · have hcounts : onSpace l ds.url e = true := by simp [onSpace, hprevious, hurl]
      rw [List.filter_cons_of_pos hcounts, List.map_cons, List.sum_cons, UInt64.ofNat_add,
        if_pos hurl, UInt64.ofNat_toNat, UInt64.add_assoc]
    · have hcounts : ¬onSpace l ds.url e = true := by simp [onSpace, hprevious, hurl]
      rw [List.filter_cons_of_neg hcounts, if_neg hurl]

theorem previousDrivesReservationTotal_eq (hknown : Known l reservations) (ds : DiskSystem) :
    previousDrivesReservationTotal l ds reservations =
      .ok (.ofNat (bytesOn l reservations ds.url)) := by
  unfold previousDrivesReservationTotal bytesOn
  rw [foldlM_addPreviousReservation ds hknown 0, UInt64.zero_add]

def Fetches (w : Surroundings) (l : List DiskSystem) (name : String)
    (entry : DiskSystemFreeSpace) : Prop :=
  ∃ ds, l.find? (·.name = name) = some ds ∧ w.fetchFreeSpace ds = .ok entry.freeSpace ∧
    entry.targetedFreeSpace = ds.targetedFreeSpace ∧
    w.keepFreeSpace ds entry.freeSpace = .ok ⟨⟩

theorem freeSpaceOrFailed_eq_ok {x : Except Failure UInt64} {freeSpace : UInt64} :
    freeSpaceOrFailed name x = .ok (freeSpace, []) ↔ x = .ok freeSpace := by
  cases x with
  | ok bytes => simp [freeSpaceOrFailed]
  | error e => cases e <;> simp [freeSpaceOrFailed]

theorem fetch_cons_eq_ok {names : List String} {entries : List (String × DiskSystemFreeSpace)} :
    fetchDiskSystemFreeSpace w l (name :: names) = .ok (entries, []) ↔
      ∃ entry rest, Fetches w l name entry ∧
        fetchDiskSystemFreeSpace w l names = .ok (rest, []) ∧ entries = (name, entry) :: rest := by
  rw [fetchDiskSystemFreeSpace]
  simp only [except_bind_eq_ok, diskSystemAt_eq_ok]
  constructor
  · rintro ⟨ds, hds, ⟨freeSpace, failed⟩, hfree, _, hkeep, ⟨rest, others⟩, hrest, hresult⟩
    obtain ⟨rfl, hnone⟩ : (name, ⟨freeSpace, ds.targetedFreeSpace⟩) :: rest = entries ∧
        failed ++ others = [] := by
      simpa [pure, Except.pure] using hresult
    obtain ⟨rfl, rfl⟩ := List.append_eq_nil_iff.mp hnone
    exact ⟨⟨freeSpace, ds.targetedFreeSpace⟩, rest,
      ⟨ds, hds, freeSpaceOrFailed_eq_ok.mp hfree, rfl, hkeep⟩, hrest, rfl⟩
  · rintro ⟨⟨freeSpace, targeted⟩, rest, ⟨ds, hds, hfree, rfl, hkeep⟩, hrest, rfl⟩
    exact ⟨ds, hds, (freeSpace, []), freeSpaceOrFailed_eq_ok.mpr hfree, ⟨⟩, hkeep, (rest, []),
      hrest, rfl⟩

theorem fetch_eq_ok {names : List String} :
    (∃ entries, fetchDiskSystemFreeSpace w l names = .ok (entries, [])) ↔
      ∀ name ∈ names, ∃ entry, Fetches w l name entry := by
  induction names with
  | nil => simp [fetchDiskSystemFreeSpace]
  | cons name names ih =>
    simp only [fetch_cons_eq_ok, List.forall_mem_cons, ← ih]
    constructor
    · rintro ⟨_, entry, rest, hentry, hrest, rfl⟩
      exact ⟨⟨entry, hentry⟩, rest, hrest⟩
    · rintro ⟨⟨entry, hentry⟩, rest, hrest⟩
      exact ⟨_, entry, rest, hentry, hrest, rfl⟩

theorem fetched {names : List String} {entries : List (String × DiskSystemFreeSpace)}
    (h : fetchDiskSystemFreeSpace w l names = .ok (entries, [])) (hname : name ∈ names) :
    ∃ entry, entries.lookup name = some entry ∧ Fetches w l name entry := by
  induction names generalizing entries with
  | nil => cases hname
  | cons first names ih =>
    obtain ⟨entry, rest, hentry, hrest, rfl⟩ := fetch_cons_eq_ok.mp h
    by_cases hfirst : name = first
    · subst hfirst
      exact ⟨entry, by simp, hentry⟩
    · obtain ⟨found, hlookup, hfound⟩ := ih hrest ((List.mem_cons.mp hname).resolve_left hfirst)
      have hbeq : (name == first) = false := by simpa using hfirst
      exact ⟨found, by simp [List.lookup_cons, hbeq, hlookup], hfound⟩

/-- The sum that is compared with the free space fetched for a disk system. -/
def required (l : List DiskSystem) (reservations : DiskSpaceReservationRequest) (ds : DiskSystem)
    (bytes : UInt64) : UInt64 :=
  bytes + ds.targetedFreeSpace + .ofNat (bytesOn l reservations ds.url)

def Fits (w : Surroundings) (l : List DiskSystem) (reservations : DiskSpaceReservationRequest)
    (ds : DiskSystem) (bytes : UInt64) : Prop :=
  ∃ freeSpace, w.fetchFreeSpace ds = .ok freeSpace ∧
    required l reservations ds bytes ≤ freeSpace

theorem lookup_eq_some (request : DiskSpaceReservationRequest) {bytes : UInt64} :
    request.entries.lookup name = some bytes ↔ (name, bytes) ∈ request.entries := by
  obtain ⟨entries, hsorted⟩ := request
  induction entries with
  | nil => simp
  | cons e entries ih =>
    obtain ⟨first, b⟩ := e
    rw [List.pairwise_cons] at hsorted
    rw [List.lookup_cons, List.mem_cons]
    by_cases hfirst : name = first
    · subst hfirst
      have hother : (name, bytes) ∉ entries := fun hmem => absurd (hsorted.1 _ hmem) (String.lt_irrefl name)
      simp [hother, eq_comm]
    · have hbeq : (name == first) = false := by simpa using hfirst
      simp only [hbeq, Prod.mk.injEq, hfirst, false_and, false_or]
      exact ih hsorted.2

theorem check_eq_granted (hknown : Known l reservations)
    {entries : List (String × DiskSystemFreeSpace)} {names : List String}
    (hentries : ∀ name ∈ names, ∃ entry, entries.lookup name = some entry ∧
      Fetches w l name entry)
    (hrequest : ∀ name ∈ names, ∃ bytes, request.entries.lookup name = some bytes) :
    checkFreeSpace l reservations request entries names = .ok .granted ↔
      ∀ name ∈ names, ∀ ds bytes, l.find? (·.name = name) = some ds →
        request.entries.lookup name = some bytes → Fits w l reservations ds bytes := by
  induction names with
  | nil => simp [checkFreeSpace]
  | cons name names ih =>
    obtain ⟨entry, hentry, ds, hds, hfree, htargeted, -⟩ := hentries name List.mem_cons_self
    obtain ⟨bytes, hbytes⟩ := hrequest name List.mem_cons_self
    have hrest := ih (fun n hn => hentries n (List.mem_cons_of_mem name hn))
      fun n hn => hrequest n (List.mem_cons_of_mem name hn)
    have hfits : Fits w l reservations ds bytes ↔
        required l reservations ds bytes ≤ entry.freeSpace := by
      simp [Fits, hfree]
    have hhead : (∀ ds' bytes', l.find? (·.name = name) = some ds' →
        request.entries.lookup name = some bytes' → Fits w l reservations ds' bytes') ↔
          Fits w l reservations ds bytes := by
      simp [hds, hbytes]
    have hcheck : checkFreeSpace l reservations request entries (name :: names) =
        if entry.freeSpace < required l reservations ds bytes then
          .ok (.refused [(name, ds.sleepTime)])
        else checkFreeSpace l reservations request entries names := by
      simp only [checkFreeSpace, diskSystemAt_eq_ok.mpr hds, mapAt_eq_ok.mpr hentry,
        previousDrivesReservationTotal_eq hknown, mapAt_eq_ok.mpr hbytes, htargeted, bind,
        Except.bind, pure, Except.pure, required]
      rfl
    rw [List.forall_mem_cons, hhead, ← hrest, hfits, hcheck]
    by_cases hless : entry.freeSpace < required l reservations ds bytes
    · simp [hless]
    · simp [hless, UInt64.not_lt.mp hless]

theorem decide_eq_granted (hknown : Known l reservations) :
    decideReservation w l reservations request = .ok .granted ↔
      (∀ e ∈ request.entries, ∃ entry, Fetches w l e.1 entry) ∧
        ∀ ds bytes, Asks l request ds bytes → Fits w l reservations ds bytes := by
  have hnames : (∀ e ∈ request.entries, ∃ entry, Fetches w l e.1 entry) ↔
      ∀ name ∈ request.entries.map (·.1), ∃ entry, Fetches w l name entry := by
    simp
  have hasks : (∀ ds bytes, Asks l request ds bytes → Fits w l reservations ds bytes) ↔
      ∀ name ∈ request.entries.map (·.1), ∀ ds bytes, l.find? (·.name = name) = some ds →
        request.entries.lookup name = some bytes → Fits w l reservations ds bytes := by
    constructor
    · intro h name hname ds bytes hds hbytes
      exact h ds bytes ⟨name, (lookup_eq_some request).mp hbytes, hds⟩
    · rintro h ds bytes ⟨name, hmem, hds⟩
      exact h name (List.mem_map_of_mem hmem) ds bytes hds ((lookup_eq_some request).mpr hmem)
  have hrequest : ∀ name ∈ request.entries.map (·.1), ∃ bytes,
      request.entries.lookup name = some bytes := by
    intro name hname
    obtain ⟨⟨name, bytes⟩, hmem, rfl⟩ := List.mem_map.mp hname
    exact ⟨bytes, (lookup_eq_some request).mpr hmem⟩
  rw [hnames, hasks, ← fetch_eq_ok, decideReservation]
  simp only [except_bind_eq_ok]
  constructor
  · rintro ⟨⟨entries, failed⟩, hfetch, hdecide⟩
    by_cases hfailed : failed = []
    · subst hfailed
      rw [if_pos rfl] at hdecide
      exact ⟨⟨entries, hfetch⟩,
        (check_eq_granted hknown (fun _ hname => fetched hfetch hname) hrequest).mp hdecide⟩
    · rw [if_neg hfailed, except_bind_eq_ok] at hdecide
      obtain ⟨asleep, -, hrefused⟩ := hdecide
      cases hrefused
  · rintro ⟨⟨entries, hfetch⟩, hfits⟩
    refine ⟨(entries, []), hfetch, ?_⟩
    rw [if_pos rfl]
    exact (check_eq_granted hknown (fun _ hname => fetched hfetch hname) hrequest).mpr hfits

theorem reserve_eq_true (hreserve : w.reserveDiskSpace = .ok ⟨⟩) :
    reserveDiskSpace w l reservations request = .ok true ↔
      decideReservation w l reservations request = .ok .granted := by
  unfold reserveDiskSpace
  cases decideReservation w l reservations request with
  | error e => simp [bind, Except.bind]
  | ok decision =>
    cases decision with
    | granted => simp [hreserve, bind, Except.bind, pure, Except.pure]
    | refused asleep => simp [bind, Except.bind, pure, Except.pure]

theorem granted_of_reserve (h : reserveDiskSpace w l reservations request = .ok true) :
    decideReservation w l reservations request = .ok .granted := by
  unfold reserveDiskSpace at h
  obtain ⟨decision, hdecision, hanswer⟩ := except_bind_eq_ok.mp h
  cases decision with
  | granted => exact hdecision
  | refused asleep => cases hanswer

theorem test_of_reserve {answer : Bool}
    (h : reserveDiskSpace w l reservations request = .ok answer) :
    testReserveDiskSpace w l reservations request = .ok answer := by
  unfold reserveDiskSpace at h
  unfold testReserveDiskSpace
  obtain ⟨decision, hdecision, hanswer⟩ := except_bind_eq_ok.mp h
  rw [hdecision]
  cases decision with
  | granted =>
    obtain ⟨_, -, htrue⟩ := except_bind_eq_ok.mp hanswer
    exact htrue
  | refused asleep => exact hanswer

theorem reserve_eq_test (h : w.reserveDiskSpace = .ok ⟨⟩) :
    reserveDiskSpace w l reservations request = testReserveDiskSpace w l reservations request := by
  unfold reserveDiskSpace testReserveDiskSpace
  rw [h]
  rfl

theorem toNat_required_le (reservations : DiskSpaceReservationRequest) (ds : DiskSystem)
    (bytes : UInt64) :
    (required l reservations ds bytes).toNat ≤
      ds.targetedFreeSpace.toNat + bytesOn l reservations ds.url + bytes.toNat := by
  unfold required
  rw [UInt64.toNat_add, UInt64.toNat_add, UInt64.toNat_ofNat', Nat.mod_add_mod, Nat.add_mod_mod]
  have hle := Nat.mod_le
    (bytes.toNat + ds.targetedFreeSpace.toNat + bytesOn l reservations ds.url) (2 ^ 64)
  omega

theorem toNat_required {bytes : UInt64}
    (h : ds.targetedFreeSpace.toNat + bytesOn l reservations ds.url + bytes.toNat < 2 ^ 64) :
    (required l reservations ds bytes).toNat =
      ds.targetedFreeSpace.toNat + bytesOn l reservations ds.url + bytes.toNat := by
  unfold required
  rw [UInt64.toNat_add, UInt64.toNat_add, UInt64.toNat_ofNat', Nat.mod_add_mod, Nat.add_mod_mod,
    Nat.mod_eq_of_lt (by omega)]
  omega

theorem Asks.mem {bytes : UInt64} (h : Asks l request ds bytes) : ds ∈ l := by
  obtain ⟨name, -, hds⟩ := h
  exact List.mem_of_find?_eq_some hds

theorem bytes_le_bytesOn {bytes : UInt64} (h : Asks l request ds bytes) :
    bytes.toNat ≤ bytesOn l request ds.url := by
  obtain ⟨name, hmem, hds⟩ := h
  refine List.le_sum_of_mem (List.mem_map.mpr ⟨(name, bytes), ?_, rfl⟩)
  exact List.mem_filter.mpr ⟨hmem, by simp [onSpace, hds]⟩

theorem OneAsksForAll.guarded (hknown : Known l reservations)
    (h : OneAsksForAll l reservations request) : Guarded l reservations request := by
  intro w freeSpace hphysical
  refine ⟨fun htrue ds bytes hasks => ?_, fun _ => test_of_reserve, reserve_eq_test⟩
  obtain ⟨hfit, ds', bytes', hasks', hurl, hall, htargeted⟩ := h ds bytes hasks
  have hgranted := (decide_eq_granted hknown).mp (granted_of_reserve htrue)
  obtain ⟨fetched, hfetch, hle⟩ := hgranted.2 ds' bytes' hasks'
  have hfree := hphysical ds' hasks'.mem fetched hfetch
  have hfit' := (h ds' bytes' hasks').1
  rw [hurl] at hfit' hfree
  have hfits : ds'.targetedFreeSpace.toNat + bytesOn l reservations ds'.url + bytes'.toNat <
      2 ^ 64 := by
    rw [hurl, hall]
    exact hfit'
  have hrequired := toNat_required hfits
  have hlt := UInt64.le_iff_toNat_le.mp (hfree ▸ hle)
  have htargeted' := UInt64.le_iff_toNat_le.mp htargeted
  rw [hrequired, hurl] at hlt
  omega

def allFresh (freeSpace : String → UInt64) : Surroundings where
  currentTime _ := 0
  lastRefreshTime _ := 0
  freeSpace space := freeSpace space.freeSpaceQueryURL
  query _ := .error .exception
  modifyDiskInstanceSpaceFreeSpace _ _ := .ok ⟨⟩
  reserveDiskSpace := .ok ⟨⟩

theorem allFresh_fresh (freeSpace : String → UInt64) (ds : DiskSystem) :
    (allFresh freeSpace).fresh ds = true := by
  unfold Surroundings.fresh
  exact decide_eq_true (UInt64.le_iff_toNat_le.mpr (Nat.zero_le _))

theorem allFresh_fetchFreeSpace (freeSpace : String → UInt64) (ds : DiskSystem) :
    (allFresh freeSpace).fetchFreeSpace ds = .ok (freeSpace ds.url) := by
  rw [Surroundings.fetchFreeSpace, allFresh_fresh, if_pos rfl]
  rfl

theorem allFresh_physical (l : List DiskSystem) (freeSpace : String → UInt64) :
    Physical (allFresh freeSpace) l freeSpace := by
  intro ds _ bytes h
  rw [allFresh_fetchFreeSpace] at h
  exact (Except.ok.inj h).symm

theorem allFresh_reserve (freeSpace : String → UInt64) (hknown : Known l reservations)
    (hrequest : Known l request)
    (hfits : ∀ ds bytes, Asks l request ds bytes →
      required l reservations ds bytes ≤ freeSpace ds.url) :
    reserveDiskSpace (allFresh freeSpace) l reservations request = .ok true := by
  refine (reserve_eq_true rfl).mpr ((decide_eq_granted hknown).mpr ⟨?_, ?_⟩)
  · intro e he
    obtain ⟨ds, hds⟩ := Option.isSome_iff_exists.mp (hrequest e he)
    refine ⟨⟨freeSpace ds.url, ds.targetedFreeSpace⟩, ds, hds, allFresh_fetchFreeSpace _ ds, rfl,
      ?_⟩
    rw [Surroundings.keepFreeSpace, allFresh_fresh, if_pos rfl]
  · exact fun ds bytes hasks => ⟨_, allFresh_fetchFreeSpace _ ds, hfits ds bytes hasks⟩

/-- Of a space that was not covered, some disk system must be asked for more than there is. -/
theorem Guarded.exceeds (hknown : Known l reservations) (hrequest : Known l request)
    (h : Guarded l reservations request) {bytes : UInt64} (hasks : Asks l request ds bytes)
    {n : Nat} (hfew : n < 2 ^ 64) (hn : n < ds.targetedFreeSpace.toNat +
      bytesOn l reservations ds.url + bytesOn l request ds.url) :
    ∃ ds' bytes', Asks l request ds' bytes' ∧ ds'.url = ds.url ∧
      n < (required l reservations ds' bytes').toNat := by
  by_contra hnone
  push Not at hnone
  have hfits : ∀ ds' bytes', Asks l request ds' bytes' → required l reservations ds' bytes' ≤
      if ds'.url = ds.url then .ofNat n else .ofNat (2 ^ 64 - 1) := by
    intro ds' bytes' hasks'
    rw [UInt64.le_iff_toNat_le]
    split
    · next hurl =>
      rw [UInt64.toNat_ofNat_of_lt' hfew]
      exact hnone ds' bytes' hasks' hurl
    · have hlt := (required l reservations ds' bytes').toNat_lt
      rw [UInt64.toNat_ofNat_of_lt' (by decide)]
      omega
  have hcovers := (h _ _ (allFresh_physical _ _)).1 (allFresh_reserve
    (fun url => if url = ds.url then .ofNat n else .ofNat (2 ^ 64 - 1))
    hknown hrequest hfits) ds bytes hasks
  rw [if_pos rfl, UInt64.toNat_ofNat_of_lt' hfew] at hcovers
  omega

theorem Guarded.bounded (hknown : Known l reservations) (hrequest : Known l request)
    (h : Guarded l reservations request) {bytes : UInt64} (hasks : Asks l request ds bytes) :
    ds.targetedFreeSpace.toNat + bytesOn l reservations ds.url + bytesOn l request ds.url <
        2 ^ 64 ∧
      ∃ ds' bytes', Asks l request ds' bytes' ∧ ds'.url = ds.url ∧
        ds.targetedFreeSpace.toNat + bytesOn l request ds.url ≤
          ds'.targetedFreeSpace.toNat + bytes'.toNat := by
  have hfit : ds.targetedFreeSpace.toNat + bytesOn l reservations ds.url +
      bytesOn l request ds.url < 2 ^ 64 := by
    by_contra hmany
    obtain ⟨ds', bytes', -, -, hlt⟩ := h.exceeds hknown hrequest hasks
      (n := 2 ^ 64 - 1) (by decide) (by omega)
    have hbound := (required l reservations ds' bytes').toNat_lt
    omega
  refine ⟨hfit, ?_⟩
  by_cases hzero : ds.targetedFreeSpace.toNat + bytesOn l reservations ds.url +
      bytesOn l request ds.url = 0
  · exact ⟨ds, bytes, hasks, rfl, by omega⟩
  · obtain ⟨ds', bytes', hasks', hurl, hlt⟩ := h.exceeds hknown hrequest hasks
      (n := ds.targetedFreeSpace.toNat + bytesOn l reservations ds.url +
        bytesOn l request ds.url - 1) (by omega) (by omega)
    have hle := toNat_required_le (l := l) reservations ds' bytes'
    rw [hurl] at hle
    exact ⟨ds', bytes', hasks', hurl, by omega⟩

theorem Guarded.oneAsksForAll (hknown : Known l reservations) (hrequest : Known l request)
    (h : Guarded l reservations request) : OneAsksForAll l reservations request := by
  intro ds bytes hasks
  refine ⟨(h.bounded hknown hrequest hasks).1, ?_⟩
  induction hroom : 2 ^ 64 - ds.targetedFreeSpace.toNat using Nat.strong_induction_on
    generalizing ds bytes with
  | _ room ih =>
    obtain ⟨-, ds', bytes', hasks', hurl, hle⟩ := h.bounded hknown hrequest hasks
    have hbytes := bytes_le_bytesOn hasks'
    rw [hurl] at hbytes
    by_cases hall : bytes'.toNat = bytesOn l request ds.url
    · exact ⟨ds', bytes', hasks', hurl, hall, UInt64.le_iff_toNat_le.mpr (by omega)⟩
    · have hlt := ds'.targetedFreeSpace.toNat_lt
      obtain ⟨one, all, hone, hurl', hall', htargeted⟩ :=
        ih (2 ^ 64 - ds'.targetedFreeSpace.toNat) (by omega) ds' bytes' hasks' rfl
      have hlarger := UInt64.le_iff_toNat_le.mp htargeted
      exact ⟨one, all, hone, hurl'.trans hurl, hurl ▸ hall',
        UInt64.le_iff_toNat_le.mpr (by omega)⟩

/-- Whatever the free spaces are, a mount reserves only what they cover, if and only if it asks for
all the bytes of a space on one disk system, with the largest target, within 64 bits. -/
theorem guarded_iff_oneAsksForAll (hknown : Known l reservations) (hrequest : Known l request) :
    Guarded l reservations request ↔ OneAsksForAll l reservations request :=
  ⟨Guarded.oneAsksForAll hknown hrequest, OneAsksForAll.guarded hknown⟩

def sharedSpace : List DiskSystem :=
  ["a", "b"].map fun name => {
    name
    diskInstanceSpace := ⟨"space", "instance", "eos:instance:space", 60⟩
    targetedFreeSpace := 0
    sleepTime := 900 }

def noReservations : DiskSpaceReservationRequest := ⟨[], .nil⟩

def askBoth : DiskSpaceReservationRequest := ⟨[("a", 60), ("b", 60)], by decide +kernel⟩

theorem askBoth_known : Known sharedSpace askBoth := by simp [Known, askBoth, sharedSpace]

def reservedOnB : DiskSpaceReservationRequest := ⟨[("b", 30)], by decide +kernel⟩

def askOnA : DiskSpaceReservationRequest := ⟨[("a", 60)], by decide +kernel⟩

theorem guarded_iff_askOnA : Guarded sharedSpace reservedOnB askOnA := by
  have hreserved : Known sharedSpace reservedOnB := by simp [Known, reservedOnB, sharedSpace]
  have hrequest : Known sharedSpace askOnA := by simp [Known, askOnA, sharedSpace]
  refine (guarded_iff_oneAsksForAll hreserved hrequest).mpr ?_
  rintro ds bytes hasks
  obtain ⟨name, hmem, hfind⟩ := id hasks
  obtain ⟨rfl, rfl⟩ := Prod.mk.inj (List.mem_singleton.mp hmem)
  obtain rfl := Option.some.inj hfind
  exact ⟨by decide +kernel, _, 60, hasks, rfl, by decide +kernel, UInt64.le_refl _⟩

theorem shared_space_not_guarded :
    ¬∀ l reservations request, Known l reservations → Known l request →
      Guarded l reservations request := by
  intro h
  have hreserve : reserveDiskSpace (allFresh fun _ => 100) sharedSpace noReservations askBoth =
      .ok true := by
    decide +kernel
  have hcovers := (h sharedSpace noReservations askBoth nofun askBoth_known _ _
    (allFresh_physical _ _)).1 hreserve ⟨"a", ⟨"space", "instance", "eos:instance:space", 60⟩, 0, 900⟩
      60 ⟨"a", by simp [askBoth], by simp [sharedSpace]⟩
  exact absurd hcovers (by decide +kernel)

end Cta.Scheduler.DiskSpaceCheck

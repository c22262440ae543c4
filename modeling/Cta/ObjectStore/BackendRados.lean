import Cta.Lib.Runs
import Mathlib.Tactic.SplitIfs
import Mathlib.Algebra.Ring.Nat

/-! Creation and reading of objects on Rados, and what the callers are told about them. -/
namespace Cta.ObjectStore.BackendRados
open Cta.Lib.Runs

abbrev Content := List UInt8

abbrev ErrorCode := { n : Nat // 0 < n }

def ENOENT : Int := 2
def EEXIST : Int := 17

/-- One call to librados: what the object holds at that moment (`none`: it does not exist), and
the code the call fails with. A call that fails has no effect. `late` says whether the retry
timer is beyond its 10 s, and `launchError` whether a next asynchronous call fails to start. -/
structure Call where
  found : Option Content
  error : Option ErrorCode
  late : Bool := false
  launchError : Option ErrorCode := none
  deriving DecidableEq

def Call.operate (c : Call) : Int :=
  match c.error, c.found with
  | some e, _ => -(e : Int)
  | none, some _ => -EEXIST
  | none, none => 0

def Call.stat (c : Call) : Int :=
  match c.error, c.found with
  | some e, _ => -(e : Int)
  | none, some _ => 0
  | none, none => -ENOENT

def Call.size (c : Call) : Nat := (c.found.getD []).length

def int32Max : Nat := 2^31 - 1

/-- The return code of `read`, and the buffer it fills. -/
def Call.read (c : Call) : Int × Content :=
  match c.error, c.found with
  | some e, _ => (-(e : Int), [])
  | none, some x => ((x.take int32Max).length, x.take int32Max)
  | none, none => (-ENOENT, [])

inductive Thrown where
  | exception
  | errnum (n : Int)
  | noSuchObject
  | couldNotCreate
  deriving DecidableEq

def throwOnReturnedErrno (err : Int) : Except Thrown Unit :=
  if err ≠ 0 then .error (.errnum err) else .ok ()

inductive Pc where
  | attempting
  | polling
  | returned
  | threw (t : Thrown)
  deriving DecidableEq

structure Creation where
  pc : Pc
  created : Option Content
  deriving DecidableEq

def Creation.start (content : Content) : Creation :=
  ⟨if content = [] then .threw .exception else .attempting, none⟩

def Creation.step (content : Content) (s : Creation) (c : Call) : Creation :=
  match s.pc with
  | .attempting =>
    match throwOnReturnedErrno (-c.operate) with
    | .ok () => ⟨.returned, some content⟩
    | .error t =>
      -- the handler of `Errnum` looks at one code and rethrows nothing
      if t = .errnum EEXIST then { s with pc := .polling } else { s with pc := .returned }
  | .polling =>
    if c.stat = -ENOENT then { s with pc := .attempting }
    else if c.stat = 0 then
      if c.size ≠ 0 then { s with pc := .threw (.errnum EEXIST) }
      else if c.late then { s with pc := .threw (.errnum EEXIST) }
      else s
    else { s with pc := .threw (.errnum EEXIST) }
  | .returned => s
  | .threw _ => s

def Creation.Reported (content : Content) (s : Creation) : Prop :=
  s.pc = .returned → s.created = some content

def Creation.Proper (s : Creation) (c : Call) : Prop :=
  s.pc = .attempting → c.operate = 0 ∨ c.operate = -EEXIST

instance (s : Creation) (c : Call) : Decidable (s.Proper c) :=
  inferInstanceAs (Decidable (s.pc = .attempting → c.operate = 0 ∨ c.operate = -EEXIST))

/-- The callback returns a negative `rc` as it is, and the handler of `Errnum` compares that
with the positive code. -/
def read (c : Call) : Except Thrown Content :=
  let (rc, bl) := c.read
  match throwOnReturnedErrno (if rc < 0 then rc else 0) with
  | .error t =>
    if t = .errnum ENOENT then .error .noSuchObject
    else if bl.length = 0 then .error .noSuchObject else .ok bl
  | .ok () => if bl.length = 0 then .error .noSuchObject else .ok bl

def Call.Absent (c : Call) : Prop := c.found = none ∨ c.found = some []

structure ReadReported (c : Call) : Prop where
  content : ∀ x, read c = .ok x → c.found = some x
  noSuchObject : read c = .error .noSuchObject → c.Absent
  otherError : ∀ e ∈ c.error, (e : Int) ≠ ENOENT →
    ∃ t, read c = .error t ∧ t ≠ .noSuchObject

/-- The read fails, if at all, because there is no such object, and asks for all of it. -/
def ReadProper (c : Call) : Prop :=
  (∀ e ∈ c.error, (e : Int) = ENOENT ∧ c.Absent) ∧
    (c.error = none → ∀ x ∈ c.found, x.length ≤ int32Max)

inductive Pending where
  | operate
  | stat
  deriving DecidableEq

/-- `setAgain`: a callback set the promise a second time, which throws out of the callback. -/
structure AsyncCreator where
  pending : Option Pending
  promise : Option (Except Thrown Unit)
  setAgain : Bool
  created : Option Content

def AsyncCreator.set (a : AsyncCreator) (x : Except Thrown Unit) : AsyncCreator :=
  match a.promise with
  | none => { a with promise := some x }
  | some _ => { a with setAgain := true }

def AsyncCreator.start (launchError : Option ErrorCode) : AsyncCreator :=
  let a : AsyncCreator := ⟨none, none, false, none⟩
  match launchError with
  | some _ => a.set (.error .couldNotCreate)
  | none => { a with pending := some .operate }

def AsyncCreator.createExclusiveCallback (value : Content) (a : AsyncCreator) (c : Call) :
    AsyncCreator :=
  let a := { a with pending := none }
  if c.operate ≠ 0 then
    if EEXIST = -c.operate then
      -- after the launch of the poll, whose return code is not looked at, comes the end of
      -- the successful case
      AsyncCreator.set { a with pending := if c.launchError = none then some .stat else none }
        (.ok ())
    else a.set (.error .couldNotCreate)
  else AsyncCreator.set { a with created := some value } (.ok ())

def AsyncCreator.statCallback (a : AsyncCreator) (c : Call) : AsyncCreator :=
  let a := { a with pending := none }
  if c.stat ≠ 0 then
    if ENOENT = -c.stat then
      match c.launchError with
      | some _ => a.set (.error .couldNotCreate)
      | none => { a with pending := some .operate }
    else a.set (.error .couldNotCreate)
  else if c.size ≠ 0 then a.set (.error (.errnum EEXIST))
  else if c.late then a.set (.error (.errnum EEXIST))
  else { a with pending := if c.launchError = none then some .stat else none }

def AsyncCreator.step (value : Content) (a : AsyncCreator) (c : Call) : AsyncCreator :=
  match a.pending with
  | some .operate => a.createExclusiveCallback value c
  | some .stat => a.statCallback c
  | none => a

/-- `wait` returns normally only if the creator created the object, and the promise is set
exactly once by the time nothing is under way any more. -/
structure AsyncCreator.Reported (value : Content) (a : AsyncCreator) : Prop where
  created : a.promise = some (.ok ()) → a.created = some value
  once : a.setAgain = false
  settled : a.pending = none → a.promise.isSome

def AsyncCreator.Proper (a : AsyncCreator) (c : Call) : Prop :=
  a.pending = some .operate → c.operate ≠ -EEXIST

instance (a : AsyncCreator) (c : Call) : Decidable (a.Proper c) :=
  inferInstanceAs (Decidable (a.pending = some .operate → c.operate ≠ -EEXIST))

variable {content value : Content} {c : Call} {calls : List Call}

theorem Creation.step_proper {s : Creation} (hs : s.Reported content) (hp : s.Proper c) :
    (s.step content c).Reported content := by
  unfold Creation.step
  cases hpc : s.pc with
  | attempting =>
    cases hp hpc with
    | inl hok => simp [hok, throwOnReturnedErrno, Reported]
    | inr hexists => simp [hexists, throwOnReturnedErrno, EEXIST, Reported]
  | polling =>
    dsimp only
    split_ifs <;> simp [Reported, hpc]
  | returned => exact hs
  | threw t => exact hs

def Creation.Running (s : Creation) : Prop :=
  s.pc = .attempting ∨ s.pc = .polling → s.created = none

theorem Creation.step_running {s : Creation} (hs : s.Running) : (s.step content c).Running := by
  unfold Creation.step
  cases hpc : s.pc with
  | attempting =>
    dsimp only
    split
    · simp [Running]
    · split <;> simp [Running, hs (.inl hpc)]
  | polling =>
    dsimp only
    split_ifs <;> simp [Running, hs (.inr hpc)]
  | returned => exact hs
  | threw t => exact hs

theorem Creation.proper_of_reported {s : Creation} (hs : s.Running)
    (h : (s.step content c).Reported content) : s.Proper c := by
  intro hpc
  by_contra hno
  obtain ⟨hne, hexists⟩ := not_or.mp hno
  have hcode : ¬ -c.operate = EEXIST := by omega
  have hcode0 : ¬ -c.operate = 0 := by omega
  simp [Creation.step, hpc, throwOnReturnedErrno, hcode, Reported, hne, hs (.inl hpc)] at h

theorem create_reported_iff :
    AllStates (Creation.step content) (Creation.Reported content) (Creation.start content) calls ↔
      AllSteps (Creation.step content) Creation.Proper (Creation.start content) calls := by
  have hreported : (Creation.start content).Reported content := by
    simp only [Creation.Reported, Creation.start]
    split_ifs <;> simp
  refine allStates_iff_allSteps (I := Creation.Running) (fun s c hr hs => ?_)
    (fun s c hr _ _ => Creation.step_running hr) (fun _ => rfl) hreported
  exact ⟨Creation.proper_of_reported hr, Creation.step_proper hs⟩

theorem read_of_error {e : ErrorCode} (h : c.error = some e) :
    read c = .error .noSuchObject := by
  have hpos := e.2
  have hne : ¬ (e : Nat) = 0 := by omega
  simp [read, Call.read, h, throwOnReturnedErrno, hne]

theorem read_of_found {x : Content} (h : c.error = none) (hx : c.found = some x) :
    read c = if x.take int32Max = [] then .error .noSuchObject else .ok (x.take int32Max) := by
  have hpos : ¬ ((x.take int32Max).length : Int) < 0 := by omega
  simp only [read, Call.read, h, hx, throwOnReturnedErrno, if_neg hpos, ne_eq, not_true_eq_false,
    if_false, List.length_eq_zero_iff]

theorem read_of_absent (h : c.error = none) (hx : c.found = none) :
    read c = .error .noSuchObject := by
  simp [read, Call.read, h, hx, throwOnReturnedErrno, ENOENT]

theorem read_reported_iff : ReadReported c ↔ ReadProper c := by
  cases he : c.error with
  | some e =>
    have hread := read_of_error he
    constructor
    · intro h
      refine ⟨fun e' he' => ?_, fun hn => by simp [he] at hn⟩
      have : e = e' := by simpa [he] using he'
      subst this
      refine ⟨?_, h.noSuchObject hread⟩
      by_contra hno
      obtain ⟨t, ht, hne⟩ := h.otherError e he hno
      rw [hread] at ht
      exact hne (Except.error.inj ht).symm
    · intro h
      have habsent := h.1 e he
      refine ⟨fun x hx => ?_, fun _ => habsent.2, fun e' he' hne => ?_⟩
      · rw [hread] at hx
        cases hx
      · have : e = e' := by simpa [he] using he'
        subst this
        exact absurd habsent.1 hne
  | none =>
    cases hf : c.found with
    | none =>
      have hread := read_of_absent he hf
      constructor
      · exact fun _ => ⟨by simp [he], by simp [hf]⟩
      · intro _
        exact ⟨fun x hx => by simp [hread] at hx, fun _ => .inl hf, by simp [he]⟩
    | some x =>
      have hread := read_of_found he hf
      constructor
      · intro h
        refine ⟨by simp [he], fun _ y hy => ?_⟩
        have : x = y := by simpa [hf] using hy
        subst this
        by_cases hx : x.take int32Max = []
        · have hzero : int32Max ≠ 0 := by decide
          simp [(List.take_eq_nil_iff.mp hx).resolve_left hzero]
        · rw [if_neg hx] at hread
          have := h.content _ hread
          rw [hf] at this
          have := congrArg List.length (Option.some.inj this)
          simp at this
          omega
      · intro h
        have hlen := h.2 he x hf
        rw [List.take_of_length_le hlen] at hread
        refine ⟨fun y hy => ?_, fun hn => ?_, by simp [he]⟩
        · by_cases hx : x = []
          · simp [hread, hx] at hy
          · simp [hread, hx] at hy
            rw [hf, hy]
        · by_cases hx : x = []
          · exact .inr (hx ▸ hf)
          · simp [hread, hx] at hn

section
variable {a : AsyncCreator}

theorem AsyncCreator.callback_of_success (hprom : a.promise = none) (hok : c.operate = 0) :
    a.createExclusiveCallback value c =
      { a with pending := none, created := some value, promise := some (.ok ()) } := by
  simp [createExclusiveCallback, set, hprom, hok]

theorem AsyncCreator.callback_of_exists (hprom : a.promise = none)
    (hexists : c.operate = -EEXIST) :
    a.createExclusiveCallback value c =
      { a with pending := if c.launchError = none then some .stat else none,
               promise := some (.ok ()) } := by
  have hne : ¬ -EEXIST = 0 := by decide
  simp [createExclusiveCallback, set, hprom, hexists, hne]

theorem AsyncCreator.callback_of_error (hprom : a.promise = none) (hok : c.operate ≠ 0)
    (hexists : c.operate ≠ -EEXIST) :
    a.createExclusiveCallback value c =
      { a with pending := none, promise := some (.error .couldNotCreate) } := by
  have hne : ¬ EEXIST = -c.operate := by omega
  simp [createExclusiveCallback, set, hprom, hok, hne]

/-- Until the promise is set, the first creation is under way and nothing is stored. -/
def AsyncCreator.Running (a : AsyncCreator) : Prop :=
  a.pending = none ∨ a.pending = some .operate ∧ a.promise = none ∧ a.created = none

theorem AsyncCreator.step_reported_iff (hr : a.Running) (hs : a.Reported value) :
    (a.step value c).Reported value ↔ a.Proper c := by
  cases hr with
  | inl hdone =>
    have hnot : a.Proper c := fun hn => by simp [hdone] at hn
    simpa [step, hdone, hnot] using hs
  | inr hrun =>
    obtain ⟨hpend, hprom, hcreated⟩ := hrun
    simp only [step, hpend, Proper, true_implies]
    by_cases hok : c.operate = 0
    · have hne : ¬ (0 : Int) = -EEXIST := by decide
      rw [callback_of_success hprom hok, hok]
      exact ⟨fun _ => hne, fun _ => ⟨fun _ => rfl, hs.once, fun _ => rfl⟩⟩
    · by_cases hexists : c.operate = -EEXIST
      · rw [callback_of_exists hprom hexists]
        refine ⟨fun h => ?_, fun h => absurd hexists h⟩
        have := h.created rfl
        simp [hcreated] at this
      · rw [callback_of_error hprom hok hexists]
        exact ⟨fun _ => hexists, fun _ => ⟨fun h => by simp at h, hs.once, fun _ => rfl⟩⟩

theorem AsyncCreator.step_running (hr : a.Running) (hp : a.Proper c) :
    (a.step value c).Running := by
  cases hr with
  | inl hdone =>
    simp only [step, hdone]
    exact .inl hdone
  | inr hrun =>
    obtain ⟨hpend, hprom, -⟩ := hrun
    simp only [step, hpend]
    by_cases hok : c.operate = 0
    · rw [callback_of_success hprom hok]
      exact .inl rfl
    · rw [callback_of_error hprom hok (hp hpend)]
      exact .inl rfl

end

theorem asyncCreator_reported_iff {launchError : Option ErrorCode} :
    AllStates (AsyncCreator.step value) (AsyncCreator.Reported value)
        (AsyncCreator.start launchError) calls ↔
      AllSteps (AsyncCreator.step value) AsyncCreator.Proper (AsyncCreator.start launchError)
        calls := by
  refine allStates_iff_allSteps (I := AsyncCreator.Running)
    (fun a c hr hs => AsyncCreator.step_reported_iff hr hs)
    (fun a c hr _ hp => AsyncCreator.step_running hr hp) ?_ ?_
  · cases launchError with
    | none => exact .inr ⟨rfl, rfl, rfl⟩
    | some e => exact .inl rfl
  · cases launchError with
    | none => exact ⟨nofun, rfl, nofun⟩
    | some e => exact ⟨nofun, rfl, fun _ => rfl⟩

/-- The callers of `create`, `read` and `AsyncCreator` learn the true outcome exactly if no
attempt of a `create` fails with another error than `EEXIST`, a `read` does not fail but for
want of the object, and no attempt of an `AsyncCreator` meets `EEXIST`. -/
theorem outcomes_reported_iff (content value : Content) (creations callbacks : List Call)
    (c : Call) (launchError : Option ErrorCode) :
    (AllStates (Creation.step content) (Creation.Reported content) (Creation.start content)
        creations ↔
      AllSteps (Creation.step content) Creation.Proper (Creation.start content) creations) ∧
    (ReadReported c ↔ ReadProper c) ∧
    (AllStates (AsyncCreator.step value) (AsyncCreator.Reported value)
        (AsyncCreator.start launchError) callbacks ↔
      AllSteps (AsyncCreator.step value) AsyncCreator.Proper (AsyncCreator.start launchError)
        callbacks) :=
  ⟨create_reported_iff, read_reported_iff, asyncCreator_reported_iff⟩

def EIO : ErrorCode := ⟨5, by decide⟩

/-- A `create` that meets an I/O error returns normally, a `read` that meets one says that
there is no such object, and an asynchronous creation is successful where the object was there
before; its promise is set once more when the poll comes back. -/
theorem ioError_misreported :
    (¬ AllStates (Creation.step [1]) (Creation.Reported [1]) (Creation.start [1])
      [⟨none, some EIO, false, none⟩]) ∧
    ¬ ReadReported ⟨some [1], some EIO, false, none⟩ ∧
    ¬ AllStates (AsyncCreator.step [1]) (AsyncCreator.Reported [1]) (AsyncCreator.start none)
      [⟨some [2], none, false, none⟩] ∧
    (AsyncCreator.step [1] (AsyncCreator.step [1] (AsyncCreator.start none)
      ⟨some [2], none, false, none⟩) ⟨some [2], none, false, none⟩).setAgain = true := by
  refine ⟨fun h => ?_, fun h => ?_, fun h => ?_, rfl⟩
  · have := h.2 rfl
    cases this
  · cases h.noSuchObject rfl with
    | inl h => cases h
    | inr h => cases h
  · have := h.2.created rfl
    cases this

end Cta.ObjectStore.BackendRados

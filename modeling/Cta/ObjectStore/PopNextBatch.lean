import Cta.Lib.Runs
import Cta.ObjectStore.JobOwners
import Mathlib.Data.Finset.SDiff
import Mathlib.Data.List.Nodup

/-! Agents that pop batches from one container, every step of theirs one locked update of
a stored object. -/
namespace Cta.ObjectStore.PopNextBatch
open Cta.Lib.Runs

structure Decisions where
  elementsNotToDereferenceFromContainer : List Address := []
  elementsNotToReport : List Address := []
  elementsToDereferenceFromAgent : List Address := []
  unexpectedException : Bool := false
  deriving DecidableEq, Repr

/-- An element that is gone or not owned is forgotten, one that could not be unlocked is
fine, and any other one stays in the container. -/
def Decisions.sort (d : Decisions) : Address × SwitchFailure → Decisions
  | (a, .noSuchObject) | (a, .wrongPreviousOwner) =>
    { d with
      elementsToDereferenceFromAgent := d.elementsToDereferenceFromAgent ++ [a]
      elementsNotToReport := d.elementsNotToReport ++ [a] }
  | (_, .couldNotUnlock) => d
  | (a, .other) =>
    { elementsNotToDereferenceFromContainer := d.elementsNotToDereferenceFromContainer ++ [a]
      elementsToDereferenceFromAgent := d.elementsToDereferenceFromAgent ++ [a]
      elementsNotToReport := d.elementsNotToReport ++ [a]
      unexpectedException := true }

abbrev Results := List (Address × Option SwitchFailure)

def failedOwnershipSwitchElements (results : Results) : List (Address × SwitchFailure) :=
  results.filterMap fun x => x.2.map (x.1, ·)

def decisions (results : Results) : Decisions :=
  (failedOwnershipSwitchElements results).foldl Decisions.sort {}

def toDereference (candidates : List Address) (results : Results) : List Address :=
  candidates.filter (· ∉ (decisions results).elementsNotToDereferenceFromContainer)

def toReport (candidates : List Address) (results : Results) : List Address :=
  candidates.filter (· ∉ (decisions results).elementsNotToReport)

inductive Phase where
  | idle
  | ready (ret : List Address)
  | selected (ret candidates : List Address)
  | switching (ret candidates : List Address) (results : Results)
  | dereferenced (ret candidates : List Address) (results : Results)
  | crashed
  deriving DecidableEq, Repr

/-- The stored objects, the lock of the container, the agents and what they returned. The
candidates of the finished rounds of an agent's last pop are kept in `tried`, and who took
a reference out of the container in `dereferencedBy`. -/
structure State (Obj : Type) where
  references : List Address
  objects : Address → Option Obj
  ownership : Address → Finset Address
  lock : Option Address
  phase : Address → Phase
  batches : Address → List (List Address)
  tried : Address → List Address
  dereferencedBy : List (Address × Address)

section
variable {Obj : Type} (K : JobOwners Obj) (copyNb : Address → Nat)

def State.owner (s : State Obj) (a : Address) : Option Owner :=
  (s.objects a).bind (K.ownerOf (copyNb a))

def State.setPhase (s : State Obj) (g : Address) (p : Phase) : State Obj :=
  { s with phase := Function.update s.phase g p }

def State.update (s : State Obj) (a : Address) (x : Option Obj) : State Obj :=
  { s with objects := Function.update s.objects a x }

def State.return (s : State Obj) (g : Address) (ret : List Address) : State Obj :=
  { s.setPhase g .idle with batches := Function.update s.batches g (s.batches g ++ [ret]) }

/-- The elements that were not popped leave the agent's list; the pop goes on unless there
was an unexpected failure. -/
def State.endRound (s : State Obj) (g : Address) (ret candidates : List Address)
    (results : Results) : State Obj :=
  let s' := { s with
    ownership := Function.update s.ownership g
      (s.ownership g \ (decisions results).elementsToDereferenceFromAgent.toFinset)
    tried := Function.update s.tried g (s.tried g ++ candidates) }
  if (decisions results).unexpectedException then s'.return g (ret ++ toReport candidates results)
  else s'.setPhase g (.ready (ret ++ toReport candidates results))

/-- What is reported as not there is not owned by the container. -/
def Informed (s : State Obj) (a : Address) (r : Option SwitchFailure) : Prop :=
  r = some .noSuchObject → s.owner K copyNb a ≠ some .container

/-- A step of an agent, with a condition on what the switches of owners report. -/
inductive Step (P : State Obj → Address → Option SwitchFailure → Prop) (s : State Obj) :
    State Obj → Prop
  | start (g : Address) : s.phase g = .idle →
      Step P s { s.setPhase g (.ready []) with tried := Function.update s.tried g [] }
  | select (g : Address) (ret candidates : List Address) : s.phase g = .ready ret →
      s.lock = none → candidates.Sublist s.references →
      Step P s { s.setPhase g (.selected ret candidates) with lock := some g }
  | addBatchToOwnership (g : Address) (ret candidates : List Address) :
      s.phase g = .selected ret candidates →
      Step P s { s.setPhase g (.switching ret candidates []) with
        ownership := Function.update s.ownership g (s.ownership g ∪ candidates.toFinset) }
  | switchOwner (g : Address) (ret candidates : List Address) (results : Results) (a : Address)
      (r : Option SwitchFailure) (x : Option Obj) : s.phase g = .switching ret candidates results →
      a ∈ candidates → a ∉ results.map Prod.fst →
      Switched K (copyNb a) (.agent g) .container (s.objects a) r x → P s a r →
      Step P s ((s.update a x).setPhase g (.switching ret candidates (results ++ [(a, r)])))
  | removeReferences (g : Address) (ret candidates : List Address) (results : Results) :
      s.phase g = .switching ret candidates results →
      (∀ a ∈ candidates, a ∈ results.map Prod.fst) →
      Step P s { s.setPhase g (.dereferenced ret candidates results) with
        references := s.references.filter (· ∉ toDereference candidates results)
        lock := none
        dereferencedBy :=
          s.dereferencedBy ++ (toDereference candidates results).map (g, ·) }
  | removeBatchFromOwnership (g : Address) (ret candidates : List Address) (results : Results) :
      s.phase g = .dereferenced ret candidates results →
      Step P s (s.endRound g ret candidates results)
  | finish (g : Address) (ret : List Address) : s.phase g = .ready ret → Step P s (s.return g ret)
  | crash (g : Address) :
      Step P s { s.setPhase g .crashed with lock := if s.lock = some g then none else s.lock }

theorem mem_foldl_sort (a : Address) (fs : List (Address × SwitchFailure)) (d : Decisions) :
    (a ∈ (fs.foldl Decisions.sort d).elementsNotToDereferenceFromContainer ↔
      a ∈ d.elementsNotToDereferenceFromContainer ∨ (a, .other) ∈ fs) ∧
    (a ∈ (fs.foldl Decisions.sort d).elementsNotToReport ↔
      a ∈ d.elementsNotToReport ∨ ∃ f, (a, f) ∈ fs ∧ f ≠ .couldNotUnlock) ∧
    (a ∈ (fs.foldl Decisions.sort d).elementsToDereferenceFromAgent ↔
      a ∈ d.elementsToDereferenceFromAgent ∨ ∃ f, (a, f) ∈ fs ∧ f ≠ .couldNotUnlock) := by
  induction fs generalizing d with
  | nil => simp
  | cons x fs ih =>
    obtain ⟨b, f⟩ := x
    obtain ⟨h1, h2, h3⟩ := ih (d.sort (b, f))
    rw [List.foldl_cons, h1, h2, h3]
    cases f with
    | noSuchObject => grind [Decisions.sort]
    | wrongPreviousOwner => grind [Decisions.sort]
    | couldNotUnlock => grind [Decisions.sort]
    | other => grind [Decisions.sort]

theorem mem_failed {results : Results} {a : Address} {f : SwitchFailure} :
    (a, f) ∈ failedOwnershipSwitchElements results ↔ (a, some f) ∈ results := by
  simp only [failedOwnershipSwitchElements, List.mem_filterMap, Option.map_eq_some_iff]
  constructor
  · rintro ⟨⟨b, r⟩, hb, g, hr, he⟩
    obtain ⟨rfl, rfl⟩ := Prod.mk.inj he
    rw [← hr]
    exact hb
  · intro h
    exact ⟨(a, some f), h, f, rfl, rfl⟩

theorem exists_failure {results : Results} {a : Address} :
    (∃ f, (a, f) ∈ failedOwnershipSwitchElements results ∧ f ≠ .couldNotUnlock) ↔
      ∃ r, (a, r) ∈ results ∧ ¬ Succeeded r := by
  simp only [mem_failed]
  constructor
  · rintro ⟨f, hf, hne⟩
    exact ⟨some f, hf, by simpa [Succeeded] using hne⟩
  · rintro ⟨r, hr, hns⟩
    cases r with
    | none => exact absurd (.inl rfl) hns
    | some f => exact ⟨f, hr, fun he => hns (.inr (by rw [he]))⟩

theorem mem_toDereference {candidates : List Address} {results : Results} {a : Address} :
    a ∈ toDereference candidates results ↔ a ∈ candidates ∧ (a, some .other) ∉ results := by
  have h := (mem_foldl_sort a (failedOwnershipSwitchElements results) {}).1
  simp only [List.not_mem_nil, false_or, mem_failed] at h
  simp [toDereference, decisions, h]

theorem mem_toReport {candidates : List Address} {results : Results} {a : Address} :
    a ∈ toReport candidates results ↔
      a ∈ candidates ∧ ∀ r, (a, r) ∈ results → Succeeded r := by
  have h := (mem_foldl_sort a (failedOwnershipSwitchElements results) {}).2.1
  simp only [List.not_mem_nil, false_or, exists_failure] at h
  rw [toReport, List.mem_filter, decide_eq_true_iff, decisions, h]
  simp

theorem mem_toDereferenceFromAgent {results : Results} {a : Address} :
    a ∈ (decisions results).elementsToDereferenceFromAgent ↔
      ∃ r, (a, r) ∈ results ∧ ¬ Succeeded r := by
  have h := (mem_foldl_sort a (failedOwnershipSwitchElements results) {}).2.2
  simp only [List.not_mem_nil, false_or, exists_failure] at h
  exact h

theorem unexpectedException_of_other (a : Address) (fs : List (Address × SwitchFailure))
    (d : Decisions) (h : d.unexpectedException = true ∨ (a, .other) ∈ fs) :
    (fs.foldl Decisions.sort d).unexpectedException = true := by
  induction fs generalizing d with
  | nil => simpa using h
  | cons x fs ih =>
    obtain ⟨b, f⟩ := x
    apply ih
    cases f with
    | noSuchObject => grind [Decisions.sort]
    | wrongPreviousOwner => grind [Decisions.sort]
    | couldNotUnlock => grind [Decisions.sort]
    | other => exact .inl rfl

def Phase.ret : Phase → List Address
  | .ready ret | .selected ret _ | .switching ret _ _ | .dereferenced ret _ _ => ret
  | .idle | .crashed => []

def State.popped (s : State Obj) (g : Address) : List Address :=
  (s.batches g).flatten ++ (s.phase g).ret

def Settled (s : State Obj) (g a : Address) (r : Option SwitchFailure) : Prop :=
  (Succeeded r → s.owner K copyNb a = some (.agent g)) ∧
  (¬ Succeeded r → s.owner K copyNb a ≠ some (.agent g)) ∧
  (r = some .noSuchObject ∨ r = some .wrongPreviousOwner →
    s.owner K copyNb a ≠ some .container)

def InPhase (s : State Obj) (g : Address) : Phase → Prop
  | .selected _ candidates => s.lock = some g ∧ candidates ⊆ s.references
  | .switching _ candidates results => s.lock = some g ∧ candidates ⊆ s.references ∧
      (∀ a ∈ candidates, a ∈ s.ownership g) ∧ (∀ x ∈ results, x.1 ∈ candidates) ∧
      (results.map Prod.fst).Nodup ∧
      (∀ x ∈ results, Settled K copyNb s g x.1 x.2) ∧
      ∀ a ∈ candidates, a ∉ results.map Prod.fst → s.owner K copyNb a ≠ some (.agent g)
  | .dereferenced _ candidates results => (∀ a ∈ candidates, a ∈ results.map Prod.fst) ∧
      (results.map Prod.fst).Nodup ∧
      (∀ x ∈ results, Settled K copyNb s g x.1 x.2) ∧
      (∀ a ∈ toDereference candidates results, a ∉ s.references) ∧
      ∀ a ∈ candidates, a ∉ toDereference candidates results →
        a ∈ s.references ∨ ∃ h, h ≠ g ∧ (h, a) ∈ s.dereferencedBy
  | _ => True

def MayHold (p : Phase) (a : Address) : Prop :=
  p = .crashed ∨ ∃ ret candidates results, p = .switching ret candidates results ∧
    a ∈ results.map Prod.fst

def Dropped (s : State Obj) (g a : Address) : Prop :=
  a ∉ s.references ∧ a ∉ s.ownership g ∧ s.owner K copyNb a ≠ some .container

def Left (s : State Obj) (g a : Address) : Prop :=
  a ∉ s.ownership g ∧ (a ∈ s.references ∨ ∃ h, h ≠ g ∧ (h, a) ∈ s.dereferencedBy)

/-- What became of the candidates of the finished rounds of a pop. One that is left in the
container ends the pop. -/
def Tried (s : State Obj) (g : Address) : Prop :=
  ∀ a ∈ s.tried g, s.phase g ≠ .crashed →
    a ∈ s.popped g ∨ Dropped K copyNb s g a ∨ s.phase g = .idle ∧ Left s g a

structure Inv (s : State Obj) : Prop where
  nodup : s.references.Nodup
  queued : ∀ a, s.owner K copyNb a = some .container → a ∈ s.references
  listed : ∀ a g, s.owner K copyNb a = some (.agent g) → a ∈ s.ownership g
  stale : ∀ a g, a ∈ s.references → s.owner K copyNb a = some (.agent g) → MayHold (s.phase g) a
  inPhase : ∀ g, InPhase K copyNb s g (s.phase g)
  popped : ∀ g, ∀ a ∈ s.popped g, s.owner K copyNb a = some (.agent g) ∧ a ∉ s.references
  tried : ∀ g, Tried K copyNb s g

/-- At the start no agent pops, every request is owned by the container, which references
it, or by an agent that lists it, and an agent whose request is still referenced crashed. -/
structure Initial (s : State Obj) : Prop where
  nodup : s.references.Nodup
  owned : ∀ a o, s.owner K copyNb a = some o → o = .container ∧ a ∈ s.references ∨
    ∃ g, o = .agent g ∧ a ∈ s.ownership g ∧ (a ∈ s.references → s.phase g = .crashed)
  phases : ∀ g, s.phase g = .idle ∨ s.phase g = .crashed
  batches : ∀ g, s.batches g = []
  tried : ∀ g, s.tried g = []

theorem Initial.inv {s : State Obj} (h : Initial K copyNb s) : Inv K copyNb s where
  nodup := h.nodup
  queued := by
    intro a ha
    cases h.owned a _ ha with
    | inl h => exact h.2
    | inr h =>
      obtain ⟨g, hg, -⟩ := h
      cases hg
  listed := by
    intro a g ha
    cases h.owned a _ ha with
    | inl h => cases h.1
    | inr h =>
      obtain ⟨g', hg, hl, -⟩ := h
      cases hg
      exact hl
  stale := by
    intro a g hr ha
    cases h.owned a _ ha with
    | inl h => cases h.1
    | inr h =>
      obtain ⟨g', hg, -, hc⟩ := h
      cases hg
      exact .inl (hc hr)
  inPhase := by
    intro g
    cases h.phases g with
    | inl hp => rw [hp]; trivial
    | inr hp => rw [hp]; trivial
  popped := by
    intro g a ha
    have hret : (s.phase g).ret = [] := by
      cases h.phases g with
      | inl hp => rw [hp]; rfl
      | inr hp => rw [hp]; rfl
    simp [State.popped, h.batches g, hret] at ha
  tried := by
    intro g a ha
    simp [h.tried g] at ha

end

end Cta.ObjectStore.PopNextBatch

import Cta.Lib.Runs
import Cta.ObjectStore.JobOwners
import Mathlib.Data.Finset.SDiff
import Mathlib.Data.List.Perm.Basic

/-! Queueing of elements that an agent owns: the commits of
`ContainerAlgorithms::referenceAndSwitchOwnership` in their order. -/
namespace Cta.ObjectStore.ReferenceAndSwitchOwnership
open Cta.Lib.Runs

structure Element where
  address : Address
  copyNb : Nat
  deriving DecidableEq, Repr

structure Store (Obj : Type) where
  references : List Address
  objects : Address → Option Obj
  ownership : Finset Address

structure Switch (Obj : Type) where
  element : Element
  failure : Option SwitchFailure
  object : Option Obj

inductive Commit (Obj : Type) where
  | addReferences (addresses : List Address)
  | updateJobOwner (switch : Switch Obj)
  | removeReferences (addresses : List Address)
  | removeBatchFromOwnership (addresses : List Address)

def Store.apply {Obj : Type} (s : Store Obj) : Commit Obj → Store Obj
  | .addReferences as => { s with references := s.references ++ as }
  | .updateJobOwner w => { s with objects := Function.update s.objects w.element.address w.object }
  | .removeReferences as => { s with references := s.references.filter (· ∉ as) }
  | .removeBatchFromOwnership as => { s with ownership := s.ownership \ as.toFinset }

/-- A call and what it meets: the parts in which the container stores the new references,
the owner updates in the order they take place, and the parts of the clean-up. -/
structure Call (Obj : Type) where
  elements : List Element
  added : List (List Address)
  switches : List (Switch Obj)
  removed : List (List Address)

section
variable {Obj : Type}

def Call.addresses (c : Call Obj) : List Address := c.elements.map Element.address

def Call.failedElementsSet (c : Call Obj) : List Address :=
  (c.switches.filter (·.failure.isSome)).map (·.element.address)

def Call.transferedElements (c : Call Obj) : List Address :=
  c.addresses.filter (· ∉ c.failedElementsSet)

/-- With failures the clean-up of the agent's list is for the other elements only, if there
are any. -/
def Call.lastCommits (c : Call Obj) : List (Commit Obj) :=
  if c.failedElementsSet = [] then [.removeBatchFromOwnership c.addresses]
  else if c.transferedElements = [] then []
  else [.removeBatchFromOwnership c.transferedElements]

def Call.commits (c : Call Obj) : List (Commit Obj) :=
  c.added.map .addReferences ++ c.switches.map .updateJobOwner ++
    c.removed.map .removeReferences ++ c.lastCommits

variable (K : JobOwners Obj) (agent : Address)

def Store.owner (s : Store Obj) (e : Element) : Option Owner :=
  (s.objects e.address).bind (K.ownerOf e.copyNb)

def Switches : Store Obj → List (Switch Obj) → Prop
  | _, [] => True
  | s, w :: ws =>
    Switched K w.element.copyNb .container (.agent agent) (s.objects w.element.address) w.failure
        w.object ∧
      Switches (s.apply (.updateJobOwner w)) ws

/-- Calls that can happen on a store: all the references are added, all the owners updated,
and the references of the failed elements removed again. -/
structure Call.Happens (s : Store Obj) (c : Call Obj) : Prop where
  added : ∀ a, a ∈ c.added.flatten ↔ a ∈ c.addresses
  elements : (c.switches.map Switch.element).Perm c.elements
  switches : Switches K agent s c.switches
  removed : ∀ a, a ∈ c.removed.flatten ↔ a ∈ c.failedElementsSet

def Kept (s : Store Obj) (e : Element) : Prop :=
  s.owner K e = some .container ∧ e.address ∈ s.references ∨
    s.owner K e = some (.agent agent) ∧ e.address ∈ s.ownership

def Call.OrphansNothing (s : Store Obj) (c : Call Obj) : Prop :=
  AllStates Store.apply (fun t => ∀ e ∈ c.elements, Kept K agent t e) s c.commits

/-- No update took effect and yet failed to unlock, and those of one address agree. -/
def Call.ClearOutcomes (c : Call Obj) : Prop :=
  (∀ w ∈ c.switches, w.failure ≠ some .couldNotUnlock) ∧
    ∀ w ∈ c.switches, ∀ w' ∈ c.switches, w.element.address = w'.element.address →
      w.failure = none → w'.failure = none

variable {K agent} {s : Store Obj} {c : Call Obj}

theorem foldl_addReferences (s : Store Obj) (parts : List (List Address)) :
    (parts.map Commit.addReferences).foldl Store.apply s =
      { s with references := s.references ++ parts.flatten } := by
  induction parts generalizing s with
  | nil => simp
  | cons p parts ih => simp [ih, Store.apply]

theorem foldl_removeReferences (s : Store Obj) (parts : List (List Address)) :
    (parts.map Commit.removeReferences).foldl Store.apply s =
      { s with references := s.references.filter (· ∉ parts.flatten) } := by
  induction parts generalizing s with
  | nil => simp
  | cons p parts ih =>
    simp only [List.map_cons, List.foldl_cons, ih, Store.apply, List.filter_filter,
      List.flatten_cons]
    congr 1
    apply List.filter_congr
    intro a _
    grind

theorem foldl_updateJobOwner (s : Store Obj) (ws : List (Switch Obj)) :
    ((ws.map Commit.updateJobOwner).foldl Store.apply s).references = s.references ∧
      ((ws.map Commit.updateJobOwner).foldl Store.apply s).ownership = s.ownership := by
  induction ws generalizing s with
  | nil => simp
  | cons w ws ih => simp [ih, Store.apply]

theorem Switches.congr {s t : Store Obj} {ws : List (Switch Obj)} (h : Switches K agent s ws)
    (ho : t.objects = s.objects) : Switches K agent t ws := by
  induction ws generalizing s t with
  | nil => trivial
  | cons w ws ih =>
    refine ⟨by rw [ho]; exact h.1, ih h.2 ?_⟩
    simp [Store.apply, ho]

theorem owner_updateJobOwner {w : Switch Obj}
    (hw : Switched K w.element.copyNb .container (.agent agent) (s.objects w.element.address)
      w.failure w.object) (e : Element) :
    (s.apply (.updateJobOwner w)).owner K e = s.owner K e ∨
      (s.owner K e).isSome ∧ (s.apply (.updateJobOwner w)).owner K e = some .container := by
  by_cases he : e.address = w.element.address
  · have h := hw.other_copy e.copyNb
    simpa [Store.owner, Store.apply, he] using h
  · exact .inl (by simp [Store.owner, Store.apply, he])

theorem owner_container_switches {ws : List (Switch Obj)} (h : Switches K agent s ws) {e : Element}
    (he : s.owner K e = some .container) :
    ((ws.map Commit.updateJobOwner).foldl Store.apply s).owner K e = some .container := by
  induction ws generalizing s with
  | nil => exact he
  | cons w ws ih =>
    apply ih h.2
    cases owner_updateJobOwner h.1 e with
    | inl hsame => exact hsame.trans he
    | inr hnew => exact hnew.2

theorem owner_of_succeeded {ws : List (Switch Obj)} (h : Switches K agent s ws) {w : Switch Obj}
    (hw : w ∈ ws) (hs : Succeeded w.failure) :
    ((ws.map Commit.updateJobOwner).foldl Store.apply s).owner K w.element = some .container := by
  induction ws generalizing s with
  | nil => cases hw
  | cons v ws ih =>
    cases List.mem_cons.mp hw with
    | inl he =>
      subst he
      apply owner_container_switches h.2
      have ho := (h.1.owner_of_succeeded hs).2
      simpa [Store.owner, Store.apply] using ho
    | inr hm => exact ih h.2 hm

theorem objects_of_not_succeeded {ws : List (Switch Obj)} (h : Switches K agent s ws) {a : Address}
    (ha : ∀ w ∈ ws, w.element.address = a → ¬ Succeeded w.failure) :
    ((ws.map Commit.updateJobOwner).foldl Store.apply s).objects a = s.objects a := by
  induction ws generalizing s with
  | nil => rfl
  | cons w ws ih =>
    refine (ih h.2 fun v hv => ha v (List.mem_cons_of_mem w hv)).trans ?_
    by_cases hwa : w.element.address = a
    · have hx := h.1.unchanged (ha w List.mem_cons_self hwa)
      simp [Store.apply, ← hwa, hx]
    · simp [Store.apply, Ne.symm hwa]

theorem allStates_switches {ws : List (Switch Obj)} {es : List Element}
    (h : Switches K agent s ws)
    (ho : ∀ e ∈ es, s.owner K e = some .container ∨ s.owner K e = some (.agent agent))
    (hr : ∀ e ∈ es, e.address ∈ s.references) (hl : ∀ e ∈ es, e.address ∈ s.ownership) :
    AllStates Store.apply (fun t => ∀ e ∈ es, Kept K agent t e) s (ws.map .updateJobOwner) := by
  have hkept : ∀ e ∈ es, Kept K agent s e := by
    intro e he
    cases ho e he with
    | inl hc => exact .inl ⟨hc, hr e he⟩
    | inr ha => exact .inr ⟨ha, hl e he⟩
  induction ws generalizing s with
  | nil => exact hkept
  | cons w ws ih =>
    have ho' : ∀ e ∈ es, (s.apply (.updateJobOwner w)).owner K e = some .container ∨
        (s.apply (.updateJobOwner w)).owner K e = some (.agent agent) := by
      intro e he
      cases owner_updateJobOwner h.1 e with
      | inl hsame => rw [hsame]; exact ho e he
      | inr hnew => exact .inl hnew.2
    refine ⟨hkept, ih h.2 ho' hr hl fun e he => ?_⟩
    cases ho' e he with
    | inl hc => exact .inl ⟨hc, hr e he⟩
    | inr ha => exact .inr ⟨ha, hl e he⟩

theorem Call.ClearOutcomes.not_failed (h : c.ClearOutcomes) {w : Switch Obj}
    (hw : w ∈ c.switches) (hs : Succeeded w.failure) :
    w.element.address ∉ c.failedElementsSet := by
  have hnone : w.failure = none := by
    cases hs with
    | inl hs => exact hs
    | inr hs => exact absurd hs (h.1 w hw)
  intro hf
  obtain ⟨v, hv, he⟩ := List.mem_map.mp hf
  obtain ⟨hv, hfail⟩ := List.mem_filter.mp hv
  simp [h.2 w hw v hv he.symm hnone] at hfail

/-- The store after the updates: the container owns the elements that did not fail, the
agent the others. -/
theorem owner_after_switches (h : Switches K agent s c.switches) (hc : c.ClearOutcomes)
    (he : (c.switches.map Switch.element).Perm c.elements)
    (ho : ∀ e ∈ c.elements, s.owner K e = some (.agent agent)) {e : Element}
    (hm : e ∈ c.elements) :
    (c.switches.map Commit.updateJobOwner |>.foldl Store.apply s).owner K e =
      if e.address ∈ c.failedElementsSet then some (.agent agent) else some .container := by
  obtain ⟨w, hw, rfl⟩ := List.mem_map.mp (he.mem_iff.mpr hm)
  split
  · next hf =>
    have hobj := objects_of_not_succeeded h (a := w.element.address) fun v hv hva hs =>
      hc.not_failed hv hs (hva ▸ hf)
    rw [Store.owner, hobj]
    exact ho _ hm
  · next hf =>
    apply owner_of_succeeded h hw
    by_contra hs
    refine hf (List.mem_map.mpr ⟨w, List.mem_filter.mpr ⟨hw, ?_⟩, rfl⟩)
    rw [Option.isSome_iff_ne_none]
    exact fun hn => hs (.inl hn)

def Call.referenced (c : Call Obj) (s : Store Obj) : Store Obj :=
  { s with references := s.references ++ c.added.flatten }

def Call.switched (c : Call Obj) (s : Store Obj) : Store Obj :=
  (c.switches.map .updateJobOwner).foldl Store.apply (c.referenced s)

def Call.cleaned (c : Call Obj) (s : Store Obj) : Store Obj :=
  { c.switched s with
    references := (c.switched s).references.filter (· ∉ c.removed.flatten) }

theorem foldl_commits (c : Call Obj) (s : Store Obj) :
    c.commits.foldl Store.apply s = c.lastCommits.foldl Store.apply (c.cleaned s) := by
  simp only [Call.commits, List.foldl_append, foldl_addReferences, foldl_removeReferences]
  rfl

theorem lastCommits_cases (c : Call Obj) :
    c.lastCommits = [] ∨ ∃ as, c.lastCommits = [.removeBatchFromOwnership as] ∧
      ∀ a ∈ as, a ∉ c.failedElementsSet := by
  unfold Call.lastCommits
  split
  · next h => exact .inr ⟨_, rfl, by simp [h]⟩
  · split
    · exact .inl rfl
    · refine .inr ⟨_, rfl, fun a ha => ?_⟩
      rw [Call.transferedElements, List.mem_filter, decide_eq_true_eq] at ha
      exact ha.2

theorem commits_last (c : Call Obj) (s : Store Obj) :
    (c.commits.foldl Store.apply s).references = (c.cleaned s).references ∧
      (c.commits.foldl Store.apply s).objects = (c.switched s).objects := by
  rw [foldl_commits]
  cases lastCommits_cases c with
  | inl h => rw [h]; exact ⟨rfl, rfl⟩
  | inr h =>
    obtain ⟨as, h, -⟩ := h
    rw [h]
    exact ⟨rfl, rfl⟩

theorem Call.Happens.not_orphansNothing (h : c.Happens K agent s) {w : Switch Obj}
    (hw : w ∈ c.switches) (hs : Succeeded w.failure)
    (hf : w.element.address ∈ c.failedElementsSet) : ¬ c.OrphansNothing K agent s := by
  intro hall
  have hm : w.element ∈ c.elements := h.elements.mem_iff.mp (List.mem_map_of_mem hw)
  have hk := hall.last w.element hm
  have hsw : Switches K agent (c.referenced s) c.switches := h.switches.congr rfl
  have ho : (c.commits.foldl Store.apply s).owner K w.element = some .container := by
    rw [Store.owner, (commits_last c s).2]
    exact owner_of_succeeded hsw hw hs
  cases hk with
  | inl hk =>
    have hr := hk.2
    rw [(commits_last c s).1, Call.cleaned, List.mem_filter, decide_eq_true_eq, h.removed] at hr
    exact hr.2 hf
  | inr hk =>
    have he := ho.symm.trans hk.1
    simp at he

/-- From the end of the updates on, the references of the elements that did not fail and
the agent's list of the others stay. -/
def Call.CleaningUp (c : Call Obj) (s t : Store Obj) : Prop :=
  t.objects = (c.switched s).objects ∧
    (∀ a ∈ c.addresses, a ∉ c.failedElementsSet → a ∈ t.references) ∧
    ∀ a ∈ s.ownership, a ∈ c.failedElementsSet → a ∈ t.ownership

theorem Call.Happens.cleaningUp_switched (h : c.Happens K agent s) :
    c.CleaningUp s (c.switched s) := by
  obtain ⟨hr, hl⟩ := foldl_updateJobOwner (c.referenced s) c.switches
  refine ⟨rfl, fun a ha _ => ?_, fun a ha _ => ?_⟩
  · rw [Call.switched, hr]
    exact List.mem_append_right _ ((h.added a).mpr ha)
  · rw [Call.switched, hl]
    exact ha

theorem Call.Happens.cleaningUp_step (h : c.Happens K agent s) {t : Store Obj} {d : Commit Obj}
    (hd : d ∈ c.removed.map .removeReferences ++ c.lastCommits) (ht : c.CleaningUp s t) :
    c.CleaningUp s (t.apply d) := by
  obtain ⟨hobj, href, hown⟩ := ht
  cases List.mem_append.mp hd with
  | inl hd =>
    obtain ⟨as, has, rfl⟩ := List.mem_map.mp hd
    refine ⟨hobj, fun a ha hf => List.mem_filter.mpr ⟨href a ha hf, ?_⟩, hown⟩
    rw [decide_eq_true_eq]
    exact fun hm => hf ((h.removed a).mp (List.mem_flatten_of_mem has hm))
  | inr hd =>
    cases lastCommits_cases c with
    | inl hl => simp [hl] at hd
    | inr hl =>
      obtain ⟨as, hl, has⟩ := hl
      rw [hl, List.mem_singleton] at hd
      subst hd
      refine ⟨hobj, href, fun a ha hf => ?_⟩
      simp only [Store.apply, Finset.mem_sdiff, List.mem_toFinset]
      exact ⟨hown a ha hf, fun hm => has a hm hf⟩

theorem Call.Happens.kept (h : c.Happens K agent s) (hc : c.ClearOutcomes)
    (ho : ∀ e ∈ c.elements, s.owner K e = some (.agent agent) ∧ e.address ∈ s.ownership)
    {t : Store Obj} (ht : c.CleaningUp s t) {e : Element} (he : e ∈ c.elements) :
    Kept K agent t e := by
  obtain ⟨hobj, href, hown⟩ := ht
  have hsw : Switches K agent (c.referenced s) c.switches := h.switches.congr rfl
  have hte : t.owner K e = (c.switched s).owner K e := by rw [Store.owner, Store.owner, hobj]
  have hafter := owner_after_switches hsw hc h.elements (fun e he => (ho e he).1) he
  by_cases hf : e.address ∈ c.failedElementsSet
  · rw [if_pos hf] at hafter
    exact .inr ⟨hte.trans hafter, hown _ (ho e he).2 hf⟩
  · rw [if_neg hf] at hafter
    exact .inl ⟨hte.trans hafter, href _ (List.mem_map_of_mem he) hf⟩

theorem allStates_addReferences {es : List Element} (parts : List (List Address))
    (ho : ∀ e ∈ es, s.owner K e = some (.agent agent) ∧ e.address ∈ s.ownership) :
    AllStates Store.apply (fun t => ∀ e ∈ es, Kept K agent t e) s
      (parts.map .addReferences) := by
  apply AllStates.of_invariant (I := fun t => t.objects = s.objects ∧ t.ownership = s.ownership)
    ⟨rfl, rfl⟩
  · intro t d hd ht
    obtain ⟨as, -, rfl⟩ := List.mem_map.mp hd
    exact ht
  · intro t ht e he
    refine .inr ⟨?_, by rw [ht.2]; exact (ho e he).2⟩
    rw [Store.owner, ht.1]
    exact (ho e he).1

theorem Call.Happens.orphansNothing (h : c.Happens K agent s) (hc : c.ClearOutcomes)
    (ho : ∀ e ∈ c.elements, s.owner K e = some (.agent agent) ∧ e.address ∈ s.ownership) :
    c.OrphansNothing K agent s := by
  have hswitches : Switches K agent (c.referenced s) c.switches := h.switches.congr rfl
  have hrefs : ∀ e ∈ c.elements, e.address ∈ (c.referenced s).references := fun e he =>
    List.mem_append_right _ ((h.added _).mpr (List.mem_map_of_mem he))
  have hswitching := allStates_switches hswitches (fun e he => .inr (ho e he).1) hrefs
    fun e he => (ho e he).2
  have hcleaning : AllStates Store.apply (fun t => ∀ e ∈ c.elements, Kept K agent t e)
      (c.switched s) (c.removed.map .removeReferences ++ c.lastCommits) :=
    AllStates.of_invariant h.cleaningUp_switched (fun t d hd => h.cleaningUp_step (t := t) hd)
      fun t ht e he => h.kept hc ho ht he
  have hadding := allStates_addReferences c.added ho
  have hall := hadding.append (by rw [foldl_addReferences]; exact hswitching.append hcleaning)
  rw [Call.OrphansNothing, Call.commits, List.append_assoc, List.append_assoc]
  exact hall

/-- Queueing orphans no element at any crash point or end of the call, exactly when no
update that took effect is taken for a failure. -/
theorem orphansNothing_iff (h : c.Happens K agent s)
    (ho : ∀ e ∈ c.elements, s.owner K e = some (.agent agent) ∧ e.address ∈ s.ownership) :
    c.OrphansNothing K agent s ↔ c.ClearOutcomes := by
  constructor
  · intro hall
    constructor
    · intro w hw hf
      refine h.not_orphansNothing hw (.inr hf) ?_ hall
      exact List.mem_map.mpr ⟨w, List.mem_filter.mpr ⟨hw, by simp [hf]⟩, rfl⟩
    · intro w hw v hv he hn
      by_contra hv'
      refine h.not_orphansNothing hw (.inl hn) ?_ hall
      rw [he]
      exact List.mem_map.mpr ⟨v, List.mem_filter.mpr ⟨hv, Option.isSome_iff_ne_none.mpr hv'⟩, rfl⟩
  · intro hc
    exact h.orphansNothing hc ho

end

def oneOwned : Store (RetrieveRequest Owner) where
  references := []
  objects := fun a => if a = "a" then some ⟨.agent "g", [1]⟩ else none
  ownership := {"a"}

def queueOne (failure : Option SwitchFailure) : Call (RetrieveRequest Owner) where
  elements := [⟨"a", 1⟩]
  added := [["a"]]
  switches := [⟨⟨"a", 1⟩, failure, some ⟨.container, [1]⟩⟩]
  removed := if failure.isSome then [["a"]] else []

theorem oneOwned_owned (e : Element) (he : e ∈ [(⟨"a", 1⟩ : Element)]) :
    oneOwned.owner retrieveRequests e = some (.agent "g") ∧ e.address ∈ oneOwned.ownership := by
  rw [List.mem_singleton.mp he]
  simp [Store.owner, oneOwned, retrieveRequests]

theorem queueOne_happens {failure : Option SwitchFailure} (hs : Succeeded failure) :
    (queueOne failure).Happens retrieveRequests "g" oneOwned := by
  cases hs with
  | inl h =>
    subst h
    exact ⟨by simp [queueOne, Call.addresses], .refl _, ⟨.done rfl, trivial⟩,
      by simp [queueOne, Call.failedElementsSet]⟩
  | inr h =>
    subst h
    exact ⟨by simp [queueOne, Call.addresses], .refl _, ⟨.couldNotUnlock rfl, trivial⟩,
      by simp [queueOne, Call.failedElementsSet]⟩

theorem orphansNothing_iff_queueOne :
    (queueOne none).Happens retrieveRequests "g" oneOwned ∧
      ((queueOne none).OrphansNothing retrieveRequests "g" oneOwned ↔
        (queueOne none).ClearOutcomes) :=
  ⟨queueOne_happens (.inl rfl), orphansNothing_iff (queueOne_happens (.inl rfl)) oneOwned_owned⟩

/-- An update that is committed but not unlocked leaves a request that the container owns
and nobody references. -/
theorem queueOne_orphans :
    (queueOne (some .couldNotUnlock)).Happens retrieveRequests "g" oneOwned ∧
      (∀ e ∈ (queueOne (some .couldNotUnlock)).elements,
        oneOwned.owner retrieveRequests e = some (.agent "g") ∧
          e.address ∈ oneOwned.ownership) ∧
      ¬ (queueOne (some .couldNotUnlock)).OrphansNothing retrieveRequests "g" oneOwned := by
  have h := queueOne_happens (.inr rfl)
  refine ⟨h, oneOwned_owned, h.not_orphansNothing List.mem_cons_self (.inr rfl) ?_⟩
  simp [queueOne, Call.failedElementsSet]

end Cta.ObjectStore.ReferenceAndSwitchOwnership

import Cta.Lib.Runs
import Cta.ObjectStore.RootEntry
import Mathlib.Data.List.Nodup

/-! Which queues the root entry refers to, along any calls that add and remove queues. -/
namespace Cta.ObjectStore.RootEntry
open Cta.Lib.Runs Cta.Lib.Sequence
open GarbageCollector (JobQueueType)

/-- The last call stands for what anybody else does to the queues and the registers. -/
inductive Call where
  | addOrGetQueueAndCommit (k : QueueKind) (name : String) (nextId : String → Address)
      (queueType : JobQueueType) (o : Outcome)
  | removeQueueAndCommit (k : QueueKind) (name : String) (queueType : JobQueueType) (o : Outcome)
  | isEmpty
  | removeIfEmpty (o : Outcome)
  | others (objects : Address → Option QueueObject) (registers : Registers)

def Call.readsIsEmpty : Call → Bool
  | .isEmpty => true
  | .removeIfEmpty _ => true
  | _ => false

namespace State

def after (s : State) : Call → State
  | .addOrGetQueueAndCommit k name nextId queueType o =>
    (RootEntry.addOrGetQueueAndCommit k name nextId queueType o s).2
  | .removeQueueAndCommit k name queueType o =>
    (RootEntry.removeQueueAndCommit k name queueType o s).2
  | .isEmpty => s
  | .removeIfEmpty o => (RootEntry.removeIfEmpty o s).2
  | .others objects registers =>
    ⟨s.root.map fun root => { root with toRegisters := registers }, objects⟩

def answer (s : State) (k : QueueKind) (queueType : JobQueueType) (name : String) :
    Call → Option Address
  | .addOrGetQueueAndCommit k' name' nextId queueType' o =>
    if k' = k ∧ queueType' = queueType ∧ name' = name then
      (RootEntry.addOrGetQueueAndCommit k name nextId queueType o s).1.toOption
    else none
  | _ => none

def listed (s : State) (k : QueueKind) (queueType : JobQueueType) : List QueuePointer :=
  (s.root.map fun root => root.pointers k queueType).getD []

def pointer (s : State) (k : QueueKind) (queueType : JobQueueType) (name : String) :
    Option Address :=
  (findElement (s.listed k queueType) name).map (·.address)

def Gone (s : State) (address : Address) : Prop :=
  ∀ queue, s.objects address = some queue → queue.isEmpty = true

end State

/-- What the addresses returned since the creation of each pointer are. -/
structure World where
  state : State
  answers : QueueKind → JobQueueType → String → List Address

def World.next (w : World) (c : Call) : World where
  state := w.state.after c
  answers k queueType name :=
    if ((w.state.after c).pointer k queueType name).isNone then []
    else (w.state.answer k queueType name c).toList ++ w.answers k queueType name

/-- A queue has one pointer, to the address that all the calls returned. -/
structure World.Sound (w : World) : Prop where
  unique : ∀ k t, ((w.state.listed k t).map (·.name)).Nodup
  answered : ∀ k t name a, w.state.pointer k t name = some a → ∀ b ∈ w.answers k t name, b = a

/-- A call keeps the pointers of the queues with jobs, and finds a root entry empty only if there
is no pointer left. -/
structure Respected (w : World) (c : Call) : Prop where
  sound : (w.next c).Sound
  kept : ∀ k t name a, w.state.pointer k t name = some a →
    (w.state.after c).pointer k t name ≠ some a → w.state.Gone a
  emptied : c.readsIsEmpty = true → ∀ root, w.state.root = some root → root.isEmpty = true →
    ∀ k t, root.pointers k t = []

def Payload.Seen (r : Payload) : Prop :=
  Payload.set r.driveregisterpointer = true ∨ r.agentregisterintent ≠ "" ∨
    Payload.set r.agentregisterpointer = true ∨ Payload.set r.schedulerlockpointer = true ∨
    (∃ t ∈ [JobQueueType.jobsToTransferForUser, .jobsToReportToUser, .failedJobs],
      r.archiveQueuePointers t ≠ []) ∨
    ∃ t ∈ [JobQueueType.jobsToTransferForUser, .jobsToReportToUser, .failedJobs,
      .jobsToReportToRepackForSuccess], r.retrieveQueuePointers t ≠ []

structure Payload.NothingUnseen (r : Payload) : Prop where
  archive : ∀ t ∈ [JobQueueType.jobsToTransferForRepack, .jobsToReportToRepackForSuccess,
    .jobsToReportToRepackForFailure], r.archiveQueuePointers t = []
  retrieve : ∀ t ∈ [JobQueueType.jobsToReportToRepackForFailure, .jobsToTransferForRepack],
    r.retrieveQueuePointers t = []

/-- The root entry is only asked for being empty while it refers to no queue of these types, or to
something else that is looked at. -/
def SeesAll (w : World) (c : Call) : Prop :=
  c.readsIsEmpty = true → ∀ root, w.state.root = some root → root.Seen ∨ root.NothingUnseen

section
variable {r : Payload} {k k' : QueueKind} {t t' : JobQueueType} {name : String}
  {field : List QueuePointer} {p : QueuePointer}

@[simp] theorem pointers_mutablePointers (f : List QueuePointer → List QueuePointer) :
    (r.mutablePointers f k t).pointers k t = f (r.pointers k t) := by
  cases k <;> cases t <;> rfl

theorem pointers_mutablePointers_ne (f : List QueuePointer → List QueuePointer)
    (h : (k', t') ≠ (k, t)) : (r.mutablePointers f k t).pointers k' t' = r.pointers k' t' := by
  cases k <;> cases t <;> cases k' <;> cases t' <;> first | rfl | exact absurd rfl h

theorem isEmpty_iff : r.isEmpty = true ↔ ¬r.Seen := by
  unfold Payload.isEmpty Payload.Seen
  simp only [List.any_eq_true, Bool.not_eq_true', List.isEmpty_eq_false_iff, not_or]
  split_ifs with hd hi ha hs hq hr
  · exact iff_of_false nofun fun h => h.1 hd
  · exact iff_of_false nofun fun h => h.2.1 hi
  · exact iff_of_false nofun fun h => h.2.2.1 ha
  · exact iff_of_false nofun fun h => h.2.2.2.1 hs
  · exact iff_of_false nofun fun h => h.2.2.2.2.1 hq
  · exact iff_of_false nofun fun h => h.2.2.2.2.2 hr
  · exact iff_of_true rfl ⟨hd, hi, ha, hs, hq, hr⟩

theorem emptied_iff : (r.isEmpty = true → ∀ k t, r.pointers k t = []) ↔
    r.Seen ∨ r.NothingUnseen := by
  rw [isEmpty_iff]
  constructor
  · intro h
    by_cases hs : r.Seen
    · exact .inl hs
    · exact .inr ⟨fun t _ => h hs .archive t, fun t _ => h hs .retrieve t⟩
  · rintro (hs | ⟨ha, hr⟩) hno k t
    · exact absurd hs hno
    · simp only [Payload.Seen, not_or, not_exists, not_and, not_not] at hno
      obtain ⟨-, -, -, -, harchive, hretrieve⟩ := hno
      have harchiveType : t ∈ [JobQueueType.jobsToTransferForUser, .jobsToReportToUser,
          .failedJobs] ∨ t ∈ [JobQueueType.jobsToTransferForRepack,
          .jobsToReportToRepackForSuccess, .jobsToReportToRepackForFailure] := by
        cases t <;> decide
      have hretrieveType : t ∈ [JobQueueType.jobsToTransferForUser, .jobsToReportToUser,
          .failedJobs, .jobsToReportToRepackForSuccess] ∨
          t ∈ [JobQueueType.jobsToReportToRepackForFailure, .jobsToTransferForRepack] := by
        cases t <;> decide
      cases k with
      | archive => exact harchiveType.elim (harchive t) (ha t)
      | retrieve => exact hretrieveType.elim (hretrieve t) (hr t)

theorem findElement_eq_some (h : (field.map (·.name)).Nodup) :
    findElement field name = some p ↔ p ∈ field ∧ p.name = name := by
  constructor
  · intro hf
    exact ⟨List.mem_of_find?_eq_some hf, by simpa using List.find?_some hf⟩
  · rintro ⟨hp, rfl⟩
    cases hf : findElement field p.name with
    | none => exact absurd (List.find?_eq_none.mp hf p hp) (by simp)
    | some q =>
      have hname : q.name = p.name := by simpa using List.find?_some hf
      rw [List.inj_on_of_nodup_map h (List.mem_of_find?_eq_some hf) hp hname]

theorem findElement_eq_none : findElement field name = none ↔ name ∉ field.map (·.name) := by
  simp [findElement]

theorem removeOccurences_perm (field : List QueuePointer) (name : String) :
    (removeOccurences field name).Perm (field.filter fun p => !decide (p.name = name)) :=
  swapOutAll_perm le_rfl

theorem findElement_append (ps : List QueuePointer) (h : findElement field name = some p) :
    findElement (field ++ ps) name = some p := by
  rw [findElement] at h
  rw [findElement, List.find?_append, h, Option.some_or]

theorem nodup_removeOccurences (h : (field.map (·.name)).Nodup) :
    ((removeOccurences field name).map (·.name)).Nodup := by
  rw [((removeOccurences_perm field name).map _).nodup_iff]
  exact h.sublist (List.filter_sublist.map _)

theorem findElement_removeOccurences (h : (field.map (·.name)).Nodup) {name' : String} :
    findElement (removeOccurences field name) name' =
      if name' = name then none else findElement field name' := by
  have hmem : ∀ q, q ∈ removeOccurences field name ↔ q ∈ field ∧ q.name ≠ name := by
    intro q
    rw [(removeOccurences_perm field name).mem_iff, List.mem_filter]
    simp
  ext q
  rw [findElement_eq_some (nodup_removeOccurences h), hmem]
  split_ifs with hname
  · simp [hname]
  · rw [findElement_eq_some h]
    grind

end

namespace State
variable {s : State} {c : Call} {k : QueueKind} {t : JobQueueType} {name : String} {a b : Address}

def Unique (s : State) : Prop := ∀ k t, ((s.listed k t).map (·.name)).Nodup

theorem listed_of_root {root : Payload} (h : s.root = some root) (k : QueueKind)
    (t : JobQueueType) : s.listed k t = root.pointers k t := by
  simp [listed, h]

theorem listed_mutablePointers {s' : State} {root : Payload}
    (f : List QueuePointer → List QueuePointer) (h : s.root = some root)
    (h' : s'.root = some (root.mutablePointers f k t)) : s'.listed k t = f (s.listed k t) ∧
      ∀ k' t', (k', t') ≠ (k, t) → s'.listed k' t' = s.listed k' t' := by
  refine ⟨?_, fun k' t' hkt => ?_⟩
  · rw [listed_of_root h', listed_of_root h, pointers_mutablePointers]
  · rw [listed_of_root h', listed_of_root h, pointers_mutablePointers_ne f hkt]

theorem addOrGet_root (nextId : String → Address) (o : Outcome) (s : State) :
    (addOrGetQueueAndCommit k name nextId t o s).2.root = s.root ∨
      ∃ root address, s.root = some root ∧ findElement (root.pointers k t) name = none ∧
        (addOrGetQueueAndCommit k name nextId t o s).2.root =
          some (root.mutablePointers (· ++ [⟨address, name⟩]) k t) := by
  obtain ⟨root | root, objects⟩ := s
  · exact .inl rfl
  · unfold addOrGetQueueAndCommit
    dsimp only
    cases hfind : findElement (root.pointers k t) name with
    | some p => exact .inl rfl
    | none =>
      dsimp only
      split_ifs
      · exact .inl rfl
      · exact .inr ⟨root, _, rfl, hfind, rfl⟩
      · exact .inr ⟨root, _, rfl, hfind, rfl⟩

theorem deleteFromRootEntry_root (o : Outcome) (root : Payload) (s : State) :
    (deleteFromRootEntry k name t o root s).2.root = s.root ∨
      (deleteFromRootEntry k name t o root s).2.root =
        some (root.mutablePointers (removeOccurences · name) k t) := by
  unfold deleteFromRootEntry
  split_ifs
  · exact .inl rfl
  · exact .inr rfl

theorem remove_root (o : Outcome) (s : State) :
    (removeQueueAndCommit k name t o s).2.root = s.root ∨
      ∃ root p, s.root = some root ∧ findElement (root.pointers k t) name = some p ∧
        s.Gone p.address ∧ (removeQueueAndCommit k name t o s).2.root =
          some (root.mutablePointers (removeOccurences · name) k t) := by
  obtain ⟨root | root, objects⟩ := s
  · exact .inl rfl
  · unfold removeQueueAndCommit
    dsimp only
    cases hfind : findElement (root.pointers k t) name with
    | none => exact .inl rfl
    | some p =>
      dsimp only
      cases hobject : objects p.address with
      | none =>
        have hgone : Gone ⟨some root, objects⟩ p.address := by simp [Gone, hobject]
        exact (deleteFromRootEntry_root o root _).imp_right
          fun hdone => ⟨root, p, rfl, hfind, hgone, hdone⟩
      | some queue =>
        dsimp only
        split_ifs with hlock hname hempty hremove
        · exact .inl rfl
        · exact .inl rfl
        · exact .inl rfl
        · exact .inl rfl
        · have hgone : Gone ⟨some root, objects⟩ p.address := by
            intro q hq
            rw [← Option.some.inj (hobject.symm.trans hq)]
            simpa using hempty
          exact (deleteFromRootEntry_root o root _).imp_right
            fun hdone => ⟨root, p, rfl, hfind, hgone, hdone⟩

theorem removeIfEmpty_root (o : Outcome) (s : State) :
    (removeIfEmpty o s).2.root = s.root ∨
      ∃ root, s.root = some root ∧ root.isEmpty = true ∧ (removeIfEmpty o s).2.root = none := by
  obtain ⟨root | root, objects⟩ := s
  · exact .inl rfl
  · unfold removeIfEmpty
    dsimp only
    split_ifs with hempty
    · exact .inl rfl
    · exact .inl rfl
    · exact .inr ⟨root, rfl, by simpa using hempty, rfl⟩

theorem listed_of_same {s' : State} (h : s'.root = s.root) (k : QueueKind) (t : JobQueueType) :
    s'.listed k t = s.listed k t := by
  rw [listed, h, listed]

/-- What a call can do to the lists of pointers: nothing, to add a pointer, to remove those of one
queue that is gone, to remove them all with a root entry that looks empty. -/
theorem listed_after (s : State) (c : Call) :
    (∀ k t, (s.after c).listed k t = s.listed k t) ∨
    (∃ k t p, findElement (s.listed k t) p.name = none ∧
      (s.after c).listed k t = s.listed k t ++ [p] ∧
      ∀ k' t', (k', t') ≠ (k, t) → (s.after c).listed k' t' = s.listed k' t') ∨
    (∃ k t p, findElement (s.listed k t) p.name = some p ∧ s.Gone p.address ∧
      (s.after c).listed k t = removeOccurences (s.listed k t) p.name ∧
      ∀ k' t', (k', t') ≠ (k, t) → (s.after c).listed k' t' = s.listed k' t') ∨
    (∃ root, s.root = some root ∧ root.isEmpty = true ∧ c.readsIsEmpty = true ∧
      ∀ k t, (s.after c).listed k t = []) := by
  cases c with
  | addOrGetQueueAndCommit k name nextId t o =>
    rcases addOrGet_root nextId o s with hsame | ⟨root, address, hroot, hnone, hafter⟩
    · exact .inl fun k t => listed_of_same hsame k t
    · obtain ⟨hadd, hrest⟩ := listed_mutablePointers _ hroot hafter
      exact .inr (.inl ⟨k, t, ⟨address, name⟩, listed_of_root hroot k t ▸ hnone, hadd, hrest⟩)
  | removeQueueAndCommit k name t o =>
    rcases remove_root o s with hsame | ⟨root, p, hroot, hfind, hgone, hafter⟩
    · exact .inl fun k t => listed_of_same hsame k t
    · obtain rfl : p.name = name := by simpa using List.find?_some hfind
      obtain ⟨hremove, hrest⟩ := listed_mutablePointers _ hroot hafter
      exact .inr (.inr (.inl
        ⟨k, t, p, listed_of_root hroot k t ▸ hfind, hgone, hremove, hrest⟩))
  | isEmpty => exact .inl fun _ _ => rfl
  | removeIfEmpty o =>
    rcases removeIfEmpty_root o s with hsame | ⟨root, hroot, hempty, hafter⟩
    · exact .inl fun k t => listed_of_same hsame k t
    · exact .inr (.inr (.inr ⟨root, hroot, hempty, rfl, fun k t => by
        rw [listed, after, hafter]; rfl⟩))
  | others objects registers =>
    left
    intro k t
    simp only [listed, after, Option.map_map]
    cases s.root with
    | none => rfl
    | some root => cases k <;> cases t <;> rfl

theorem unique_after (h : s.Unique) (c : Call) : (s.after c).Unique := by
  intro k t
  rcases listed_after s c with hsame | ⟨k', t', p, hnone, hadd, hrest⟩ |
    ⟨k', t', p, -, -, hremove, hrest⟩ | ⟨-, -, -, -, hall⟩
  · rw [hsame]
    exact h k t
  · by_cases hkt : (k, t) = (k', t')
    · obtain ⟨rfl, rfl⟩ := Prod.mk.inj hkt
      rw [hadd, List.map_append, List.map_singleton, ← List.concat_eq_append]
      exact (h k t).concat (findElement_eq_none.mp hnone)
    · rw [hrest k t hkt]
      exact h k t
  · by_cases hkt : (k, t) = (k', t')
    · obtain ⟨rfl, rfl⟩ := Prod.mk.inj hkt
      rw [hremove]
      exact nodup_removeOccurences (h k t)
    · rw [hrest k t hkt]
      exact h k t
  · simp [hall]

theorem pointer_after (h : s.Unique) (c : Call) (hp : s.pointer k t name = some a) :
    (s.after c).pointer k t name = some a ∨ (s.after c).pointer k t name = none ∧
      (s.Gone a ∨ ∃ root, s.root = some root ∧ root.isEmpty = true ∧ c.readsIsEmpty = true) := by
  obtain ⟨q, hq, rfl⟩ := Option.map_eq_some_iff.mp hp
  rcases listed_after s c with hsame | ⟨k', t', p, -, hadd, hrest⟩ |
    ⟨k', t', p, hfound, hgone, hremove, hrest⟩ | ⟨root, hroot, hempty, hreads, hall⟩
  · left
    rw [pointer, hsame, hq, Option.map_some]
  · left
    by_cases hkt : (k, t) = (k', t')
    · obtain ⟨rfl, rfl⟩ := Prod.mk.inj hkt
      rw [pointer, hadd, findElement_append [p] hq, Option.map_some]
    · rw [pointer, hrest k t hkt, hq, Option.map_some]
  · by_cases hkt : (k, t) = (k', t')
    · obtain ⟨rfl, rfl⟩ := Prod.mk.inj hkt
      rw [pointer, hremove, findElement_removeOccurences (h k t)]
      by_cases hname : name = p.name
      · subst hname
        rw [hfound] at hq
        obtain rfl := Option.some.inj hq
        exact .inr ⟨by simp, .inl hgone⟩
      · exact .inl (by rw [if_neg hname, hq, Option.map_some])
    · left
      rw [pointer, hrest k t hkt, hq, Option.map_some]
  · right
    refine ⟨?_, .inr ⟨root, hroot, hempty, hreads⟩⟩
    simp [pointer, hall, findElement]

theorem pointer_of_answer (h : s.answer k t name c = some b) :
    (s.after c).pointer k t name = some b := by
  cases c with
  | addOrGetQueueAndCommit k' name' nextId t' o =>
    rw [answer] at h
    split_ifs at h with hkey
    obtain ⟨rfl, rfl, rfl⟩ := hkey
    rw [after]
    obtain ⟨root | root, objects⟩ := s
    · exact absurd h nofun
    · unfold addOrGetQueueAndCommit at h ⊢
      dsimp only at h ⊢
      cases hfind : findElement (root.pointers k' t') name' with
      | some p =>
        simp only [hfind] at h ⊢
        rw [pointer, listed_of_root rfl, hfind]
        exact h
      | none =>
        simp only [hfind] at h ⊢
        split_ifs at h ⊢ with hcommit hinsert
        · exact absurd h nofun
        · exact absurd h nofun
        · rw [pointer, listed_of_root rfl, pointers_mutablePointers, findElement,
            List.find?_append, show (root.pointers k' t').find? (·.name = name') = none from hfind]
          simpa [Except.toOption] using h
  | removeQueueAndCommit => simp [answer] at h
  | isEmpty => simp [answer] at h
  | removeIfEmpty => simp [answer] at h
  | others => simp [answer] at h

end State

section
variable {w : World} {c : Call}

structure World.Inv (w : World) : Prop extends w.Sound where
  fresh : ∀ k t name, w.state.pointer k t name = none → w.answers k t name = []

theorem World.Inv.next (h : w.Inv) (c : Call) : (w.next c).Inv where
  unique := State.unique_after h.unique c
  answered k t name a ha b hb := by
    have hsome : ((w.state.after c).pointer k t name).isNone = false := by
      rw [show (w.state.after c).pointer k t name = some a from ha]
      rfl
    simp only [World.next, hsome, Bool.false_eq_true, if_false, List.mem_append,
      Option.mem_toList] at hb
    rcases hb with hb | hb
    · have hnow := State.pointer_of_answer hb
      exact Option.some.inj (hnow.symm.trans ha)
    · cases hbefore : w.state.pointer k t name with
      | none => simp [h.fresh k t name hbefore] at hb
      | some a' =>
        rw [h.answered k t name a' hbefore b hb]
        rcases State.pointer_after h.unique c hbefore with hstay | ⟨hgone, -⟩
        · exact Option.some.inj (hstay.symm.trans ha)
        · exact absurd (hgone.symm.trans ha) nofun
  fresh k t name hnone := by
    have hgone : ((w.state.after c).pointer k t name).isNone = true :=
      Option.isNone_iff_eq_none.mpr hnone
    simp only [World.next, hgone, if_true]

theorem respected_iff (h : w.Inv) : Respected w c ↔ SeesAll w c := by
  constructor
  · intro hr hreads root hroot
    exact emptied_iff.mp (hr.emptied hreads root hroot)
  · intro hsees
    have hempty : c.readsIsEmpty = true → ∀ root, w.state.root = some root →
        root.isEmpty = true → ∀ k t, root.pointers k t = [] := fun hreads root hroot =>
      emptied_iff.mpr (hsees hreads root hroot)
    refine ⟨(h.next c).toSound, fun k t name a ha hlost => ?_, hempty⟩
    rcases State.pointer_after h.unique c ha with hstay | ⟨-, hgone | ⟨root, hroot, he, hreads⟩⟩
    · exact absurd hstay hlost
    · exact hgone
    · have hnil := hempty hreads root hroot he k t
      simp [State.pointer, State.listed_of_root hroot, hnil, findElement] at ha

/-- Along any calls, the pointers are kept as long as their queues have jobs, and the root entry is
found empty only without them, if and only if it is not asked for that while all it refers to are
queues of a type that is not looked at. -/
theorem root_entry_respected_iff (s : State) (hs : s.Unique) (cs : List Call) :
    AllSteps World.next Respected ⟨s, fun _ _ _ => []⟩ cs ↔
      AllSteps World.next SeesAll ⟨s, fun _ _ _ => []⟩ cs := by
  have hstart : World.Inv ⟨s, fun _ _ _ => []⟩ := ⟨⟨hs, nofun⟩, fun _ _ _ _ => rfl⟩
  exact allSteps_iff (fun w c _ h => ⟨respected_iff h, fun _ => h.next c⟩) hstart

end

def emptyRoot : State := ⟨some {}, fun _ => none⟩

theorem emptyRoot_unique : emptyRoot.Unique := by
  intro k t
  cases k <;> cases t <;> exact List.nodup_nil

def addQueue (queueType : JobQueueType) : Call :=
  .addOrGetQueueAndCommit .archive "pool" (· ++ "-agent-0") queueType {}

/-- The queue that is not looked at does no harm beside one that is. -/
def twoQueueCalls : List Call :=
  [addQueue .jobsToTransferForRepack, addQueue .jobsToTransferForUser, .isEmpty, .removeIfEmpty {}]

theorem root_entry_respected_iff_twoQueues :
    AllSteps World.next Respected ⟨emptyRoot, fun _ _ _ => []⟩ twoQueueCalls := by
  have hseen {r root : Payload} (hroot : some r = some root)
      (hr : r.archiveQueuePointers .jobsToTransferForUser ≠ []) :
      root.Seen ∨ root.NothingUnseen := by
    obtain rfl := Option.some.inj hroot
    exact .inl (.inr (.inr (.inr (.inr (.inl ⟨_, by simp, hr⟩)))))
  refine (root_entry_respected_iff emptyRoot emptyRoot_unique twoQueueCalls).mpr ?_
  exact ⟨nofun, nofun, fun _ root hroot => hseen hroot (by decide),
    fun _ root hroot => hseen hroot (by decide), trivial⟩

theorem not_respected_repackQueue : ¬∀ s : State, s.Unique → ∀ cs,
    AllSteps World.next Respected ⟨s, fun _ _ _ => []⟩ cs := by
  intro h
  have hrun := h emptyRoot emptyRoot_unique [addQueue .jobsToTransferForRepack, .removeIfEmpty {}]
  have hnone := hrun.2.1.emptied rfl _ rfl rfl .archive .jobsToTransferForRepack
  exact absurd hnone (by decide)

end Cta.ObjectStore.RootEntry

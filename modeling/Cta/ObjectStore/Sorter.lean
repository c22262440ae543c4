import Cta.ObjectStore.Base
import Mathlib.Data.List.Induction
import Mathlib.Data.List.Nodup
import Mathlib.Data.List.Enum
import Mathlib.Logic.Function.Basic

/-! The sorter: the jobs that wait for a queue are queued together, and each is told by its promise
how that ended. -/
namespace Cta.ObjectStore.Sorter

/-- What the queueing of one job threw. The first two are exceptions of the project. -/
inductive Failure where
  | noSuchObject (what : String)
  | exception (what : String)
  | stdException (what : String)
  deriving DecidableEq, Repr

inductive Promise where
  | unset
  | value
  | exception (failure : Failure)
  deriving DecidableEq, Repr

inductive Ending where
  | returned
  | exception
  | promiseAlreadySatisfied
  | nullJob
  deriving DecidableEq, Repr

/-- What comes of `referenceAndSwitchOwnership`: for each element in turn what the switch of its
owner threw, if anything, or an exception that is not an `OwnershipSwitchFailure`. Elements that
failed have their references removed again. -/
inductive Answer where
  | switched (failure : Nat → Option Failure)
  | exception

structure SorterArchiveJob where
  archiveRequest : Address
  copyNb : Nat
  archiveFileID : Nat
  mountPolicy : String
  previousOwner : Address
  deriving DecidableEq, Repr

structure RetrieveJob where
  retrieveRequest : Address
  copyNb : Nat
  fSeq : Nat
  fileSize : Nat
  mountPolicy : String
  activity : Option String
  diskSystemName : Option String
  previousOwner : Address
  deriving DecidableEq, Repr

structure ArchiveElement where
  archiveRequest : Address
  copyNb : Nat
  archiveFileID : Nat
  mountPolicy : String
  deriving DecidableEq, Repr

structure RetrieveElement where
  retrieveRequest : Address
  copyNb : Nat
  fSeq : Nat
  fileSize : Nat
  mountPolicy : String
  activity : Option String
  diskSystemName : Option String
  deriving DecidableEq, Repr

structure Direction (Job Element : Type) where
  copyNb : Job → Nat
  previousOwner : Job → Address
  element : Job → Element
  elementCopyNb : Element → Nat
  elementCopyNb_element : ∀ job, elementCopyNb (element job) = copyNb job

def archive : Direction SorterArchiveJob ArchiveElement where
  copyNb job := job.copyNb
  previousOwner job := job.previousOwner
  element job := ⟨job.archiveRequest, job.copyNb, job.archiveFileID, job.mountPolicy⟩
  elementCopyNb e := e.copyNb
  elementCopyNb_element _ := rfl

def retrieve : Direction RetrieveJob RetrieveElement where
  copyNb job := job.copyNb
  previousOwner job := job.previousOwner
  element job := ⟨job.retrieveRequest, job.copyNb, job.fSeq, job.fileSize, job.mountPolicy,
    job.activity, job.diskSystemName⟩
  elementCopyNb e := e.copyNb
  elementCopyNb_element _ := rfl

/-- `succeededJobs` is a map from copy numbers to jobs, which stand here by their position. -/
structure State where
  promises : Nat → Promise
  succeededJobs : List (Nat × Nat)

def assign (succeededJobs : List (Nat × Nat)) (entry : Nat × Nat) : List (Nat × Nat) :=
  succeededJobs.filter (fun other => other.1 ≠ entry.1) ++ [entry]

/-- The failures are told to the jobs found in the map. A copy number that is not there is given a
null job, which is used. -/
def tellFailures : State → List (Nat × Failure) → State × Option Ending
  | s, [] => (s, none)
  | s, (copyNb, failure) :: failedElements =>
    match failure with
    | .noSuchObject _ => tellFailures s failedElements
    | .stdException _ => (s, some .exception)
    | .exception _ =>
      match s.succeededJobs.lookup copyNb with
      | none => (s, some .nullJob)
      | some i =>
        if s.promises i = .unset then
          tellFailures
            { promises := Function.update s.promises i (.exception failure)
              succeededJobs := s.succeededJobs.filter fun entry => entry.1 ≠ copyNb }
            failedElements
        else (s, some .promiseAlreadySatisfied)

def tellSuccess : (Nat → Promise) → List (Nat × Nat) → (Nat → Promise) × Ending
  | promises, [] => (promises, .returned)
  | promises, (_, i) :: succeededJobs =>
    if promises i = .unset then tellSuccess (Function.update promises i .value) succeededJobs
    else (promises, .promiseAlreadySatisfied)

section
variable {Job Element : Type} (d : Direction Job Element)

def Direction.entries (jobs : List Job) : List (Nat × Nat) := (jobs.map d.copyNb).zipIdx

def Direction.failedElements (elements : List Element) (failure : Nat → Option Failure) :
    List (Nat × Failure) :=
  (elements.map d.elementCopyNb).zipIdx.filterMap fun entry =>
    (failure entry.2).map fun f => (entry.1, f)

def Direction.executeAlgorithm
    (referenceAndSwitchOwnership : Address → List Element → Answer) (jobs : List Job) :
    (Nat → Promise) × Ending :=
  let s : State := { promises := fun _ => .unset, succeededJobs := (d.entries jobs).foldl assign [] }
  let previousOwner := jobs.foldl (fun _ job => d.previousOwner job) ""
  let jobsToAdd := jobs.map d.element
  match referenceAndSwitchOwnership previousOwner jobsToAdd with
  | .exception => (s.promises, .exception)
  | .switched failure =>
    match tellFailures s (d.failedElements jobsToAdd failure) with
    | (s, some ending) => (s.promises, ending)
    | (s, none) => tellSuccess s.promises s.succeededJobs

end

def executeArchiveAlgorithm :
    (Address → List ArchiveElement → Answer) → List SorterArchiveJob → (Nat → Promise) × Ending :=
  archive.executeAlgorithm

def executeRetrieveAlgorithm :
    (Address → List RetrieveElement → Answer) → List RetrieveJob → (Nat → Promise) × Ending :=
  retrieve.executeAlgorithm

def Answer.Told (answer : Answer) (i : Nat) (p : Promise) : Prop :=
  match answer with
  | .exception => p ≠ .unset
  | .switched failure => p = match failure i with
    | none => .value
    | some f => .exception f

def OneOutcomeEach (n : Nat) (answer : Answer) (result : (Nat → Promise) × Ending) : Prop :=
  result.2 ≠ .nullJob ∧ result.2 ≠ .promiseAlreadySatisfied ∧
    ∀ i < n, answer.Told i (result.1 i)

/-- Only the switches fail, each with an exception of the project that does not say that the
request is gone. -/
def Answer.Plain (answer : Answer) (n : Nat) : Prop :=
  ∃ failure, answer = .switched failure ∧
    ∀ i < n, ∀ f, failure i = some f → ∃ what, f = .exception what

section
variable {entries entries' : List (Nat × Nat)} {entry : Nat × Nat} {promises : Nat → Promise}
  {failure : Nat → Option Failure}

theorem foldl_assign_of_nodup (h : ((entries' ++ entries).map Prod.fst).Nodup) :
    entries.foldl assign entries' = entries' ++ entries := by
  induction entries generalizing entries' with
  | nil => simp
  | cons entry entries ih =>
    have hsplit : entries' ++ entry :: entries = (entries' ++ [entry]) ++ entries := by simp
    have hnew : ∀ other ∈ entries', other.1 ≠ entry.1 := by
      intro other hother heq
      rw [List.map_append, List.map_cons] at h
      exact (List.nodup_append.mp h).2.2 _ (List.mem_map_of_mem hother) entry.1 List.mem_cons_self
        heq
    have hkeep : entries'.filter (fun other => other.1 ≠ entry.1) = entries' :=
      List.filter_eq_self.mpr fun other hother => by simpa using hnew other hother
    rw [hsplit] at h ⊢
    rw [List.foldl_cons, assign, hkeep]
    exact ih h

theorem last_of_mem_foldl_assign (h : entry ∈ entries.foldl assign []) :
    ∃ before after, entries = before ++ entry :: after ∧ ∀ other ∈ after, other.1 ≠ entry.1 := by
  induction entries using List.reverseRecOn with
  | nil => simp at h
  | append_singleton entries last ih =>
    rw [List.foldl_append, List.foldl_cons, List.foldl_nil, assign, List.mem_append] at h
    cases h with
    | inl h =>
      obtain ⟨hmem, hne⟩ := List.mem_filter.mp h
      obtain ⟨before, after, heq, hafter⟩ := ih hmem
      refine ⟨before, after ++ [last], by simp [heq], ?_⟩
      intro other hother
      cases List.mem_append.mp hother with
      | inl hother => exact hafter other hother
      | inr hother =>
        rw [List.mem_singleton.mp hother]
        simpa using Ne.symm (by simpa using hne)
    | inr h =>
      obtain rfl := List.mem_singleton.mp h
      exact ⟨entries, [], rfl, by simp⟩

def succeeded (failure : Nat → Option Failure) (entries : List (Nat × Nat)) : List (Nat × Nat) :=
  entries.filter fun entry => (failure entry.2).isNone

def failed (failure : Nat → Option Failure) (entries : List (Nat × Nat)) :
    List (Nat × Failure) :=
  entries.filterMap fun entry => (failure entry.2).map fun f => (entry.1, f)

theorem lookup_of_nodup (hkeys : ((entries' ++ entry :: entries).map Prod.fst).Nodup) :
    (entries' ++ entry :: entries).lookup entry.1 = some entry.2 := by
  refine List.lookup_eq_some_iff.mpr ⟨entries', entries, rfl, fun other hother => ?_⟩
  rw [List.map_append, List.map_cons] at hkeys
  exact bne_iff_ne.mpr fun heq => (List.nodup_append.mp hkeys).2.2 _
    (List.mem_map_of_mem hother) entry.1 List.mem_cons_self heq.symm

theorem filter_of_nodup (hkeys : ((entries' ++ entry :: entries).map Prod.fst).Nodup) :
    (entries' ++ entry :: entries).filter (fun other => other.1 ≠ entry.1) = entries' ++ entries := by
  rw [List.map_append, List.map_cons] at hkeys
  have hbefore : ∀ other ∈ entries', other.1 ≠ entry.1 := fun other hother heq =>
    (List.nodup_append.mp hkeys).2.2 _ (List.mem_map_of_mem hother) entry.1 List.mem_cons_self heq
  have hafter : ∀ other ∈ entries, other.1 ≠ entry.1 := fun other hother heq =>
    (List.nodup_cons.mp (List.nodup_append.mp hkeys).2.1).1 (heq ▸ List.mem_map_of_mem hother)
  rw [List.filter_append, List.filter_cons_of_neg (by simp),
    List.filter_eq_self.mpr fun other hother => by simpa using hbefore other hother,
    List.filter_eq_self.mpr fun other hother => by simpa using hafter other hother]

theorem tellFailures_of_nodup (promises : Nat → Promise)
    (hkeys : ((entries' ++ entries).map Prod.fst).Nodup)
    (hpositions : (entries.map Prod.snd).Nodup)
    (hunset : ∀ entry ∈ entries, promises entry.2 = .unset)
    (hplain : ∀ entry ∈ entries, ∀ f, failure entry.2 = some f → ∃ what, f = .exception what) :
    ∃ promises', tellFailures ⟨promises, entries' ++ entries⟩ (failed failure entries) =
        (⟨promises', entries' ++ succeeded failure entries⟩, none) ∧
      (∀ entry ∈ entries, promises' entry.2 =
        ((failure entry.2).map Promise.exception).getD .unset) ∧
      ∀ j, j ∉ entries.map Prod.snd → promises' j = promises j := by
  induction entries generalizing entries' promises with
  | nil => exact ⟨promises, by simp [tellFailures, failed, succeeded], by simp, fun _ _ => rfl⟩
  | cons entry entries ih =>
    have hsplit : entries' ++ entry :: entries = (entries' ++ [entry]) ++ entries := by simp
    obtain ⟨hentry, hpositions⟩ := List.nodup_cons.mp hpositions
    have hplain' : ∀ e ∈ entries, ∀ f, failure e.2 = some f → ∃ what, f = .exception what :=
      fun e he => hplain e (List.mem_cons_of_mem entry he)
    cases hfailure : failure entry.2 with
    | none =>
      have hunset' : ∀ e ∈ entries, promises e.2 = .unset :=
        fun e he => hunset e (List.mem_cons_of_mem entry he)
      obtain ⟨promises', htell, htold, hother⟩ := ih promises (hsplit ▸ hkeys) hpositions hunset' hplain'
      refine ⟨promises', ?_, ?_, ?_⟩
      · simpa [failed, succeeded, hfailure] using htell
      · intro e he
        cases List.mem_cons.mp he with
        | inl heq =>
          rw [heq, hother entry.2 hentry, hfailure, hunset entry List.mem_cons_self]
          rfl
        | inr he => exact htold e he
      · exact fun j hj => hother j fun hmem => hj (List.mem_cons_of_mem _ hmem)
    | some f =>
      obtain ⟨what, rfl⟩ := hplain entry List.mem_cons_self f hfailure
      have hkeys' : ((entries' ++ entries).map Prod.fst).Nodup :=
        hkeys.sublist (((List.sublist_cons_self entry entries).append_left entries').map _)
      have hunset' : ∀ e ∈ entries,
          Function.update promises entry.2 (.exception (.exception what)) e.2 = .unset := by
        intro e he
        have hne : e.2 ≠ entry.2 := fun heq => hentry (heq ▸ List.mem_map_of_mem he)
        rw [Function.update_of_ne hne]
        exact hunset e (List.mem_cons_of_mem entry he)
      obtain ⟨promises', htell, htold, hother⟩ := ih _ hkeys' hpositions hunset' hplain'
      have hlookup : (entries' ++ entry :: entries).lookup entry.1 = some entry.2 :=
        lookup_of_nodup hkeys
      refine ⟨promises', ?_, ?_, ?_⟩
      · have hfailed : failed failure (entry :: entries) =
            (entry.1, .exception what) :: failed failure entries := by simp [failed, hfailure]
        rw [hfailed, tellFailures]
        simp only [hlookup]
        rw [if_pos (hunset entry List.mem_cons_self), filter_of_nodup hkeys]
        simpa [succeeded, hfailure] using htell
      · intro e he
        cases List.mem_cons.mp he with
        | inl heq =>
          rw [heq, hother entry.2 hentry, Function.update_self, hfailure]
          rfl
        | inr he => exact htold e he
      · intro j hj
        have hne : j ≠ entry.2 := fun heq => hj (heq ▸ List.mem_cons_self)
        rw [hother j fun hmem => hj (List.mem_cons_of_mem _ hmem), Function.update_of_ne hne]

theorem tellSuccess_of_nodup (hpositions : (entries.map Prod.snd).Nodup)
    (hunset : ∀ entry ∈ entries, promises entry.2 = .unset) :
    ∃ promises', tellSuccess promises entries = (promises', .returned) ∧
      (∀ entry ∈ entries, promises' entry.2 = .value) ∧
      ∀ j, j ∉ entries.map Prod.snd → promises' j = promises j := by
  induction entries generalizing promises with
  | nil => exact ⟨promises, rfl, by simp, fun _ _ => rfl⟩
  | cons entry entries ih =>
    obtain ⟨hentry, hpositions⟩ := List.nodup_cons.mp hpositions
    have hunset' : ∀ e ∈ entries, Function.update promises entry.2 .value e.2 = .unset := by
      intro e he
      have hne : e.2 ≠ entry.2 := fun heq => hentry (heq ▸ List.mem_map_of_mem he)
      rw [Function.update_of_ne hne]
      exact hunset e (List.mem_cons_of_mem entry he)
    obtain ⟨promises', htell, htold, hother⟩ := ih hpositions hunset'
    refine ⟨promises', ?_, ?_, ?_⟩
    · rw [tellSuccess, if_pos (hunset entry List.mem_cons_self), htell]
    · intro e he
      cases List.mem_cons.mp he with
      | inl heq => rw [heq, hother entry.2 hentry, Function.update_self]
      | inr he => exact htold e he
    · intro j hj
      have hne : j ≠ entry.2 := fun heq => hj (heq ▸ List.mem_cons_self)
      rw [hother j fun hmem => hj (List.mem_cons_of_mem _ hmem), Function.update_of_ne hne]

theorem tellSuccess_other {j : Nat} (h : j ∉ entries.map Prod.snd) :
    (tellSuccess promises entries).1 j = promises j := by
  induction entries generalizing promises with
  | nil => rfl
  | cons entry entries ih =>
    have hne : j ≠ entry.2 := fun heq => h (heq ▸ List.mem_cons_self)
    rw [tellSuccess]
    split
    · rw [ih fun hmem => h (List.mem_cons_of_mem _ hmem), Function.update_of_ne hne]
    · rfl

theorem tellFailures_other {s : State} {j : Nat} (failedElements : List (Nat × Failure))
    (h : j ∉ s.succeededJobs.map Prod.snd) :
    (tellFailures s failedElements).1.promises j = s.promises j ∧
      j ∉ (tellFailures s failedElements).1.succeededJobs.map Prod.snd := by
  induction failedElements generalizing s with
  | nil => exact ⟨rfl, h⟩
  | cons failedElement failedElements ih =>
    obtain ⟨copyNb, failure⟩ := failedElement
    cases failure with
    | noSuchObject what => exact ih h
    | stdException what => exact ⟨rfl, h⟩
    | exception what =>
      rw [tellFailures]
      cases hlookup : s.succeededJobs.lookup copyNb with
      | none => exact ⟨rfl, h⟩
      | some i =>
        have hi : i ∈ s.succeededJobs.map Prod.snd := by
          obtain ⟨before, after, heq, -⟩ := List.lookup_eq_some_iff.mp hlookup
          simp [heq]
        have hne : j ≠ i := fun heq => h (heq ▸ hi)
        simp only
        split
        · have hfilter : j ∉ (s.succeededJobs.filter fun entry => entry.1 ≠ copyNb).map Prod.snd :=
            fun hmem => h (List.map_subset _ (fun _ => List.mem_of_mem_filter) hmem)
          obtain ⟨htold, hmap⟩ := ih (s := ⟨Function.update s.promises i _, _⟩) hfilter
          exact ⟨htold.trans (Function.update_of_ne hne _ _), hmap⟩
        · exact ⟨rfl, h⟩

def OnlyPlain (promises : Nat → Promise) : Prop :=
  ∀ j f, promises j = .exception f → ∃ what, f = .exception what

theorem OnlyPlain.update (h : OnlyPlain promises) {i : Nat} {p : Promise}
    (hp : ∀ f, p = .exception f → ∃ what, f = .exception what) :
    OnlyPlain (Function.update promises i p) := by
  intro j f hj
  by_cases hji : j = i
  · subst hji
    rw [Function.update_self] at hj
    exact hp f hj
  · rw [Function.update_of_ne hji] at hj
    exact h j f hj

theorem tellSuccess_onlyPlain (h : OnlyPlain promises) :
    OnlyPlain (tellSuccess promises entries).1 := by
  induction entries generalizing promises with
  | nil => exact h
  | cons entry entries ih =>
    rw [tellSuccess]
    split
    · exact ih (h.update (by simp))
    · exact h

theorem tellFailures_onlyPlain {s : State} (failedElements : List (Nat × Failure))
    (h : OnlyPlain s.promises) : OnlyPlain (tellFailures s failedElements).1.promises := by
  induction failedElements generalizing s with
  | nil => exact h
  | cons failedElement failedElements ih =>
    obtain ⟨copyNb, failure⟩ := failedElement
    cases failure with
    | noSuchObject what => exact ih h
    | stdException what => exact h
    | exception what =>
      rw [tellFailures]
      cases s.succeededJobs.lookup copyNb with
      | none => exact h
      | some i =>
        simp only
        split
        · exact ih (h.update (by simp))
        · exact h

end

section
variable {Job Element : Type} {d : Direction Job Element} {jobs : List Job}
  {referenceAndSwitchOwnership : Address → List Element → Answer}
  {failure : Nat → Option Failure}

def Direction.answer (d : Direction Job Element)
    (referenceAndSwitchOwnership : Address → List Element → Answer) (jobs : List Job) : Answer :=
  referenceAndSwitchOwnership (jobs.foldl (fun _ job => d.previousOwner job) "")
    (jobs.map d.element)

theorem failedElements_eq :
    d.failedElements (jobs.map d.element) failure = failed failure (d.entries jobs) := by
  unfold Direction.failedElements Direction.entries failed
  simp [Function.comp_def, d.elementCopyNb_element]

theorem map_fst_entries : (d.entries jobs).map Prod.fst = jobs.map d.copyNb := by
  simp [Direction.entries]

theorem map_snd_entries : (d.entries jobs).map Prod.snd = List.range jobs.length := by
  simp [Direction.entries, List.range_eq_range']

theorem mem_entries {i : Nat} (hi : i < jobs.length) :
    (d.copyNb jobs[i], i) ∈ d.entries jobs := by
  unfold Direction.entries
  rw [List.mem_zipIdx_iff_getElem?]
  simp [hi]

theorem executeAlgorithm_other {i : Nat}
    (h : i ∉ ((d.entries jobs).foldl assign []).map Prod.snd) :
    (d.executeAlgorithm referenceAndSwitchOwnership jobs).1 i = .unset := by
  unfold Direction.executeAlgorithm
  simp only
  split
  · rfl
  · next failure _ =>
    obtain ⟨htold, hmap⟩ := tellFailures_other (s := ⟨fun _ => .unset, _⟩)
      (d.failedElements (jobs.map d.element) failure) h
    split
    · next s ending heq =>
      rw [heq] at htold
      exact htold
    · next s heq =>
      rw [heq] at htold hmap
      exact (tellSuccess_other hmap).trans htold

theorem executeAlgorithm_onlyPlain :
    OnlyPlain (d.executeAlgorithm referenceAndSwitchOwnership jobs).1 := by
  have hstart : OnlyPlain fun _ => Promise.unset := fun _ _ h => by simp at h
  unfold Direction.executeAlgorithm
  simp only
  split
  · exact hstart
  · next failure _ =>
    have hfailures := tellFailures_onlyPlain (s := ⟨_, (d.entries jobs).foldl assign []⟩)
      (d.failedElements (jobs.map d.element) failure) hstart
    split
    · next s ending heq =>
      rw [heq] at hfailures
      exact hfailures
    · next s heq =>
      rw [heq] at hfailures
      exact tellSuccess_onlyPlain hfailures

theorem nodup_of_told
    (h : ∀ i < jobs.length, (d.executeAlgorithm referenceAndSwitchOwnership jobs).1 i ≠ .unset) :
    (jobs.map d.copyNb).Nodup := by
  rw [List.nodup_iff_pairwise_ne, List.pairwise_iff_getElem]
  intro i j hi hj hij heq
  rw [List.length_map] at hi hj
  have hmem : i ∈ ((d.entries jobs).foldl assign []).map Prod.snd := by
    by_contra hnot
    exact h i hi (executeAlgorithm_other hnot)
  obtain ⟨entry, hentry, rfl⟩ := List.mem_map.mp hmem
  obtain ⟨before, after, hsplit, hafter⟩ := last_of_mem_foldl_assign hentry
  have hsorted : ((d.entries jobs).map Prod.snd).Pairwise (· < ·) :=
    map_snd_entries (d := d) ▸ List.pairwise_lt_range
  have hown : (d.copyNb jobs[entry.2], entry.2) = entry := by
    have hmem : entry ∈ d.entries jobs := by simp [hsplit]
    rw [Direction.entries, List.mem_zipIdx_iff_getElem?] at hmem
    simp only [List.getElem?_map, List.getElem?_eq_getElem hi, Option.map_some,
      Option.some.injEq] at hmem
    exact Prod.ext hmem rfl
  have hlater : (d.copyNb jobs[j], j) ∈ after := by
    have hmem := mem_entries (d := d) hj
    rw [hsplit] at hmem hsorted
    rw [List.map_append, List.map_cons] at hsorted
    have hbefore := (List.pairwise_append.mp hsorted).2.2
    simp only [List.mem_append, List.mem_cons] at hmem
    rcases hmem with hmem | hmem | hmem
    · exact absurd (hbefore j (List.mem_map_of_mem hmem) entry.2 List.mem_cons_self) (by omega)
    · exact absurd (congrArg Prod.snd hmem) (Nat.ne_of_gt hij)
    · exact hmem
  refine hafter _ hlater ?_
  rw [List.getElem_map, List.getElem_map] at heq
  rw [← hown]
  exact heq.symm

theorem told_of_nodup (hkeys : (jobs.map d.copyNb).Nodup)
    (hanswer : d.answer referenceAndSwitchOwnership jobs = .switched failure)
    (hplain : ∀ i < jobs.length, ∀ f, failure i = some f → ∃ what, f = .exception what) :
    OneOutcomeEach jobs.length (.switched failure)
      (d.executeAlgorithm referenceAndSwitchOwnership jobs) := by
  have hkeys' : (([] ++ d.entries jobs).map Prod.fst).Nodup := by
    rw [List.nil_append, map_fst_entries]
    exact hkeys
  have hpositions : ((d.entries jobs).map Prod.snd).Nodup := map_snd_entries (d := d) ▸
    List.nodup_range
  have hbound : ∀ entry ∈ d.entries jobs, entry.2 < jobs.length := by
    intro entry hentry
    have := List.mem_map_of_mem (f := Prod.snd) hentry
    rwa [map_snd_entries, List.mem_range] at this
  obtain ⟨promises, htell, htold, -⟩ := tellFailures_of_nodup (fun _ => .unset) hkeys' hpositions
    (fun _ _ => rfl) fun entry hentry => hplain _ (hbound _ hentry)
  have hsucceeded : ∀ entry ∈ succeeded failure (d.entries jobs),
      entry ∈ d.entries jobs ∧ failure entry.2 = none := by
    intro entry hentry
    obtain ⟨hmem, hnone⟩ := List.mem_filter.mp hentry
    exact ⟨hmem, Option.isNone_iff_eq_none.mp hnone⟩
  have hunset : ∀ entry ∈ succeeded failure (d.entries jobs), promises entry.2 = .unset := by
    intro entry hentry
    obtain ⟨hmem, hnone⟩ := hsucceeded entry hentry
    rw [htold entry hmem, hnone]
    rfl
  have hpositions' : ((succeeded failure (d.entries jobs)).map Prod.snd).Nodup :=
    hpositions.sublist (List.filter_sublist.map _)
  obtain ⟨promises', hsuccess, hvalue, hother⟩ := tellSuccess_of_nodup hpositions' hunset
  have hcall : d.executeAlgorithm referenceAndSwitchOwnership jobs = (promises', .returned) := by
    unfold Direction.executeAlgorithm
    unfold Direction.answer at hanswer
    simp only [hanswer, failedElements_eq, foldl_assign_of_nodup hkeys', htell]
    simpa using hsuccess
  rw [hcall]
  refine ⟨by simp, by simp, fun i hi => ?_⟩
  have hmem := mem_entries (d := d) hi
  simp only [Answer.Told]
  cases hfailure : failure i with
  | none => exact hvalue _ (List.mem_filter.mpr ⟨hmem, by simp [hfailure]⟩)
  | some f =>
    have hnot : i ∉ (succeeded failure (d.entries jobs)).map Prod.snd := by
      intro hin
      obtain ⟨entry, hentry, rfl⟩ := List.mem_map.mp hin
      simp [(hsucceeded entry hentry).2] at hfailure
    rw [hother i hnot, htold _ hmem, hfailure]
    rfl

/-- Each job of a batch has its one outcome exactly if the copy numbers differ, and nothing but
switches of owners fails, with exceptions of the project that do not say that the request is gone;
an empty batch apart. -/
theorem oneOutcomeEach_iff :
    OneOutcomeEach jobs.length (d.answer referenceAndSwitchOwnership jobs)
        (d.executeAlgorithm referenceAndSwitchOwnership jobs) ↔
      jobs = [] ∨ (jobs.map d.copyNb).Nodup ∧
        (d.answer referenceAndSwitchOwnership jobs).Plain jobs.length := by
  constructor
  · intro h
    by_cases hnil : jobs = []
    · exact .inl hnil
    · have hlength : 0 < jobs.length := List.length_pos_iff.mpr hnil
      obtain ⟨-, -, htold⟩ := h
      have hunset : ∀ i < jobs.length,
          (d.executeAlgorithm referenceAndSwitchOwnership jobs).1 i ≠ .unset := by
        intro i hi heq
        have hi' := htold i hi
        rw [heq] at hi'
        unfold Answer.Told at hi'
        split at hi'
        · exact hi' rfl
        · split at hi' <;> simp at hi'
      refine .inr ⟨nodup_of_told hunset, ?_⟩
      cases hanswer : d.answer referenceAndSwitchOwnership jobs with
      | exception =>
        have hcall : d.executeAlgorithm referenceAndSwitchOwnership jobs =
            (fun _ => .unset, .exception) := by
          unfold Direction.executeAlgorithm
          unfold Direction.answer at hanswer
          simp only [hanswer]
        exact absurd (by rw [hcall]) (hunset 0 hlength)
      | switched failure =>
        refine ⟨failure, rfl, fun i hi f hf => ?_⟩
        have hi' := htold i hi
        rw [hanswer] at hi'
        simp only [Answer.Told, hf] at hi'
        exact executeAlgorithm_onlyPlain i f hi'
  · rintro (rfl | ⟨hkeys, failure, hanswer, hplain⟩)
    · have hend : (d.executeAlgorithm referenceAndSwitchOwnership []).2 = .returned ∨
          (d.executeAlgorithm referenceAndSwitchOwnership []).2 = .exception := by
        unfold Direction.executeAlgorithm
        cases hanswer : referenceAndSwitchOwnership "" [] with
        | exception => exact .inr (by simp [hanswer])
        | switched failure =>
          exact .inl (by simp [hanswer, Direction.failedElements, tellFailures, Direction.entries,
            tellSuccess])
      refine ⟨?_, ?_, by simp⟩
      · rcases hend with hend | hend <;> simp [hend]
      · rcases hend with hend | hend <;> simp [hend]
    · rw [hanswer]
      exact told_of_nodup hkeys hanswer hplain

end

/-- The same for both directions. -/
theorem one_outcome_per_job_iff (queueArchive : Address → List ArchiveElement → Answer)
    (archiveJobs : List SorterArchiveJob) (queueRetrieve : Address → List RetrieveElement → Answer)
    (retrieveJobs : List RetrieveJob) :
    (OneOutcomeEach archiveJobs.length (archive.answer queueArchive archiveJobs)
        (executeArchiveAlgorithm queueArchive archiveJobs) ↔
      archiveJobs = [] ∨ (archiveJobs.map (·.copyNb)).Nodup ∧
        (archive.answer queueArchive archiveJobs).Plain archiveJobs.length) ∧
    (OneOutcomeEach retrieveJobs.length (retrieve.answer queueRetrieve retrieveJobs)
        (executeRetrieveAlgorithm queueRetrieve retrieveJobs) ↔
      retrieveJobs = [] ∨ (retrieveJobs.map (·.copyNb)).Nodup ∧
        (retrieve.answer queueRetrieve retrieveJobs).Plain retrieveJobs.length) :=
  ⟨oneOutcomeEach_iff, oneOutcomeEach_iff⟩

def twoFirstCopies : List SorterArchiveJob :=
  [⟨"request1", 1, 11, "policy", "agent"⟩, ⟨"request2", 1, 12, "policy", "agent"⟩]

/-- When both are queued the first one is not told, and when both fail the second failure is for a
null job. -/
theorem not_oneOutcomeEach_twoFirstCopies :
    ¬OneOutcomeEach 2 (.switched fun _ => none)
        (executeArchiveAlgorithm (fun _ _ => .switched fun _ => none) twoFirstCopies) ∧
      (executeArchiveAlgorithm (fun _ _ => .switched fun _ => some (.exception "lock lost"))
        twoFirstCopies).2 = .nullJob := by
  refine ⟨?_, by decide⟩
  rintro ⟨-, -, htold⟩
  have hunset : (executeArchiveAlgorithm (fun _ _ => .switched fun _ => none) twoFirstCopies).1 0 =
      .unset := by decide
  have hvalue := htold 0 (by decide)
  rw [hunset] at hvalue
  simp [Answer.Told] at hvalue

end Cta.ObjectStore.Sorter

import Mathlib.Data.List.MinMax
import Mathlib.Data.List.Nodup
import Mathlib.Data.List.Range
import Cta.Lib.Selection

/-! The order in which the files of a tape are recalled: from each file to the one that is
cheapest to reach. -/
namespace Cta.Tape.SltfRao
open Cta.Lib.Selection
variable {Position Cost : Type}

structure TapeFile where
  blockId : Nat
  copyNb : Nat
  fSeq : Nat
  fileSize : Nat
  deriving DecidableEq, Repr

structure RetrieveJob where
  selectedTapeFile : TapeFile
  deriving DecidableEq, Repr

structure DistanceToFile (Cost : Type) where
  cost : Cost
  destinationFileIndex : Nat

structure RAOFile (Position Cost : Type) where
  index : Nat
  filePositionInfos : Position
  distancesWithOtherFiles : List (DistanceToFile Cost) := []

namespace RAOFile

def copy (file : RAOFile Position Cost) : RAOFile Position Cost :=
  { index := file.index, filePositionInfos := file.filePositionInfos }

def addDistanceToFile (file : RAOFile Position Cost) (distance : Cost)
    (other : RAOFile Position Cost) : RAOFile Position Cost :=
  { file with
    distancesWithOtherFiles := file.distancesWithOtherFiles ++ [⟨distance, other.index⟩] }

def getClosestFileIndex [Preorder Cost] [DecidableLT Cost] (file : RAOFile Position Cost) :
    Option Nat :=
  (file.distancesWithOtherFiles.argmin (·.cost)).map (·.destinationFileIndex)

end RAOFile

abbrev RAOFilesContainer (Position Cost : Type) := List (RAOFile Position Cost)

def erase (files : RAOFilesContainer Position Cost) (index : Nat) :
    RAOFilesContainer Position Cost :=
  files.filter fun file => file.index ≠ index

inductive Outcome
  | order (solution : List Nat)
  /-- The estimator cannot place a file. -/
  | estimatorException
  /-- `std::out_of_range`: the file is not in the map. -/
  | outOfRange
  /-- The closest file is asked for where there are no distances. -/
  | noDistances
  /-- The last file of an empty map is used. -/
  | noFiles
  deriving DecidableEq, Repr

structure SLTFRAOAlgorithm (Position Cost : Type) where
  getFilePosition : RetrieveJob → Option Position
  getCost : Position → Position → Cost

def createFakeRetrieveJobForFileAtBeginningOfTape : RetrieveJob where
  selectedTapeFile := { blockId := 0, copyNb := 1, fSeq := 0, fileSize := 0 }

namespace SLTFRAOAlgorithm
variable (algorithm : SLTFRAOAlgorithm Position Cost)

/-- The files of the jobs from this index on, and the fake file after the last one. -/
def filesFrom (i : Nat) : List RetrieveJob → Option (RAOFilesContainer Position Cost)
  | [] => do
    let position ← algorithm.getFilePosition createFakeRetrieveJobForFileAtBeginningOfTape
    return [{ index := i, filePositionInfos := position }]
  | job :: jobs => do
    let position ← algorithm.getFilePosition job
    let files ← filesFrom (i + 1) jobs
    return { index := i, filePositionInfos := position } :: files

def computeAllFilesPosition (jobs : List RetrieveJob) : Option (RAOFilesContainer Position Cost) :=
  algorithm.filesFrom 0 jobs

def computeCostBetweenFileAndOthers (file : RAOFile Position Cost)
    (otherFiles : RAOFilesContainer Position Cost) : RAOFile Position Cost :=
  otherFiles.foldl (fun file other => file.addDistanceToFile
    (algorithm.getCost file.filePositionInfos other.filePositionInfos) other) file

theorem length_erase_lt {files : RAOFilesContainer Position Cost} {i : Nat}
    {file : RAOFile Position Cost} (h : files.find? (·.index = i) = some file) :
    (erase files file.copy.index).length < files.length := by
  have hmem := List.mem_of_find?_eq_some h
  unfold erase RAOFile.copy
  exact List.length_filter_lt_length_iff_exists.mpr ⟨file, hmem, by simp⟩

variable [Preorder Cost] [DecidableLT Cost]

def visit (files : RAOFilesContainer Position Cost) (closestFileIndex : Nat)
    (solution : List Nat) : Outcome :=
  if files = [] then .order solution
  else match _hfind : files.find? (·.index = closestFileIndex) with
    | none => .outOfRange
    | some found =>
      let currentFile := found.copy
      let others := erase files currentFile.index
      if others = [] then .order solution
      else match (algorithm.computeCostBetweenFileAndOthers currentFile others).getClosestFileIndex
        with
        | none => .noDistances
        | some closest => visit others closest (solution ++ [closest])
termination_by files.length
decreasing_by exact length_erase_lt _hfind

def performSLTF (files : RAOFilesContainer Position Cost) : Outcome :=
  match files.getLast? with
  | none => .noFiles
  | some last =>
    let firstFile := last.copy
    let others := erase files firstFile.index
    match (algorithm.computeCostBetweenFileAndOthers firstFile others).getClosestFileIndex with
    | none => .noDistances
    | some closestFileIndex => algorithm.visit others closestFileIndex [closestFileIndex]

def performRAO (jobs : List RetrieveJob) : Outcome :=
  match algorithm.computeAllFilesPosition jobs with
  | none => .estimatorException
  | some files => algorithm.performSLTF files

/-- The place on tape of the file of this index. The beginning of the tape comes after the jobs. -/
def positionOf (jobs : List RetrieveJob) (index : Nat) : Option Position :=
  ((jobs ++ [createFakeRetrieveJobForFileAtBeginningOfTape])[index]?).bind
    algorithm.getFilePosition

def Closer (jobs : List RetrieveJob) (previous other next : Nat) : Prop :=
  ∃ p q r, algorithm.positionOf jobs previous = some p ∧ algorithm.positionOf jobs other = some q ∧
    algorithm.positionOf jobs next = some r ∧ algorithm.getCost p q < algorithm.getCost p r

/-- Unless a file cannot be placed, each job comes once, and each is one of those that cost least
to reach from the one before, the first one from the beginning of the tape. -/
def ShortestLocateTimeFirst (jobs : List RetrieveJob) : Outcome → Prop
  | .order solution =>
    solution.Perm (List.range jobs.length) ∧
      NearestFirst (algorithm.Closer jobs) jobs.length solution
  | .estimatorException =>
    ∃ job ∈ jobs ++ [createFakeRetrieveJobForFileAtBeginningOfTape],
      algorithm.getFilePosition job = none
  | _ => False

end SLTFRAOAlgorithm

section Closest
variable {algorithm : SLTFRAOAlgorithm Position Cost} {file : RAOFile Position Cost}
  {otherFiles files : RAOFilesContainer Position Cost}

theorem computeCostBetweenFileAndOthers_eq :
    algorithm.computeCostBetweenFileAndOthers file otherFiles =
      { file with
        distancesWithOtherFiles := file.distancesWithOtherFiles ++ otherFiles.map fun other =>
          ⟨algorithm.getCost file.filePositionInfos other.filePositionInfos, other.index⟩ } := by
  unfold SLTFRAOAlgorithm.computeCostBetweenFileAndOthers
  induction otherFiles generalizing file with
  | nil => simp
  | cons other otherFiles ih =>
    rw [List.foldl_cons, ih]
    simp [RAOFile.addDistanceToFile]

variable [Preorder Cost] [DecidableLT Cost]

theorem exists_closest (h : otherFiles ≠ []) :
    ∃ next ∈ otherFiles,
      (algorithm.computeCostBetweenFileAndOthers file.copy otherFiles).getClosestFileIndex =
        some next.index ∧
      ∀ other ∈ otherFiles,
        ¬algorithm.getCost file.filePositionInfos other.filePositionInfos <
          algorithm.getCost file.filePositionInfos next.filePositionInfos := by
  rw [computeCostBetweenFileAndOthers_eq]
  unfold RAOFile.getClosestFileIndex RAOFile.copy
  simp only [List.nil_append]
  generalize hdistances : otherFiles.map (fun other => (⟨algorithm.getCost file.filePositionInfos
    other.filePositionInfos, other.index⟩ : DistanceToFile Cost)) = distances
  cases hmin : distances.argmin (·.cost) with
  | none =>
    rw [List.argmin_eq_none, ← hdistances, List.map_eq_nil_iff] at hmin
    exact absurd hmin h
  | some least =>
    have hleast := List.argmin_mem hmin
    rw [← hdistances, List.mem_map] at hleast
    obtain ⟨next, hnext, rfl⟩ := hleast
    refine ⟨next, hnext, rfl, fun other hother => ?_⟩
    have hmem : (⟨algorithm.getCost file.filePositionInfos other.filePositionInfos,
        other.index⟩ : DistanceToFile Cost) ∈ distances :=
      hdistances ▸ List.mem_map_of_mem hother
    exact List.not_lt_of_mem_argmin (f := fun d => d.cost) hmem hmin

end Closest

section Tour
variable {algorithm : SLTFRAOAlgorithm Position Cost} {jobs : List RetrieveJob}
  {files : RAOFilesContainer Position Cost} {file : RAOFile Position Cost}

structure Placed (algorithm : SLTFRAOAlgorithm Position Cost) (jobs : List RetrieveJob)
    (files : RAOFilesContainer Position Cost) : Prop where
  nodup : (files.map (·.index)).Nodup
  position : ∀ file ∈ files, algorithm.positionOf jobs file.index = some file.filePositionInfos

theorem map_index_erase (i : Nat) :
    (erase files i).map (·.index) = (files.map (·.index)).filter (· ≠ i) := by
  simp [erase, List.filter_map, Function.comp_def]

theorem Placed.erase (h : Placed algorithm jobs files) (i : Nat) :
    Placed algorithm jobs (erase files i) where
  nodup := by
    rw [map_index_erase]
    exact h.nodup.filter _
  position file hfile := h.position file (List.mem_of_mem_filter hfile)

theorem Placed.perm (h : Placed algorithm jobs files) (hfile : file ∈ files) :
    (file.index :: (Cta.Tape.SltfRao.erase files file.index).map (·.index)).Perm
      (files.map (·.index)) := by
  have hmem : file.index ∈ files.map (·.index) := List.mem_map_of_mem hfile
  have herase : (files.map (·.index)).erase file.index =
      (files.map (·.index)).filter (· ≠ file.index) := by
    rw [h.nodup.erase_eq_filter]
    exact List.filter_congr fun i _ => by simp [bne, Bool.beq_eq_decide_eq]
  rw [map_index_erase, ← herase]
  exact (List.perm_cons_erase hmem).symm

variable [Preorder Cost] [DecidableLT Cost]

theorem Placed.exists_next (h : Placed algorithm jobs files)
    (hfile : algorithm.positionOf jobs file.index = some file.filePositionInfos)
    (hfiles : files ≠ []) :
    ∃ next ∈ files,
      (algorithm.computeCostBetweenFileAndOthers file.copy files).getClosestFileIndex =
        some next.index ∧
      ∀ other ∈ files.map (·.index), ¬algorithm.Closer jobs file.index other next.index := by
  obtain ⟨next, hnext, hclosest, hleast⟩ :
      ∃ next ∈ files, _ ∧ ∀ other ∈ files, ¬algorithm.getCost file.filePositionInfos _ < _ :=
    exists_closest hfiles
  refine ⟨next, hnext, hclosest, ?_⟩
  intro i hi
  obtain ⟨other, hother, rfl⟩ := List.mem_map.mp hi
  rintro ⟨p, q, r, hp, hq, hr, hlt⟩
  have hp' := Option.some.inj (hp.symm.trans hfile)
  have hq' := Option.some.inj (hq.symm.trans (h.position other hother))
  have hr' := Option.some.inj (hr.symm.trans (h.position next hnext))
  exact hleast other hother (hp' ▸ hq' ▸ hr' ▸ hlt)

theorem visit_eq (h : Placed algorithm jobs files) {closest : Nat}
    (hclosest : closest ∈ files.map (·.index)) (solution : List Nat) :
    ∃ tour, algorithm.visit files closest solution = .order (solution ++ tour) ∧
      (closest :: tour).Perm (files.map (·.index)) ∧
      NearestFirst (algorithm.Closer jobs) closest tour := by
  fun_induction SLTFRAOAlgorithm.visit algorithm files closest solution with
  | case1 => simp at hclosest
  | case2 files closest solution hfiles hfind =>
    obtain ⟨file, hfile, rfl⟩ := List.mem_map.mp hclosest
    simpa using List.find?_eq_none.mp hfind file hfile
  | case3 files closest solution hfiles found hfind current others hothers =>
    have hfound : found ∈ files := List.mem_of_find?_eq_some hfind
    have hindex : found.index = closest := by simpa using List.find?_some hfind
    have hnone : others.map (·.index) = [] := by rw [hothers, List.map_nil]
    refine ⟨[], by simp, ?_, trivial⟩
    exact hindex ▸ hnone ▸ h.perm hfound
  | case4 files closest solution hfiles found hfind current others hothers hnone =>
    have hfound : found ∈ files := List.mem_of_find?_eq_some hfind
    obtain ⟨next, -, hnext, -⟩ := (h.erase found.index).exists_next (h.position found hfound) hothers
    exact absurd (hnext.symm.trans hnone) (by simp)
  | case5 files closest solution hfiles found hfind current others hothers next hnext ih =>
    have hfound : found ∈ files := List.mem_of_find?_eq_some hfind
    have hindex : found.index = closest := by simpa using List.find?_some hfind
    obtain ⟨file, hfile, hfileNext, hnearest⟩ :=
      (h.erase found.index).exists_next (h.position found hfound) hothers
    have hfileIndex : file.index = next := Option.some.inj (hfileNext.symm.trans hnext)
    obtain ⟨tour, hvisit, hperm, htour⟩ := ih (h.erase found.index)
      (hfileIndex ▸ List.mem_map_of_mem hfile)
    refine ⟨next :: tour, by simpa using hvisit, ?_, fun other hother => ?_, htour⟩
    · exact hindex ▸ (hperm.cons found.index).trans (h.perm hfound)
    · have hothersMem : other ∈ others.map (·.index) :=
        hperm.subset (List.mem_cons_of_mem next hother)
      exact hindex ▸ hfileIndex ▸ hnearest other hothersMem

end Tour

section Call
variable {algorithm : SLTFRAOAlgorithm Position Cost} {jobs : List RetrieveJob}
  {files : RAOFilesContainer Position Cost}

theorem filesFrom_none {i : Nat} :
    algorithm.filesFrom i jobs = none ↔
      ∃ job ∈ jobs ++ [createFakeRetrieveJobForFileAtBeginningOfTape],
        algorithm.getFilePosition job = none := by
  induction jobs generalizing i with
  | nil =>
    rw [SLTFRAOAlgorithm.filesFrom]
    cases hfake : algorithm.getFilePosition createFakeRetrieveJobForFileAtBeginningOfTape with
    | none => simp [hfake]
    | some position => simp [hfake]
  | cons job jobs ih =>
    rw [SLTFRAOAlgorithm.filesFrom]
    cases hjob : algorithm.getFilePosition job with
    | none => simp [hjob]
    | some position =>
      have hrest := ih (i := i + 1)
      cases hfiles : algorithm.filesFrom (i + 1) jobs with
      | none => simpa [hjob, hfiles] using hrest
      | some files => simpa [hjob, hfiles] using hrest

theorem filesFrom_some {i : Nat} (h : algorithm.filesFrom i jobs = some files) :
    files.map (·.index) = List.range' i (jobs.length + 1) ∧
      ∀ file ∈ files, ∃ k, file.index = i + k ∧
        algorithm.positionOf jobs k = some file.filePositionInfos := by
  induction jobs generalizing i files with
  | nil =>
    simp only [SLTFRAOAlgorithm.filesFrom, Option.bind_eq_bind, Option.bind_eq_some_iff] at h
    obtain ⟨position, hposition, h⟩ := h
    obtain rfl := Option.some.inj h
    refine ⟨rfl, ?_⟩
    intro file hfile
    obtain rfl := List.mem_singleton.mp hfile
    exact ⟨0, rfl, by simpa [SLTFRAOAlgorithm.positionOf] using hposition⟩
  | cons job jobs ih =>
    simp only [SLTFRAOAlgorithm.filesFrom, Option.bind_eq_bind, Option.bind_eq_some_iff] at h
    obtain ⟨position, hposition, rest, hrest, h⟩ := h
    obtain rfl := Option.some.inj h
    obtain ⟨hindices, hpositions⟩ := ih hrest
    refine ⟨by rw [List.map_cons, hindices]; rfl, ?_⟩
    intro file hfile
    cases List.mem_cons.mp hfile with
    | inl heq =>
      subst heq
      exact ⟨0, rfl, by simpa [SLTFRAOAlgorithm.positionOf] using hposition⟩
    | inr hfile =>
      obtain ⟨k, hk, hplace⟩ := hpositions file hfile
      exact ⟨k + 1, by omega, by simpa [SLTFRAOAlgorithm.positionOf] using hplace⟩

theorem computeAllFilesPosition_placed (h : algorithm.computeAllFilesPosition jobs = some files) :
    files.map (·.index) = List.range (jobs.length + 1) ∧ Placed algorithm jobs files := by
  obtain ⟨hindices, hpositions⟩ := filesFrom_some h
  rw [← List.range_eq_range'] at hindices
  refine ⟨hindices, ⟨hindices ▸ List.nodup_range, ?_⟩⟩
  intro file hfile
  obtain ⟨k, hk, hplace⟩ := hpositions file hfile
  rw [hk, Nat.zero_add]
  exact hplace

variable [Preorder Cost] [DecidableLT Cost]

theorem performSLTF_eq (hindices : files.map (·.index) = List.range (jobs.length + 1))
    (h : Placed algorithm jobs files) (hjobs : jobs ≠ []) :
    ∃ solution, algorithm.performSLTF files = .order solution ∧
      solution.Perm (List.range jobs.length) ∧
      NearestFirst (algorithm.Closer jobs) jobs.length solution := by
  cases hlast : files.getLast? with
  | none => simp [List.getLast?_eq_none_iff.mp hlast] at hindices
  | some last =>
    have hmem : last ∈ files := List.mem_of_getLast? hlast
    have hindex : last.index = jobs.length := by
      have hmap := congrArg List.getLast? hindices
      simpa [List.getLast?_map, hlast, List.getLast?_range] using hmap
    have hothers : (erase files last.index).map (·.index) = List.range jobs.length := by
      rw [map_index_erase, hindices, hindex, List.range_succ, List.filter_append,
        List.filter_eq_self.mpr fun i hi => by simpa using (List.mem_range.mp hi).ne]
      simp
    have hne : erase files last.index ≠ [] := by
      intro hnil
      rw [hnil, List.map_nil, eq_comm, List.range_eq_nil, List.length_eq_zero_iff] at hothers
      exact hjobs hothers
    obtain ⟨next, hnext, hclosest, hnearest⟩ :=
      (h.erase last.index).exists_next (h.position last hmem) hne
    obtain ⟨tour, hvisit, hperm, htour⟩ :=
      visit_eq (h.erase last.index) (List.mem_map_of_mem hnext) [next.index]
    refine ⟨next.index :: tour, ?_, hothers ▸ hperm, fun other hother => ?_, htour⟩
    · unfold SLTFRAOAlgorithm.performSLTF
      simp only [hlast]
      rw [show last.copy.index = last.index from rfl, hclosest]
      exact hvisit
    · exact hindex ▸ hnearest other (hperm.subset (List.mem_cons_of_mem _ hother))

theorem performRAO_nil {position : Position}
    (h : algorithm.getFilePosition createFakeRetrieveJobForFileAtBeginningOfTape = some position) :
    algorithm.performRAO [] = .noDistances := by
  have hfiles : algorithm.computeAllFilesPosition [] =
      some [{ index := 0, filePositionInfos := position }] := by
    simp [SLTFRAOAlgorithm.computeAllFilesPosition, SLTFRAOAlgorithm.filesFrom, h]
  have herase : erase [({ index := 0, filePositionInfos := position } : RAOFile Position Cost)] 0 =
      [] := rfl
  simp [SLTFRAOAlgorithm.performRAO, hfiles, SLTFRAOAlgorithm.performSLTF, RAOFile.copy, herase,
    SLTFRAOAlgorithm.computeCostBetweenFileAndOthers, RAOFile.getClosestFileIndex]

theorem performRAO_eq (hjobs : jobs ≠ []) :
    algorithm.ShortestLocateTimeFirst jobs (algorithm.performRAO jobs) := by
  unfold SLTFRAOAlgorithm.performRAO
  cases hfiles : algorithm.computeAllFilesPosition jobs with
  | none => exact filesFrom_none.mp hfiles
  | some files =>
    obtain ⟨hindices, hplaced⟩ := computeAllFilesPosition_placed hfiles
    obtain ⟨solution, hsolution, hperm, htour⟩ := performSLTF_eq hindices hplaced hjobs
    simp only [hsolution]
    exact ⟨hperm, htour⟩

/-- Each order is the shortest-locate-time-first one, exactly with a job to order. Without one
the call ends well only by the exception of an estimator that cannot place the beginning of the
tape. -/
theorem shortest_locate_time_first_iff :
    algorithm.ShortestLocateTimeFirst jobs (algorithm.performRAO jobs) ↔
      jobs ≠ [] ∨
        algorithm.getFilePosition createFakeRetrieveJobForFileAtBeginningOfTape = none := by
  constructor
  · intro h
    by_contra! hnot
    obtain ⟨rfl, hplaced⟩ := hnot
    obtain ⟨position, hposition⟩ := Option.ne_none_iff_exists'.mp hplaced
    rw [performRAO_nil hposition] at h
    exact h
  · rintro (hjobs | hnone)
    · exact performRAO_eq hjobs
    · have hfiles : algorithm.computeAllFilesPosition jobs = none :=
        filesFrom_none.mpr ⟨_, by simp, hnone⟩
      unfold SLTFRAOAlgorithm.performRAO
      rw [hfiles]
      exact ⟨_, by simp, hnone⟩

end Call

def onePlace : SLTFRAOAlgorithm Nat Nat where
  getFilePosition _ := some 0
  getCost _ _ := 0

theorem not_shortest_locate_time_first_nil :
    ¬onePlace.ShortestLocateTimeFirst [] (onePlace.performRAO []) := by
  have hnil : onePlace.performRAO [] = .noDistances := performRAO_nil rfl
  rw [hnil]
  exact id

end Cta.Tape.SltfRao

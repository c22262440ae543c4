import Cta.Tape.EnterpriseRao
import Cta.Tape.RecallTaskInjector
import Cta.Tape.SltfRao

/-! The manager of the recommended access orders: which algorithm is asked for the order of the
jobs, and the linear order where it throws. -/
namespace Cta.Tape.RaoManager
open Cta.Tape.SltfRao (TapeFile SLTFRAOAlgorithm)
open Cta.Tape.EnterpriseRao (udsDescriptor_t Progress ids)

structure RetrieveJob where
  selectedTapeFile : TapeFile
  archiveFileSize : UInt64
  deriving DecidableEq, Repr

namespace RetrieveJob

def toSltf (job : RetrieveJob) : SltfRao.RetrieveJob := ⟨job.selectedTapeFile⟩

def toEnterprise (job : RetrieveJob) : EnterpriseRao.RetrieveJob :=
  ⟨.ofNat job.selectedTapeFile.blockId, job.archiveFileSize⟩

end RetrieveJob

inductive Outcome
  | order (solution : List ℕ)
  /-- An exception, of the project or of the standard library. -/
  | exception
  | undefinedBehaviour
  | endless
  deriving DecidableEq, Repr

/-- A drive sends the descriptors it gets back in its order, unless the command throws. -/
structure EnterpriseDrive where
  answer : ℕ → List udsDescriptor_t → List udsDescriptor_t
  answered : ∀ k sent, (answer k sent).Perm sent
  throws : ℕ → Bool

namespace EnterpriseRAOAlgorithm
variable (drive : EnterpriseDrive) (m_maxFilesSupported : UInt64)

def addJob (njobs : ℕ) (s : Progress) (job : EnterpriseRao.RetrieveJob) :
    Except Outcome Progress :=
  match EnterpriseRao.addJob drive.answer m_maxFilesSupported njobs s job with
  | .error .badArrayNewLength => .error .exception
  | .error .bufferOverrun => .error .undefinedBehaviour
  | .ok s' =>
    if s.queries < s'.queries ∧ drive.throws s.queries then .error .exception else .ok s'

def performFrom (jobs : List EnterpriseRao.RetrieveJob) : ℕ → Progress → Outcome
  | 0, _ => .endless
  | fuel + 1, s =>
    match jobs[s.i.toNat]? with
    | none => .order (s.raoOrder ++ ids s.files)
    | some job =>
      match addJob drive m_maxFilesSupported jobs.length s job with
      | .error outcome => outcome
      | .ok s' => performFrom jobs fuel s'

/-- The 32-bit number of the job is behind the last job after as many rounds, or never. -/
def performRAO (jobs : List EnterpriseRao.RetrieveJob) : Outcome :=
  performFrom drive m_maxFilesSupported jobs (jobs.length + 1) {}

end EnterpriseRAOAlgorithm

/-- `LinearRAOAlgorithm::performRAO`: a stable sort by the position on tape. -/
def linearRAO (jobs : List RetrieveJob) : List ℕ :=
  (List.range jobs.length).mergeSort fun index1 index2 =>
    match jobs[index1]?, jobs[index2]? with
    | some job1, some job2 => !decide (job2.selectedTapeFile.fSeq < job1.selectedTapeFile.fSeq)
    | _, _ => true

/-- `std::random_shuffle`. -/
structure Shuffle where
  shuffle : List ℕ → List ℕ
  shuffled : ∀ indices, (shuffle indices).Perm indices

inductive RAOAlgorithm (Position Cost : Type) where
  | linear
  | random (random_shuffle : Shuffle)
  | sltf (algorithm : SLTFRAOAlgorithm Position Cost)
  | enterprise (drive : EnterpriseDrive) (maxFilesSupported : UInt64)

inductive RAOAlgorithmType where
  | linear
  | random
  | sltf
  deriving DecidableEq, Repr

/-- `RAOParams::getAlgorithmType`: none, if no algorithm has that name. -/
def getAlgorithmType (raoAlgorithmName : String) : Option RAOAlgorithmType :=
  if raoAlgorithmName = "linear" then some .linear
  else if raoAlgorithmName = "random" then some .random
  else if raoAlgorithmName = "sltf" then some .sltf
  else none

/-- The limits of the drive are set together with the two flags that say that it has them.
Nothing is built for SLTF when the drive, the catalogue or the options do not allow it. -/
structure RAOManager (Position Cost : Type) where
  maxFilesSupported : Option UInt64
  raoAlgorithmName : String
  drive : EnterpriseDrive
  random_shuffle : Shuffle
  builtSltf : Option (SLTFRAOAlgorithm Position Cost)

variable {Position Cost : Type} [Preorder Cost] [DecidableLT Cost]

def RAOAlgorithm.performRAO (jobs : List RetrieveJob) : RAOAlgorithm Position Cost → Outcome
  | .linear => .order (linearRAO jobs)
  | .random random_shuffle => .order (random_shuffle.shuffle (List.range jobs.length))
  | .sltf algorithm =>
    match algorithm.performRAO (jobs.map RetrieveJob.toSltf) with
    | .order solution => .order solution
    | .estimatorException | .outOfRange => .exception
    | .noDistances | .noFiles => .undefinedBehaviour
  | .enterprise drive maxFilesSupported =>
    EnterpriseRAOAlgorithm.performRAO drive maxFilesSupported (jobs.map RetrieveJob.toEnterprise)

namespace RAOManager
variable (m : RAOManager Position Cost) (jobs : List RetrieveJob)

/-- None, if the algorithm cannot be made. -/
def createRAOAlgorithm : Option (RAOAlgorithm Position Cost) :=
  match m.maxFilesSupported with
  | some maxFilesSupported => some (.enterprise m.drive maxFilesSupported)
  | none =>
    match (getAlgorithmType m.raoAlgorithmName).getD .linear with
    | .linear => some .linear
    | .random => some (.random m.random_shuffle)
    | .sltf => m.builtSltf.map .sltf

def queryRAO : Outcome :=
  match (m.createRAOAlgorithm.getD .linear).performRAO jobs with
  | .exception => .order (linearRAO jobs)
  | outcome => outcome

/-- The jobs a drive with its own order can number: their numbers fit the field that is sent, and
the drive is sent all files that it is asked about. -/
def Numbered : Prop :=
  ∀ maxFilesSupported, m.maxFilesSupported = some maxFilesSupported →
    1 ≤ maxFilesSupported ∧ jobs.length ≤ 10000 ∧
      EnterpriseRao.Fits maxFilesSupported jobs.length

end RAOManager

variable {drive : EnterpriseDrive} {maxFilesSupported : UInt64} {jobs : List RetrieveJob}
  {raoOrder : List ℕ} {s : Progress} {fuel : ℕ}

/-- With the exceptions of the drive, the run is the one without them or ends with one. -/
theorem performFrom_of_performRAO {enterpriseJobs : List EnterpriseRao.RetrieveJob}
    (h : EnterpriseRao.performRAO drive.answer maxFilesSupported enterpriseJobs fuel s =
      some (.ok raoOrder)) :
    EnterpriseRAOAlgorithm.performFrom drive maxFilesSupported enterpriseJobs fuel s ∈
      [.exception, .order raoOrder] := by
  induction fuel generalizing s with
  | zero => cases h
  | succ fuel ih =>
    rw [EnterpriseRao.performRAO] at h
    rw [EnterpriseRAOAlgorithm.performFrom]
    cases hjob : enterpriseJobs[s.i.toNat]? with
    | none =>
      simp only [hjob, Option.some.injEq, Except.ok.injEq] at h
      simp [h]
    | some job =>
      simp only [hjob] at h ⊢
      cases hadd : EnterpriseRao.addJob drive.answer maxFilesSupported enterpriseJobs.length s job
        with
      | error failure => simp [hadd] at h
      | ok s' =>
        simp only [hadd] at h
        by_cases hthrows : s.queries < s'.queries ∧ drive.throws s.queries
        · simp [EnterpriseRAOAlgorithm.addJob, hadd, hthrows]
        · simpa only [EnterpriseRAOAlgorithm.addJob, hadd, hthrows, if_false] using ih h

theorem linearRAO_perm : (linearRAO jobs).Perm (List.range jobs.length) :=
  List.mergeSort_perm _ _

theorem performEnterprise_perm (hm : 1 ≤ maxFilesSupported) (hshort : jobs.length ≤ 10000)
    (hfits : EnterpriseRao.Fits maxFilesSupported jobs.length) :
    RAOAlgorithm.performRAO jobs (.enterprise drive maxFilesSupported :
      RAOAlgorithm Position Cost) = .exception ∨
    ∃ solution, RAOAlgorithm.performRAO jobs (.enterprise drive maxFilesSupported :
      RAOAlgorithm Position Cost) = .order solution ∧
        solution.Perm (List.range jobs.length) := by
  have hlength : (jobs.map RetrieveJob.toEnterprise).length = jobs.length := List.length_map _
  rw [← hlength] at hshort hfits
  obtain ⟨solution, hrun, hperm⟩ := EnterpriseRao.performRAO_ok hm drive.answered hfits hshort
  rw [hlength] at hperm
  obtain hexc | horder := List.mem_pair.mp (performFrom_of_performRAO hrun)
  · exact .inl hexc
  · exact .inr ⟨solution, horder, hperm⟩

theorem performSltf_perm {algorithm : SLTFRAOAlgorithm Position Cost} (hjobs : jobs ≠ []) :
    RAOAlgorithm.performRAO jobs (.sltf algorithm) = .exception ∨
    ∃ solution, RAOAlgorithm.performRAO jobs (.sltf algorithm) = .order solution ∧
      solution.Perm (List.range jobs.length) := by
  have hshortest : algorithm.ShortestLocateTimeFirst (jobs.map RetrieveJob.toSltf) _ :=
    SltfRao.performRAO_eq (by simpa using hjobs)
  rw [RAOAlgorithm.performRAO]
  cases houtcome : algorithm.performRAO (jobs.map RetrieveJob.toSltf) with
  | order solution =>
    rw [houtcome] at hshortest
    exact .inr ⟨solution, rfl, by simpa using hshortest.1⟩
  | estimatorException => exact .inl rfl
  | outOfRange => exact .inl rfl
  | noDistances => simp [houtcome, SLTFRAOAlgorithm.ShortestLocateTimeFirst] at hshortest
  | noFiles => simp [houtcome, SLTFRAOAlgorithm.ShortestLocateTimeFirst] at hshortest

variable {m : RAOManager Position Cost}

theorem performRAO_perm (hjobs : jobs ≠ []) (h : m.Numbered jobs) :
    (m.createRAOAlgorithm.getD .linear).performRAO jobs = .exception ∨
    ∃ solution, (m.createRAOAlgorithm.getD .linear).performRAO jobs = .order solution ∧
      solution.Perm (List.range jobs.length) := by
  have hlinear : ∃ solution, (RAOAlgorithm.linear : RAOAlgorithm Position Cost).performRAO jobs =
      .order solution ∧ solution.Perm (List.range jobs.length) :=
    ⟨linearRAO jobs, rfl, linearRAO_perm⟩
  unfold RAOManager.createRAOAlgorithm
  cases hm : m.maxFilesSupported with
  | some maxFilesSupported =>
    obtain ⟨hpos, hshort, hfits⟩ := h maxFilesSupported hm
    exact performEnterprise_perm hpos hshort hfits
  | none =>
    cases (getAlgorithmType m.raoAlgorithmName).getD .linear with
    | linear => exact .inr hlinear
    | random =>
      exact .inr ⟨m.random_shuffle.shuffle _, rfl, m.random_shuffle.shuffled _⟩
    | sltf =>
      cases m.builtSltf with
      | none => exact .inr hlinear
      | some algorithm => exact performSltf_perm hjobs

theorem queryRAO_perm (hjobs : jobs ≠ []) (h : m.Numbered jobs) :
    ∃ solution, m.queryRAO jobs = .order solution ∧ solution.Perm (List.range jobs.length) := by
  unfold RAOManager.queryRAO
  obtain hexc | ⟨solution, horder, hperm⟩ := performRAO_perm hjobs h
  · exact ⟨linearRAO jobs, by rw [hexc], linearRAO_perm⟩
  · exact ⟨solution, by rw [horder], hperm⟩

/-- The injector may rely on the order it gets for its jobs, when it holds one. -/
theorem queryRAO_allowed {s : RecallTaskInjector.Injector} {rao : RecallTaskInjector.RaoManager}
    {reserveDiskSpace : List (String × Nat) → RecallTaskInjector.Reservation} {requeues : Bool}
    (hs : s.ending = none) (hheld : jobs.length = s.jobs.length) (hjobs : s.jobs ≠ [])
    (hnumbered : m.Numbered jobs) (horder : m.queryRAO jobs = .order rao.raoOrder) :
    s.Allowed (.injectBulkRecalls rao reserveDiskSpace requeues) := by
  have hne : jobs ≠ [] := by
    rw [← List.length_pos_iff, hheld]
    exact List.length_pos_iff.mpr hjobs
  obtain ⟨solution, hsolution, hperm⟩ := queryRAO_perm hne hnumbered
  have heq : rao.raoOrder = solution := by
    rw [hsolution, Outcome.order.injEq] at horder
    exact horder.symm
  exact ⟨hs, fun _ => heq ▸ hheld ▸ hperm⟩

/-- A drive that reads backwards. -/
def backwards : RAOManager ℕ ℕ where
  maxFilesSupported := some 30
  raoAlgorithmName := "sltf"
  drive := ⟨fun _ => List.reverse, fun _ => List.reverse_perm, fun _ => false⟩
  random_shuffle := ⟨id, fun _ => .refl _⟩
  builtSltf := none

theorem queryRAO_allowed_two :
    ({ maxBatchFiles := 10, maxBatchBytes := 1000,
       jobs := [some ⟨7, 5, none⟩, some ⟨8, 6, none⟩] } : RecallTaskInjector.Injector).Allowed
        (.injectBulkRecalls ⟨true, some 30, true, [1, 0]⟩ (fun _ => .reserved) true) := by
  have horder : backwards.queryRAO [⟨⟨100, 1, 1, 5⟩, 5⟩, ⟨⟨200, 1, 2, 6⟩, 6⟩] = .order [1, 0] := by
    decide +kernel
  refine queryRAO_allowed rfl rfl (by simp) ?_ horder
  intro maxFilesSupported hmax
  obtain rfl := Option.some.inj hmax
  exact ⟨by decide, by decide, fun _ => by rw [EnterpriseRao.int_eq (by decide)]; decide⟩

end Cta.Tape.RaoManager

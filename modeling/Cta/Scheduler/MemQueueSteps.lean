import Mathlib.Algebra.Ring.Nat
import Mathlib.Data.List.Basic
import Cta.Scheduler.MemQueues

/-! What a step of the threads that share a queue can do. -/
namespace Cta.Scheduler.MemQueues
variable {ι ε : Type}

namespace Stage

def isOpen : Stage ι ε → Bool
  | waiting | awake => true
  | _ => false

def started : Stage ι ε → Bool
  | waiting => false
  | _ => true

/-- The thread is past the second check, and the promise for the successor is not set yet. -/
def inStore : Stage ι ε → Bool
  | adding _ | releasing _ | returned | unwinding _ => true
  | _ => false

def lends : Stage ι ε → Bool
  | releasing _ | returned => true
  | _ => false

def added : Stage ι ε → Bool
  | adding reached => reached = .added
  | releasing _ | returned | trimming | finished => true
  | unwinding failure | unwindingTrim failure | propagating failure _ | threw failure =>
    failure.reached = .added
  | _ => false

def failed : Stage ι ε → Bool
  | unwinding _ | unwindingTrim _ | propagating .. | threw _ => true
  | _ => false

def outcome : Stage ι ε → Option (Outcome ε)
  | releasing _ | returned | trimming | finished => some .returned
  | unwinding failure | unwindingTrim failure | propagating failure _ | threw failure =>
    some (.threw failure.exception)
  | _ => none

def left : Stage ι ε → List (MemQueueRequest ι)
  | releasing left | propagating _ left => left
  | _ => []

def ended : Stage ι ε → Bool
  | returned | trimming | finished | threw _ => true
  | _ => false

def final : Stage ι ε → Bool
  | finished | threw _ | broken _ => true
  | _ => false

/-- The steps that are left, at most, of the thread that made a queue with `n` other requests. -/
def rank (n : ℕ) : Stage ι ε → ℕ
  | waiting => 2 * n + 9
  | awake => 2 * n + 8
  | adding .unlocked => 2 * n + 7
  | adding .locked => 2 * n + 6
  | adding .added => 2 * n + 5
  | releasing left => 2 * left.length + 4
  | returned => 2
  | trimming => 1
  | unwinding _ => n + 3
  | unwindingTrim _ => n + 2
  | propagating _ left => left.length + 1
  | finished | threw _ | broken _ => 0

theorem started_of_fulfilled {stage : Stage ι ε} (h : stage.fulfilled = true) :
    stage.started = true := by
  cases stage <;> first | rfl | cases h

theorem started_of_inStore {stage : Stage ι ε} (h : stage.inStore = true) :
    stage.started = true ∧ stage.fulfilled = false := by
  cases stage <;> first | exact ⟨rfl, rfl⟩ | cases h

end Stage

namespace MemQueue

def told (q : MemQueue ι ε) : List (MemQueueRequest ι) :=
  match q.stage with
  | .releasing left | .propagating _ left =>
    q.m_requests.take (q.m_requests.length - left.length)
  | .returned | .trimming | .finished | .threw _ => q.calls
  | _ => []

def given (q : MemQueue ι ε) : List (ℕ × Outcome ε) :=
  match q.stage.outcome with
  | some outcome => q.told.map fun c => (c.id, outcome)
  | none => []

def jobs (q : MemQueue ι ε) : List (MemQueueRequest ι) := if q.stage.added then q.calls else []

def work (q : MemQueue ι ε) : ℕ := q.stage.rank q.m_requests.length + q.holders.length

end MemQueue

def State.remaining (s : State ι ε) : ℕ :=
  (if s.exited then 0 else 1) + (s.queues.map MemQueue.work).sum

/-- One step of a thread that is past its first wait, or of one that has the `SharedQueueLock`: the
next stage and the references, and what else changes. -/
inductive Move [DecidableEq ι] (s : State ι ε) (k : ℕ) (q : MemQueue ι ε) :
    Stage ι ε → List ℕ → (ι → Option ℕ) → Bool → List (MemQueueRequest ι) →
      List (ℕ × Outcome ε) → Prop
  | wake : q.stage = .waiting → s.ready q = true →
      Move s k q .awake q.holders s.g_queues false s.jobs s.results
  | close : q.stage = .awake → s.g_queues q.queueIndex = some k →
      Move s k q (.adding .unlocked) q.holders (Function.update s.g_queues q.queueIndex none) false
        s.jobs s.results
  | broken {message : String} : q.stage = .awake → s.g_queues q.queueIndex ≠ some k →
      Move s k q (.broken message) q.holders s.g_queues false s.jobs
        ((q.request.id, .internal message) :: s.results)
  | lock : q.stage = .adding .unlocked →
      Move s k q (.adding .locked) q.holders s.g_queues false s.jobs s.results
  | add : q.stage = .adding .locked →
      Move s k q (.adding .added) q.holders s.g_queues false (s.jobs ++ q.calls) s.results
  | throwing {reached : Reached} {e : ε} : q.stage = .adding reached →
      Move s k q (.unwinding ⟨e, reached⟩) q.holders s.g_queues false s.jobs s.results
  | succeed : q.stage = .adding .added →
      Move s k q (.releasing q.m_requests) q.holders s.g_queues false s.jobs s.results
  | release {c : MemQueueRequest ι} {left : List (MemQueueRequest ι)} :
      q.stage = .releasing (c :: left) →
      Move s k q (.releasing left) (c.id :: q.holders) s.g_queues false s.jobs
        ((c.id, .returned) :: s.results)
  | finish : q.stage = .releasing [] →
      Move s k q .returned (q.request.id :: q.holders) s.g_queues false s.jobs
        ((q.request.id, .returned) :: s.results)
  | drop {id : ℕ} : id ∈ q.holders →
      Move s k q q.stage (q.holders.erase id) s.g_queues false s.jobs s.results
  | destroy : q.stage = .returned → q.holders = [] →
      Move s k q .trimming q.holders s.g_queues false s.jobs s.results
  | unwind {failure : StoreFailure ε} : q.stage = .unwinding failure →
      Move s k q (.unwindingTrim failure) q.holders s.g_queues false s.jobs s.results
  | unwindUnlocked {failure : StoreFailure ε} : q.stage = .unwinding failure →
      Move s k q (.propagating failure q.m_requests) q.holders s.g_queues false s.jobs s.results
  | trim : q.stage = .trimming → Move s k q .finished q.holders s.g_queues true s.jobs s.results
  | unwindTrim {failure : StoreFailure ε} : q.stage = .unwindingTrim failure →
      Move s k q (.propagating failure q.m_requests) q.holders s.g_queues true s.jobs s.results
  | propagate {failure : StoreFailure ε} {c : MemQueueRequest ι}
      {left : List (MemQueueRequest ι)} : q.stage = .propagating failure (c :: left) →
      Move s k q (.propagating failure left) q.holders s.g_queues false s.jobs
        ((c.id, .threw failure.exception) :: s.results)
  | rethrow {failure : StoreFailure ε} : q.stage = .propagating failure [] →
      Move s k q (.threw failure) q.holders s.g_queues false s.jobs
        ((q.request.id, .threw failure.exception) :: s.results)

def moved [DecidableEq ι] (s : State ι ε) (k : ℕ) (q : MemQueue ι ε) (stage : Stage ι ε)
    (holders : List ℕ) (g_queues : ι → Option ℕ) (trims : Bool)
    (jobs : List (MemQueueRequest ι)) (results : List (ℕ × Outcome ε)) : State ι ε :=
  { if trims then s.trim k q.queueIndex else s with
    queues := s.queues.set k { q with stage, holders }, g_queues, jobs, results }

section
variable [DecidableEq ι] {s t : State ι ε} {k : ℕ} {q : MemQueue ι ε} {e : Event ι ε}

theorem moved_calls_exited (stage : Stage ι ε) (holders : List ℕ) (g_queues : ι → Option ℕ)
    (trims : Bool) (jobs : List (MemQueueRequest ι)) (results : List (ℕ × Outcome ε)) :
    (moved s k q stage holders g_queues trims jobs results).calls = s.calls ∧
      (moved s k q stage holders g_queues trims jobs results).exited = s.exited := by
  cases trims with
  | false => exact ⟨rfl, rfl⟩
  | true =>
    simp only [moved, if_true]
    unfold State.trim
    split <;> exact ⟨rfl, rfl⟩

theorem setStage_trim (s : State ι ε) (k : ℕ) (q : MemQueue ι ε) (stage : Stage ι ε) :
    (s.trim k q.queueIndex).setStage k q stage =
      moved s k q stage q.holders s.g_queues true s.jobs s.results := by
  simp only [moved, State.setStage, if_true]
  unfold State.trim
  split <;> rfl

theorem close_cases (h : q.stage = .awake) : ∃ stage g_queues results,
    Move s k q stage q.holders g_queues false s.jobs results ∧
      s.close k q = moved s k q stage q.holders g_queues false s.jobs results := by
  unfold State.close
  split
  · rename_i hnone
    exact ⟨_, _, _, .broken h (by rw [hnone]; exact nofun), rfl⟩
  · rename_i listed hlisted
    split
    · rename_i hk
      exact ⟨_, _, _, .close h (by rw [hlisted, hk]), rfl⟩
    · rename_i hk
      refine ⟨_, _, _, .broken h ?_, rfl⟩
      rw [hlisted]
      exact fun h => hk (Option.some.inj h)

/-- What serving the thread of a queue comes to. -/
def Served (s : State ι ε) (k : ℕ) (q : MemQueue ι ε) (t : State ι ε) : Prop :=
  t = { s with exited := true } ∨
    ∃ stage holders g_queues trims jobs results,
      Move s k q stage holders g_queues trims jobs results ∧
        t = moved s k q stage holders g_queues trims jobs results

theorem Move.served {stage : Stage ι ε} {holders : List ℕ} {g_queues : ι → Option ℕ}
    {trims : Bool} {jobs : List (MemQueueRequest ι)} {results : List (ℕ × Outcome ε)}
    (h : Move s k q stage holders g_queues trims jobs results)
    (ht : t = moved s k q stage holders g_queues trims jobs results) : Served s k q t :=
  .inr ⟨stage, holders, g_queues, trims, jobs, results, h, ht⟩

theorem wake_served {i : ℕ} (h : s.serve k q (.wake i) = some t) : Served s k q t := by
  cases hstage : q.stage <;> simp only [State.serve, hstage, reduceCtorEq] at h
  split at h
  · obtain rfl := Option.some.inj h
    exact Move.served (.wake hstage ‹_›) rfl
  · cases h

theorem close_served {i : ℕ} (h : s.serve k q (.close i) = some t) : Served s k q t := by
  cases hstage : q.stage <;> simp only [State.serve, hstage, reduceCtorEq] at h
  obtain rfl := Option.some.inj h
  obtain ⟨stage, g_queues, results, hmove, heq⟩ := close_cases hstage
  exact hmove.served heq

theorem lock_served {i : ℕ} (h : s.serve k q (.lock i) = some t) : Served s k q t := by
  cases hstage : q.stage with
  | adding reached =>
    cases reached <;> simp only [State.serve, hstage, reduceCtorEq] at h
    obtain rfl := Option.some.inj h
    exact Move.served (.lock hstage) rfl
  | _ => simp only [State.serve, hstage, reduceCtorEq] at h

theorem add_served {i : ℕ} (h : s.serve k q (.add i) = some t) : Served s k q t := by
  cases hstage : q.stage with
  | adding reached =>
    cases reached <;> simp only [State.serve, hstage, reduceCtorEq] at h
    obtain rfl := Option.some.inj h
    exact Move.served (.add hstage) rfl
  | _ => simp only [State.serve, hstage, reduceCtorEq] at h

theorem throwing_served {i : ℕ} {x : ε} (h : s.serve k q (.throwing i x) = some t) :
    Served s k q t := by
  cases hstage : q.stage <;> simp only [State.serve, hstage, reduceCtorEq] at h
  obtain rfl := Option.some.inj h
  exact Move.served (.throwing hstage) rfl

theorem succeed_served {i : ℕ} (h : s.serve k q (.succeed i) = some t) : Served s k q t := by
  cases hstage : q.stage with
  | adding reached =>
    cases reached <;> simp only [State.serve, hstage, reduceCtorEq] at h
    obtain rfl := Option.some.inj h
    exact Move.served (.succeed hstage) rfl
  | _ => simp only [State.serve, hstage, reduceCtorEq] at h

theorem release_served {i : ℕ} (h : s.serve k q (.release i) = some t) : Served s k q t := by
  cases hstage : q.stage with
  | releasing left =>
    cases left <;> simp only [State.serve, hstage, reduceCtorEq] at h
    obtain rfl := Option.some.inj h
    exact Move.served (.release hstage) rfl
  | _ => simp only [State.serve, hstage, reduceCtorEq] at h

theorem finish_served {i : ℕ} (h : s.serve k q (.finish i) = some t) : Served s k q t := by
  cases hstage : q.stage with
  | releasing left =>
    cases left <;> simp only [State.serve, hstage, reduceCtorEq] at h
    obtain rfl := Option.some.inj h
    exact Move.served (.finish hstage) rfl
  | _ => simp only [State.serve, hstage, reduceCtorEq] at h

theorem drop_served {i id : ℕ} (h : s.serve k q (.drop i id) = some t) : Served s k q t := by
  simp only [State.serve] at h
  split at h
  · rename_i hid
    obtain rfl := Option.some.inj h
    exact Move.served (.drop hid) rfl
  · cases h

theorem destroy_served {i : ℕ} (h : s.serve k q (.destroy i) = some t) : Served s k q t := by
  cases hstage : q.stage <;> simp only [State.serve, hstage, reduceCtorEq] at h
  · split at h
    · rename_i hholders
      obtain rfl := Option.some.inj h
      exact Move.served (.destroy hstage hholders) rfl
    · cases h
  · split at h
    · obtain rfl := Option.some.inj h
      exact Move.served (.unwindUnlocked hstage) rfl
    · obtain rfl := Option.some.inj h
      exact Move.served (.unwind hstage) rfl

theorem terminate_served {i : ℕ} (h : s.serve k q (.terminate i) = some t) : Served s k q t := by
  cases hstage : q.stage <;> simp only [State.serve, hstage, reduceCtorEq] at h
  · split at h
    · exact .inl (Option.some.inj h).symm
    · cases h
  · split at h
    · cases h
    · exact .inl (Option.some.inj h).symm

theorem trim_served {i : ℕ} (h : s.serve k q (.trim i) = some t) : Served s k q t := by
  cases hstage : q.stage <;> simp only [State.serve, hstage, reduceCtorEq] at h
  · obtain rfl := Option.some.inj h
    exact Move.served (.trim hstage) (setStage_trim s k q _)
  · obtain rfl := Option.some.inj h
    exact Move.served (.unwindTrim hstage) (setStage_trim s k q _)

theorem propagate_served {i : ℕ} (h : s.serve k q (.propagate i) = some t) : Served s k q t := by
  cases hstage : q.stage with
  | propagating failure left =>
    cases left <;> simp only [State.serve, hstage, reduceCtorEq] at h
    obtain rfl := Option.some.inj h
    exact Move.served (.propagate hstage) rfl
  | _ => simp only [State.serve, hstage, reduceCtorEq] at h

theorem rethrow_served {i : ℕ} (h : s.serve k q (.rethrow i) = some t) : Served s k q t := by
  cases hstage : q.stage with
  | propagating failure left =>
    cases left <;> simp only [State.serve, hstage, reduceCtorEq] at h
    obtain rfl := Option.some.inj h
    exact Move.served (.rethrow hstage) rfl
  | _ => simp only [State.serve, hstage, reduceCtorEq] at h

theorem serve_cases (h : s.serve k q e = some t) : Served s k q t := by
  cases e with
  | call queueIndex => cases h
  | wake => exact wake_served h
  | close => exact close_served h
  | lock => exact lock_served h
  | add => exact add_served h
  | throwing k' e => exact throwing_served h
  | succeed => exact succeed_served h
  | release => exact release_served h
  | finish => exact finish_served h
  | drop k' id => exact drop_served h
  | destroy => exact destroy_served h
  | terminate => exact terminate_served h
  | trim => exact trim_served h
  | propagate => exact propagate_served h
  | rethrow => exact rethrow_served h

theorem step_cases (h : step s e = some t) : s.exited = false ∧
    ((∃ queueIndex, e = .call queueIndex ∧ s.sharedAddToQueue queueIndex = some t) ∨
      (e.queue ≠ none ∧ (t = { s with exited := true } ∨
        ∃ k q stage holders g_queues trims jobs results, s.queues[k]? = some q ∧
          Move s k q stage holders g_queues trims jobs results ∧
          t = moved s k q stage holders g_queues trims jobs results))) := by
  unfold step at h
  split at h
  · cases h
  · rename_i hexited
    refine ⟨by simpa using hexited, ?_⟩
    split at h
    · exact .inl ⟨_, rfl, h⟩
    · cases h
    · rename_i e' k hqueue
      obtain ⟨q, hq, hserve⟩ := Option.bind_eq_some_iff.mp h
      refine .inr ⟨by rw [hqueue]; exact Option.some_ne_none k, ?_⟩
      rcases serve_cases hserve with
        hexit | ⟨stage, holders, g_queues, trims, jobs, results, hmove, ht⟩
      · exact .inl hexit
      · exact .inr ⟨k, q, stage, holders, g_queues, trims, jobs, results, hq, hmove, ht⟩

end

structure MemQueue.Sound (q : MemQueue ι ε) : Prop where
  unbroken : ∀ message, q.stage ≠ .broken message
  left : q.stage.left <:+ q.m_requests
  lends : q.holders ≠ [] → q.stage.lends = true
  index : ∀ c ∈ q.calls, c.queueIndex = q.queueIndex

section
variable {s : State ι ε} {k : ℕ} {q : MemQueue ι ε} {stage : Stage ι ε} {holders : List ℕ}
  {g_queues : ι → Option ℕ} {trims : Bool} {jobs : List (MemQueueRequest ι)}
  {results : List (ℕ × Outcome ε)}

/-- What callers get is the outcome of the batch with their request. -/
theorem MemQueue.mem_given {id : ℕ} {outcome : Outcome ε} (h : (id, outcome) ∈ q.given) :
    q.stage.outcome = some outcome ∧ ∃ c ∈ q.told, c.id = id := by
  unfold given at h
  split at h
  · rename_i outcome' houtcome
    obtain ⟨c, hc, hpair⟩ := List.mem_map.mp h
    obtain ⟨rfl, rfl⟩ := Prod.mk.inj hpair
    exact ⟨houtcome, c, hc, rfl⟩
  · exact absurd h List.not_mem_nil

theorem MemQueue.told_sublist (q : MemQueue ι ε) : q.told.Sublist q.calls := by
  unfold told
  split
  · exact (List.take_sublist _ _).trans (List.sublist_cons_self _ _)
  · exact (List.take_sublist _ _).trans (List.sublist_cons_self _ _)
  all_goals first | exact List.Sublist.refl _ | exact List.nil_sublist _

theorem MemQueue.given_sublist (q : MemQueue ι ε) :
    (q.given.map (·.1)).Sublist (q.calls.map (·.id)) := by
  unfold given
  split
  · rw [List.map_map]
    exact q.told_sublist.map _
  · exact List.nil_sublist _

theorem perm_told {requests left : List (MemQueueRequest ι)} {c : MemQueueRequest ι}
    (h : c :: left <:+ requests) : (requests.take (requests.length - left.length)).Perm
      (c :: requests.take (requests.length - (c :: left).length)) := by
  obtain ⟨before, rfl⟩ := h
  have hlength : (before ++ c :: left).length - left.length = (before ++ [c]).length := by
    simp only [List.length_append, List.length_cons, List.length_nil]
    omega
  have hsplit : before ++ c :: left = before ++ [c] ++ left := by simp
  have hbefore : (before ++ c :: left).length - (c :: left).length = before.length := by
    rw [List.length_append, Nat.add_sub_cancel]
  rw [hlength, hbefore, List.take_left, hsplit, List.take_left]
  exact List.perm_append_comm

variable [DecidableEq ι]

namespace Move

theorem fulfilled_mono (h : Move s k q stage holders g_queues trims jobs results)
    (hq : q.stage.fulfilled = true) : stage.fulfilled = true := by
  cases h with
  | drop => exact hq
  | trim | unwindTrim | propagate | rethrow => rfl
  | _ hstage => rw [hstage] at hq; cases hq

theorem started (h : Move s k q stage holders g_queues trims jobs results)
    (hq : stage.started = true) : q.stage.started = true ∨ s.ready q = true := by
  cases h with
  | wake hstage hready => exact .inr hready
  | drop => exact .inl hq
  | _ hstage => exact .inl (by rw [hstage]; rfl)

theorem fulfilled_of_trims (h : Move s k q stage holders g_queues true jobs results) :
    q.stage.started = true ∧ stage.fulfilled = true := by
  cases h with
  | trim hstage => exact ⟨by rw [hstage]; rfl, rfl⟩
  | unwindTrim hstage => exact ⟨by rw [hstage]; rfl, rfl⟩

/-- A queue takes no more requests once its thread has taken it off the list. -/
theorem isOpen (h : Move s k q stage holders g_queues trims jobs results)
    (hlisted : s.g_queues q.queueIndex = some k ↔ q.stage.isOpen = true) :
    stage.isOpen = q.stage.isOpen ∧ g_queues = s.g_queues ∨
      s.g_queues q.queueIndex = some k ∧ stage.isOpen = false ∧
        g_queues = Function.update s.g_queues q.queueIndex none := by
  cases h with
  | close hstage hk => exact .inr ⟨hk, rfl, rfl⟩
  | broken hstage hk => exact absurd (hlisted.mpr (by rw [hstage]; rfl)) hk
  | drop => exact .inl ⟨rfl, rfl⟩
  | _ hstage => exact .inl ⟨by rw [hstage]; rfl, rfl⟩

theorem sound (h : Move s k q stage holders g_queues trims jobs results)
    (hlisted : s.g_queues q.queueIndex = some k ↔ q.stage.isOpen = true) (hq : q.Sound) :
    ({ q with stage, holders } : MemQueue ι ε).Sound := by
  have hnone (hno : q.stage.lends = false) (hne : q.holders ≠ []) : stage.lends = true := by
    rw [hq.lends hne] at hno
    cases hno
  have hleft := hq.left
  cases h with
  | broken hstage hk => exact absurd (hlisted.mpr (by rw [hstage]; rfl)) hk
  | release hstage =>
    rw [hstage] at hleft
    exact ⟨nofun, (List.suffix_cons _ _).trans hleft, fun _ => rfl, hq.index⟩
  | finish hstage => exact ⟨nofun, List.nil_suffix, fun _ => rfl, hq.index⟩
  | drop hid =>
    refine ⟨hq.unbroken, hleft, fun hne => hq.lends fun hnil => hne ?_, hq.index⟩
    change q.holders.erase _ = []
    rw [hnil, List.erase_nil]
  | destroy hstage hnil => exact ⟨nofun, List.nil_suffix, fun hne => absurd hnil hne, hq.index⟩
  | propagate hstage =>
    have hno : q.stage.lends = false := by rw [hstage]; rfl
    rw [hstage] at hleft
    exact ⟨nofun, (List.suffix_cons _ _).trans hleft, hnone hno, hq.index⟩
  | succeed hstage | unwindUnlocked hstage | unwindTrim hstage =>
    exact ⟨nofun, List.suffix_refl _, hnone (by rw [hstage]; rfl), hq.index⟩
  | _ hstage => exact ⟨nofun, List.nil_suffix, hnone (by rw [hstage]; rfl), hq.index⟩

/-- The threads are told in the order of the queue, and the thread that made it last. -/
theorem given (h : Move s k q stage holders g_queues trims jobs results)
    (hlisted : s.g_queues q.queueIndex = some k ↔ q.stage.isOpen = true) (hq : q.Sound) :
    ∃ new, results = new ++ s.results ∧
      ({ q with stage, holders } : MemQueue ι ε).given.Perm (new ++ q.given) := by
  have hleft := hq.left
  cases h with
  | broken hstage hk => exact absurd (hlisted.mpr (by rw [hstage]; rfl)) hk
  | release hstage =>
    rw [hstage] at hleft
    refine ⟨[(_, .returned)], rfl, ?_⟩
    simp only [MemQueue.given, MemQueue.told, hstage, Stage.outcome]
    exact (perm_told hleft).map _
  | propagate hstage =>
    rw [hstage] at hleft
    refine ⟨[(_, .threw _)], rfl, ?_⟩
    simp only [MemQueue.given, MemQueue.told, hstage, Stage.outcome]
    exact (perm_told hleft).map _
  | finish hstage =>
    refine ⟨[(_, .returned)], rfl, ?_⟩
    simp [MemQueue.given, MemQueue.told, hstage, Stage.outcome, MemQueue.calls]
  | rethrow hstage =>
    refine ⟨[(_, .threw _)], rfl, ?_⟩
    simp [MemQueue.given, MemQueue.told, hstage, Stage.outcome, MemQueue.calls]
  | drop => exact ⟨[], rfl, .refl _⟩
  | _ hstage =>
    refine ⟨[], rfl, ?_⟩
    simp [MemQueue.given, MemQueue.told, hstage, Stage.outcome, MemQueue.calls]

theorem addedJobs (h : Move s k q stage holders g_queues trims jobs results) :
    ∃ new, jobs = s.jobs ++ new ∧
      ({ q with stage, holders } : MemQueue ι ε).jobs.Perm (new ++ q.jobs) := by
  cases h with
  | add hstage =>
    refine ⟨q.calls, rfl, ?_⟩
    simp [MemQueue.jobs, hstage, Stage.added, MemQueue.calls]
  | drop => exact ⟨[], (List.append_nil _).symm, .refl _⟩
  | _ hstage =>
    refine ⟨[], (List.append_nil _).symm, ?_⟩
    simp [MemQueue.jobs, hstage, Stage.added, MemQueue.calls]

theorem work (h : Move s k q stage holders g_queues trims jobs results) :
    ({ q with stage, holders } : MemQueue ι ε).work < q.work := by
  cases h with
  | drop hid =>
    have hlength := List.length_erase_of_mem hid
    have hpos := List.length_pos_of_mem hid
    simp only [MemQueue.work]
    omega
  | @throwing reached e hstage =>
    cases reached <;> simp only [MemQueue.work, hstage, Stage.rank] <;> omega
  | _ hstage =>
    simp only [MemQueue.work, hstage, Stage.rank, List.length_cons, List.length_nil]
    omega

end Move

end

end Cta.Scheduler.MemQueues

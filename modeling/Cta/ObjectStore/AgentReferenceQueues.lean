import Mathlib.Algebra.Ring.Nat
import Cta.Lib.Slots
import Cta.ObjectStore.AgentReference

/-! The queues of an agent reference are executed one after the other, and each caller gets the
outcome of the batch with its action. -/
namespace Cta.ObjectStore.AgentReference
open Cta.Lib.Slots
variable {α ε : Type}

namespace Stage

def isOpen : Stage α ε → Bool
  | waiting | awake => true
  | _ => false

def started : Stage α ε → Bool
  | waiting => false
  | _ => true

def passed : Stage α ε → Bool
  | releasing .. | returned _ => true
  | _ => false

def outcome : Stage α ε → Option (Outcome ε)
  | ended outcome | releasing outcome _ | returned outcome => some outcome
  | _ => none

def committed (stage : Stage α ε) : Bool :=
  match stage.outcome with
  | some .committed => true
  | _ => false

theorem started_of_passed {stage : Stage α ε} (h : stage.passed = true) : stage.started = true := by
  cases stage <;> first | rfl | cases h

theorem started_of_committed {stage : Stage α ε} (h : stage.committed = true) :
    stage.started = true := by
  cases stage <;> first | rfl | cases h

end Stage

namespace ActionQueue

def given (q : ActionQueue α ε) : List (ℕ × Outcome ε) :=
  match q.stage with
  | .releasing outcome left =>
    (q.queue.take (q.queue.length - left.length)).map fun c => (c.id, outcome)
  | .returned outcome => q.calls.map fun c => (c.id, outcome)
  | _ => []

def work (q : ActionQueue α ε) : ℕ :=
  match q.stage with
  | .waiting => q.queue.length + 7
  | .awake => q.queue.length + 6
  | .closed => q.queue.length + 5
  | .fetched _ => q.queue.length + 4
  | .ended _ => q.queue.length + 3
  | .releasing _ left => left.length + 1
  | .returned _ | .notListed => 0

end ActionQueue

namespace State

def remaining (s : State α ε) : ℕ :=
  (if s.exited then 0 else 1) + (s.queues.map ActionQueue.work).sum

/-- The actions that reached the object, in the order in which they entered. -/
def applied (s : State α ε) : List (Action α) :=
  (s.queues.filter fun q => q.stage.committed).flatMap ActionQueue.actions

end State

/-- One step of the thread that serves a queue: the next stage, and what else it changes. -/
inductive Move [LinearOrder α] (s : State α ε) (k : ℕ) (q : ActionQueue α ε) :
    Stage α ε → Agent α → Option ℕ → List ℕ → List (ℕ × Outcome ε) → Prop
  | wake : q.stage = .waiting → q.promiseForThisQueue ∈ s.fulfilled →
      Move s k q .awake s.agent s.currentQueue s.fulfilled s.results
  | close : q.stage = .awake → s.currentQueue = some k →
      Move s k q .closed s.agent none s.fulfilled s.results
  | notListed : q.stage = .awake → s.currentQueue ≠ some k →
      Move s k q .notListed s.agent s.currentQueue s.fulfilled s.results
  | fetch : q.stage = .closed →
      Move s k q (.fetched (applyBatch s.agent q.actions)) s.agent s.currentQueue s.fulfilled
        s.results
  | commit {agent : Agent α} : q.stage = .fetched agent →
      Move s k q (.ended .committed) agent s.currentQueue s.fulfilled s.results
  | throwing (e : ε) : q.stage = .closed ∨ (∃ agent, q.stage = .fetched agent) →
      Move s k q (.ended (.threw e)) s.agent s.currentQueue s.fulfilled s.results
  | pass {outcome : Outcome ε} : q.stage = .ended outcome →
      Move s k q (.releasing outcome q.queue) s.agent s.currentQueue
        (q.promiseForNextQueue :: s.fulfilled) s.results
  | release {outcome : Outcome ε} {c : Call α} {left : List (Call α)} :
      q.stage = .releasing outcome (c :: left) →
      Move s k q (.releasing outcome left) s.agent s.currentQueue s.fulfilled
        ((c.id, outcome) :: s.results)
  | finish {outcome : Outcome ε} : q.stage = .releasing outcome [] →
      Move s k q (.returned outcome) s.agent s.currentQueue s.fulfilled
        ((q.action.id, outcome) :: s.results)

def moved (s : State α ε) (k : ℕ) (q : ActionQueue α ε) (stage : Stage α ε) (agent : Agent α)
    (currentQueue : Option ℕ) (fulfilled : List ℕ) (results : List (ℕ × Outcome ε)) : State α ε :=
  { s.setStage k q stage with agent, currentQueue, fulfilled, results }

section
variable [LinearOrder α] {s t : State α ε} {k : ℕ} {q : ActionQueue α ε} {e : Event α ε}

theorem serve_cases (h : s.serve k q e = some t) : t = { s with exited := true } ∨
    ∃ stage agent currentQueue fulfilled results,
      Move s k q stage agent currentQueue fulfilled results ∧
        t = moved s k q stage agent currentQueue fulfilled results := by
  cases e with
  | call action => cases h
  | wake =>
    cases hstage : q.stage <;> simp only [State.serve, hstage, reduceCtorEq] at h
    split at h
    · obtain rfl := Option.some.inj h
      exact .inr ⟨_, _, _, _, _, .wake hstage ‹_›, rfl⟩
    · cases h
  | close =>
    cases hstage : q.stage <;> simp only [State.serve, hstage, reduceCtorEq] at h
    split at h
    · obtain rfl := Option.some.inj h
      exact .inr ⟨_, _, _, _, _, .close hstage ‹_›, rfl⟩
    · obtain rfl := Option.some.inj h
      exact .inr ⟨_, _, _, _, _, .notListed hstage ‹_›, rfl⟩
  | fetch =>
    cases hstage : q.stage <;> simp only [State.serve, hstage, reduceCtorEq] at h
    obtain rfl := Option.some.inj h
    exact .inr ⟨_, _, _, _, _, .fetch hstage, rfl⟩
  | exit =>
    cases hstage : q.stage <;> simp only [State.serve, hstage, reduceCtorEq] at h
    exact .inl (Option.some.inj h).symm
  | commit =>
    cases hstage : q.stage <;> simp only [State.serve, hstage, reduceCtorEq] at h
    obtain rfl := Option.some.inj h
    exact .inr ⟨_, _, _, _, _, .commit hstage, rfl⟩
  | throwing k' e =>
    cases hstage : q.stage with
    | closed =>
      simp only [State.serve, hstage] at h
      obtain rfl := Option.some.inj h
      exact .inr ⟨_, _, _, _, _, .throwing e (.inl hstage), rfl⟩
    | fetched agent =>
      simp only [State.serve, hstage] at h
      obtain rfl := Option.some.inj h
      exact .inr ⟨_, _, _, _, _, .throwing e (.inr ⟨agent, hstage⟩), rfl⟩
    | _ => simp only [State.serve, hstage, reduceCtorEq] at h
  | pass =>
    cases hstage : q.stage <;> simp only [State.serve, hstage, reduceCtorEq] at h
    obtain rfl := Option.some.inj h
    exact .inr ⟨_, _, _, _, _, .pass hstage, rfl⟩
  | release =>
    cases hstage : q.stage with
    | releasing outcome left =>
      cases left with
      | nil => simp only [State.serve, hstage, reduceCtorEq] at h
      | cons c left =>
        simp only [State.serve, hstage] at h
        obtain rfl := Option.some.inj h
        exact .inr ⟨_, _, _, _, _, .release hstage, rfl⟩
    | _ => simp only [State.serve, hstage, reduceCtorEq] at h
  | finish =>
    cases hstage : q.stage with
    | releasing outcome left =>
      cases left with
      | nil =>
        simp only [State.serve, hstage] at h
        obtain rfl := Option.some.inj h
        exact .inr ⟨_, _, _, _, _, .finish hstage, rfl⟩
      | cons c left => simp only [State.serve, hstage, reduceCtorEq] at h
    | _ => simp only [State.serve, hstage, reduceCtorEq] at h

theorem step_cases (h : step s e = some t) : s.exited = false ∧
    ((∃ action, e = .call action ∧ s.call action = some t) ∨
      (e.queue ≠ none ∧ (t = { s with exited := true } ∨
        ∃ k q stage agent currentQueue fulfilled results, s.queues[k]? = some q ∧
          Move s k q stage agent currentQueue fulfilled results ∧
          t = moved s k q stage agent currentQueue fulfilled results))) := by
  unfold step at h
  split at h
  · cases h
  · rename_i hexited
    refine ⟨by simpa using hexited, ?_⟩
    split at h
    · exact .inl ⟨_, rfl, h⟩
    · cases h
    · rename_i e' k hqueue
      obtain ⟨q, hq, hserve⟩ := Option.bind_eq_some_iff.mp h
      refine .inr ⟨by rw [hqueue]; exact Option.some_ne_none k, ?_⟩
      rcases serve_cases hserve with hexit | ⟨stage, agent, current, fulfilled, results, hmove, ht⟩
      · exact .inl hexit
      · exact .inr ⟨k, q, stage, agent, current, fulfilled, results, hq, hmove, ht⟩

end

/-- What holds in all states that can be reached from this object. -/
structure Inv [LinearOrder α] (agent : Agent α) (s : State α ε) : Prop where
  promises : s.nextQueueExecutionPromise = s.queues.length ∧ s.promises = s.queues.length + 1
  chain : ∀ k q, s.queues[k]? = some q → q.promiseForThisQueue = k ∧ q.promiseForNextQueue = k + 1
  fulfilled : ∀ p ∈ s.fulfilled,
    p = 0 ∨ ∃ k q, p = k + 1 ∧ s.queues[k]? = some q ∧ q.stage.passed = true
  passed : 0 ∈ s.fulfilled ∧
    ∀ k q, s.queues[k]? = some q → q.stage.passed = true → k + 1 ∈ s.fulfilled
  current : ∀ k, s.currentQueue = some k → k + 1 = s.queues.length
  listed : ∀ k q, s.queues[k]? = some q →
    (s.currentQueue = some k ↔ q.stage.isOpen = true) ∧ q.stage ≠ .notListed
  ordered : ∀ (j k : ℕ) (p q : ActionQueue α ε), j < k → s.queues[j]? = some p →
    s.queues[k]? = some q → q.stage.started = true → p.stage.passed = true
  fetched : ∀ (k : ℕ) (q : ActionQueue α ε) fetched, s.queues[k]? = some q →
    q.stage = .fetched fetched → fetched = applyBatch s.agent q.actions
  suffix : ∀ (k : ℕ) (q : ActionQueue α ε) outcome left, s.queues[k]? = some q →
    q.stage = .releasing outcome left → left <:+ q.queue
  entered : s.queues.flatMap ActionQueue.calls = s.calls
  ids : s.calls.map (·.id) = List.range s.calls.length
  applied : s.agent = s.applied.foldl applyOne agent
  given : s.results.Perm (s.queues.flatMap ActionQueue.given)

section
variable {s t : State α ε} {j k : ℕ} {p q : ActionQueue α ε} {e : Event α ε}
  {stage : Stage α ε} {start agent : Agent α} {currentQueue : Option ℕ} {fulfilled : List ℕ}
  {results : List (ℕ × Outcome ε)}

theorem ActionQueue.mem_given {id : ℕ} {outcome : Outcome ε} (h : (id, outcome) ∈ q.given) :
    q.stage.outcome = some outcome ∧ ∃ c ∈ q.calls, c.id = id := by
  unfold given at h
  split at h
  · rename_i outcome' left hstage
    obtain ⟨c, hc, hpair⟩ := List.mem_map.mp h
    obtain ⟨rfl, rfl⟩ := Prod.mk.inj hpair
    rw [hstage]
    exact ⟨rfl, c, List.mem_cons_of_mem _ (List.mem_of_mem_take hc), rfl⟩
  · rename_i outcome' hstage
    obtain ⟨c, hc, hpair⟩ := List.mem_map.mp h
    obtain ⟨rfl, rfl⟩ := Prod.mk.inj hpair
    rw [hstage]
    exact ⟨rfl, c, hc, rfl⟩
  · exact absurd h List.not_mem_nil

theorem ActionQueue.given_sublist (q : ActionQueue α ε) :
    (q.given.map (·.1)).Sublist (q.calls.map (·.id)) := by
  unfold given
  split
  · rw [List.map_map]
    exact ((List.take_sublist _ _).trans (List.sublist_cons_self _ _)).map _
  · rw [List.map_map]
    exact List.Sublist.refl _
  · exact List.nil_sublist _

theorem given_sublist (queues : List (ActionQueue α ε)) :
    ((queues.flatMap ActionQueue.given).map (·.1)).Sublist
      ((queues.flatMap ActionQueue.calls).map (·.id)) := by
  rw [List.map_flatMap, List.map_flatMap]
  exact List.Sublist.flatMap_right queues fun q _ => q.given_sublist

variable [LinearOrder α]

namespace Move

theorem passed_mono (h : Move s k q stage agent currentQueue fulfilled results)
    (hpassed : q.stage.passed = true) : stage.passed = true := by
  cases h with
  | release => rfl
  | finish => rfl
  | throwing e hstage =>
    obtain hstage | ⟨_, hstage⟩ := hstage <;> rw [hstage] at hpassed <;> cases hpassed
  | _ hstage => rw [hstage] at hpassed; cases hpassed

theorem started (h : Move s k q stage agent currentQueue fulfilled results) :
    q.stage.started = true ∨
      q.promiseForThisQueue ∈ s.fulfilled ∧ q.stage = .waiting ∧ stage = .awake := by
  cases h with
  | wake hstage hpromise => exact .inr ⟨hpromise, hstage, rfl⟩
  | throwing e hstage => obtain hstage | ⟨_, hstage⟩ := hstage <;> exact .inl (by rw [hstage]; rfl)
  | _ hstage => exact .inl (by rw [hstage]; rfl)

theorem isOpen (h : Move s k q stage agent currentQueue fulfilled results)
    (hlisted : s.currentQueue = some k ↔ q.stage.isOpen = true) :
    stage ≠ .notListed ∧ (stage.isOpen = q.stage.isOpen ∧ currentQueue = s.currentQueue ∨
      s.currentQueue = some k ∧ stage.isOpen = false ∧ currentQueue = none) := by
  cases h with
  | wake hstage => exact ⟨nofun, .inl ⟨by rw [hstage]; rfl, rfl⟩⟩
  | close hstage hcurrent => exact ⟨nofun, .inr ⟨hcurrent, rfl, rfl⟩⟩
  | notListed hstage hcurrent => exact absurd (hlisted.mpr (by rw [hstage]; rfl)) hcurrent
  | throwing e hstage =>
    obtain hstage | ⟨_, hstage⟩ := hstage <;> exact ⟨nofun, .inl ⟨by rw [hstage]; rfl, rfl⟩⟩
  | _ hstage => exact ⟨nofun, .inl ⟨by rw [hstage]; rfl, rfl⟩⟩

theorem token (h : Move s k q stage agent currentQueue fulfilled results) :
    stage.passed = q.stage.passed ∧ fulfilled = s.fulfilled ∨
      stage.passed = true ∧ fulfilled = q.promiseForNextQueue :: s.fulfilled := by
  cases h with
  | pass hstage => exact .inr ⟨rfl, rfl⟩
  | throwing e hstage =>
    obtain hstage | ⟨_, hstage⟩ := hstage <;> exact .inl ⟨by rw [hstage]; rfl, rfl⟩
  | _ hstage => exact .inl ⟨by rw [hstage]; rfl, rfl⟩

theorem object (h : Move s k q stage agent currentQueue fulfilled results) :
    stage.committed = q.stage.committed ∧ agent = s.agent ∨
      q.stage = .fetched agent ∧ stage.committed = true := by
  cases h with
  | commit hstage => exact .inr ⟨hstage, rfl⟩
  | throwing e hstage =>
    obtain hstage | ⟨_, hstage⟩ := hstage <;> exact .inl ⟨by rw [hstage]; rfl, rfl⟩
  | release hstage => exact .inl ⟨by rw [hstage]; rfl, rfl⟩
  | finish hstage => exact .inl ⟨by rw [hstage]; rfl, rfl⟩
  | pass hstage => exact .inl ⟨by rw [hstage]; rfl, rfl⟩
  | _ hstage => exact .inl ⟨by rw [hstage]; rfl, rfl⟩

theorem fetched_eq {fetched : Agent α}
    (h : Move s k q (.fetched fetched) agent currentQueue fulfilled results) :
    fetched = applyBatch s.agent q.actions ∧ agent = s.agent := by
  cases h
  exact ⟨rfl, rfl⟩

/-- The threads are released in the order of their queue, and the thread of the queue last. -/
theorem given (h : Move s k q stage agent currentQueue fulfilled results)
    (hsuffix : ∀ outcome left, q.stage = .releasing outcome left → left <:+ q.queue) :
    (∀ outcome left, stage = .releasing outcome left → left <:+ q.queue) ∧
      ∃ new, results = new ++ s.results ∧
        ({ q with stage := stage } : ActionQueue α ε).given.Perm (new ++ q.given) := by
  cases h with
  | release hstage =>
    rename_i outcome c left
    obtain ⟨released, hqueue⟩ := hsuffix _ _ hstage
    refine ⟨fun outcome' left' h => ?_, [(c.id, outcome)], rfl, ?_⟩
    · obtain ⟨rfl, rfl⟩ := Stage.releasing.inj h
      exact ⟨released ++ [c], by rw [← hqueue, List.append_assoc]; rfl⟩
    · have hbefore : q.given = released.map fun c => (c.id, outcome) := by
        simp [ActionQueue.given, hstage, ← hqueue]
      have hafter : ({ q with stage := .releasing outcome left } : ActionQueue α ε).given =
          (released ++ [c]).map fun c => (c.id, outcome) := by
        have hlength : (released ++ c :: left).length - left.length = (released ++ [c]).length := by
          simp only [List.length_append, List.length_cons, List.length_nil]
          omega
        have hqueue' : released ++ c :: left = released ++ [c] ++ left := by simp
        simp only [ActionQueue.given, ← hqueue, hlength]
        rw [hqueue', List.take_left']
        rfl
      rw [hbefore, hafter, List.map_append]
      exact List.perm_append_comm
  | finish hstage =>
    rename_i outcome
    refine ⟨nofun, [(q.action.id, outcome)], rfl, ?_⟩
    simp [ActionQueue.given, hstage, ActionQueue.calls]
  | pass hstage =>
    refine ⟨fun outcome left h => ?_, [], rfl, ?_⟩
    · obtain ⟨-, rfl⟩ := Stage.releasing.inj h
      exact List.suffix_refl _
    · simp [ActionQueue.given, hstage]
  | throwing e hstage =>
    refine ⟨nofun, [], rfl, ?_⟩
    obtain hstage | ⟨_, hstage⟩ := hstage <;> simp [ActionQueue.given, hstage]
  | _ hstage =>
    refine ⟨nofun, [], rfl, ?_⟩
    simp [ActionQueue.given, hstage]

theorem work (h : Move s k q stage agent currentQueue fulfilled results) :
    ({ q with stage := stage } : ActionQueue α ε).work < q.work := by
  cases h with
  | throwing e hstage =>
    obtain hstage | ⟨_, hstage⟩ := hstage <;> simp [ActionQueue.work, hstage]
  | _ hstage => simp [ActionQueue.work, hstage]

end Move

theorem Inv.eq_of_active (hs : Inv start s) (hj : s.queues[j]? = some p)
    (hk : s.queues[k]? = some q) (hp : p.stage.started = true ∧ p.stage.passed = false)
    (hq : q.stage.started = true ∧ q.stage.passed = false) : j = k := by
  rcases lt_trichotomy j k with hlt | heq | hlt
  · exact absurd (hs.ordered j k p q hlt hj hk hq.1) (by simp [hp.2])
  · exact heq
  · exact absurd (hs.ordered k j q p hlt hk hj hp.1) (by simp [hq.2])

theorem Inv.passed_of_promise (hs : Inv start s) (hk : s.queues[k]? = some q)
    (hpromise : q.promiseForThisQueue ∈ s.fulfilled) (hjk : j < k)
    (hj : s.queues[j]? = some p) : p.stage.passed = true := by
  rw [(hs.chain k q hk).1] at hpromise
  obtain hzero | ⟨i, q', hi, hq', hpassed⟩ := hs.fulfilled k hpromise
  · omega
  · by_cases hji : j = i
    · rw [hji, hq'] at hj
      exact Option.some.inj hj ▸ hpassed
    · exact hs.ordered j i p q' (by omega) hj hq' (Stage.started_of_passed hpassed)

section
variable (hs : Inv start s) (hk : s.queues[k]? = some q)
  (h : Move s k q stage agent currentQueue fulfilled results)
include hs hk h

theorem Inv.moved_fulfilled :
    (∀ p ∈ fulfilled, p = 0 ∨ ∃ j q', p = j + 1 ∧
      (s.queues.set k { q with stage := stage })[j]? = some q' ∧ q'.stage.passed = true) ∧
    0 ∈ fulfilled ∧ ∀ j q', (s.queues.set k { q with stage := stage })[j]? = some q' →
      q'.stage.passed = true → j + 1 ∈ fulfilled := by
  have hset : (s.queues.set k { q with stage := stage })[k]? = some { q with stage := stage } :=
    List.getElem?_set_self (List.getElem?_eq_some_iff.mp hk).1
  have hold : ∀ p ∈ s.fulfilled, p = 0 ∨ ∃ j q', p = j + 1 ∧
      (s.queues.set k { q with stage := stage })[j]? = some q' ∧ q'.stage.passed = true := by
    intro p hp
    refine (hs.fulfilled p hp).imp_right ?_
    rintro ⟨j, q', hpj, hj, hpassed⟩
    obtain ⟨q'', hj', ⟨rfl, rfl, rfl⟩ | ⟨-, rfl⟩⟩ :=
      exists_getElem?_set hk hj { q with stage := stage }
    · exact ⟨j, _, hpj, hj', h.passed_mono hpassed⟩
    · exact ⟨j, q'', hpj, hj', hpassed⟩
  have hchain := (hs.chain k q hk).2
  obtain ⟨hsame, rfl⟩ | ⟨hpassed, rfl⟩ := h.token
  · refine ⟨hold, hs.passed.1, fun j q' hj hpassed => ?_⟩
    obtain ⟨rfl, rfl⟩ | ⟨-, hj⟩ := getElem?_set_cases hj
    · exact hs.passed.2 j q hk (hsame ▸ hpassed)
    · exact hs.passed.2 j q' hj hpassed
  · refine ⟨fun p hp => ?_, List.mem_cons_of_mem _ hs.passed.1, fun j q' hj hpassed' => ?_⟩
    · rcases List.mem_cons.mp hp with rfl | hp
      · exact .inr ⟨k, _, hchain, hset, hpassed⟩
      · exact hold p hp
    · obtain ⟨rfl, rfl⟩ | ⟨-, hj⟩ := getElem?_set_cases hj
      · exact hchain ▸ List.mem_cons_self
      · exact List.mem_cons_of_mem _ (hs.passed.2 j q' hj hpassed')

theorem Inv.moved_listed (j : ℕ) (q' : ActionQueue α ε)
    (hj : (s.queues.set k { q with stage := stage })[j]? = some q') :
    (currentQueue = some j ↔ q'.stage.isOpen = true) ∧ q'.stage ≠ .notListed := by
  obtain ⟨hlisted, hsame | ⟨hcurrent, hclosed, rfl⟩⟩ := h.isOpen (hs.listed k q hk).1
  · obtain ⟨rfl, rfl⟩ | ⟨-, hj⟩ := getElem?_set_cases hj
    · exact ⟨by rw [hsame.1, hsame.2]; exact (hs.listed j q hk).1, hlisted⟩
    · rw [hsame.2]
      exact hs.listed j q' hj
  · obtain ⟨rfl, rfl⟩ | ⟨hjk, hj⟩ := getElem?_set_cases hj
    · exact ⟨by simp [hclosed], hlisted⟩
    · obtain ⟨hopen, hlisted'⟩ := hs.listed j q' hj
      refine ⟨⟨nofun, fun h => ?_⟩, hlisted'⟩
      exact absurd (Option.some.inj (hcurrent.symm.trans (hopen.mpr h))) fun h => hjk h.symm

theorem Inv.moved_ordered (i j : ℕ) (p q' : ActionQueue α ε) (hij : i < j)
    (hi : (s.queues.set k { q with stage := stage })[i]? = some p)
    (hj : (s.queues.set k { q with stage := stage })[j]? = some q')
    (hstarted : q'.stage.started = true) : p.stage.passed = true := by
  obtain ⟨rfl, rfl⟩ | ⟨-, hj'⟩ := getElem?_set_cases hj
  · obtain ⟨rfl, -⟩ | ⟨-, hi⟩ := getElem?_set_cases hi
    · exact absurd hij (lt_irrefl _)
    · rcases h.started with hq | ⟨hpromise, -, -⟩
      · exact hs.ordered i j p q hij hi hk hq
      · exact hs.passed_of_promise hk hpromise hij hi
  · obtain ⟨rfl, rfl⟩ | ⟨-, hi⟩ := getElem?_set_cases hi
    · exact h.passed_mono (hs.ordered i j q q' hij hk hj' hstarted)
    · exact hs.ordered i j p q' hij hi hj' hstarted

theorem Inv.moved_fetched (j : ℕ) (q' : ActionQueue α ε) (fetched : Agent α)
    (hj : (s.queues.set k { q with stage := stage })[j]? = some q')
    (hfetched : q'.stage = .fetched fetched) : fetched = applyBatch agent q'.actions := by
  obtain ⟨rfl, rfl⟩ | ⟨hjk, hj⟩ := getElem?_set_cases hj
  · obtain rfl : stage = .fetched fetched := hfetched
    obtain ⟨hcopy, rfl⟩ := h.fetched_eq
    exact hcopy
  · obtain ⟨-, rfl⟩ | ⟨hstage, -⟩ := h.object
    · exact hs.fetched j q' fetched hj hfetched
    · exact absurd (hs.eq_of_active hj hk (by rw [hfetched]; exact ⟨rfl, rfl⟩)
        (by rw [hstage]; exact ⟨rfl, rfl⟩)) hjk

theorem Inv.moved_applied :
    agent = (moved s k q stage agent currentQueue fulfilled results).applied.foldl
      applyOne start := by
  obtain ⟨before, behind, hqueues, hlength, hset⟩ := split_at hk
  have hsplit (q' : ActionQueue α ε) :
      ((before ++ q' :: behind).filter fun q => q.stage.committed).flatMap ActionQueue.actions =
        (before.filter fun q => q.stage.committed).flatMap ActionQueue.actions ++
          ((if q'.stage.committed then q'.actions else []) ++
            (behind.filter fun q => q.stage.committed).flatMap ActionQueue.actions) := by
    rw [List.filter_append, List.flatMap_append, List.filter_cons]
    split <;> rfl
  have hagent := hs.applied
  rw [State.applied, hqueues, hsplit] at hagent
  have happlied : (moved s k q stage agent currentQueue fulfilled results).applied =
      ((before ++ { q with stage := stage } :: behind).filter
        fun q => q.stage.committed).flatMap ActionQueue.actions := by
    rw [← hset]
    rfl
  rw [happlied, hsplit]
  obtain ⟨hsame, rfl⟩ | ⟨hstage, hcommitted⟩ := h.object
  · rw [hsame]
    exact hagent
  · have hbehind : behind.filter (fun q => q.stage.committed) = [] := by
      rw [List.filter_eq_nil_iff]
      intro p hp hcommitted'
      obtain ⟨i, hi⟩ := List.mem_iff_getElem?.mp hp
      have hj : s.queues[k + 1 + i]? = some p := by
        rw [hqueues, List.getElem?_append_right (by omega), hlength]
        have hindex : k + 1 + i - k = i + 1 := by omega
        rwa [hindex, List.getElem?_cons_succ]
      have hpassed := hs.ordered k (k + 1 + i) q p (by omega) hk hj
        (Stage.started_of_committed hcommitted')
      rw [hstage] at hpassed
      cases hpassed
    have hq : q.stage.committed = false := by rw [hstage]; rfl
    rw [hbehind, hq, if_neg (by decide), List.flatMap_nil, List.append_nil, List.append_nil]
      at hagent
    rw [hbehind, if_pos hcommitted, List.flatMap_nil, List.append_nil, List.foldl_append,
      ← hagent, ← applyBatch_eq_foldl]
    exact hs.fetched k q agent hk hstage

theorem Inv.moved_given :
    results.Perm ((s.queues.set k { q with stage := stage }).flatMap ActionQueue.given) := by
  obtain ⟨-, new, rfl, hperm⟩ := h.given fun outcome left => hs.suffix k q outcome left hk
  exact (hs.given.append_left new).trans (perm_flatMap_set hk hperm).symm

theorem Inv.moved : Inv start (moved s k q stage agent currentQueue fulfilled results) := by
  have hlength : (s.queues.set k { q with stage := stage }).length = s.queues.length :=
    List.length_set
  obtain ⟨hfulfilled, hpassed⟩ := hs.moved_fulfilled hk h
  refine {
    promises := by
      change _ = (s.queues.set k _).length ∧ _ = (s.queues.set k _).length + 1
      rw [hlength]
      exact hs.promises
    chain := fun j q' hj => ?_
    fulfilled := hfulfilled
    passed := hpassed
    current := fun j hj => ?_
    listed := hs.moved_listed hk h
    ordered := hs.moved_ordered hk h
    fetched := hs.moved_fetched hk h
    suffix := fun j q' outcome left hj hstage => ?_
    entered := ?_
    ids := hs.ids
    applied := hs.moved_applied hk h
    given := hs.moved_given hk h }
  · obtain ⟨rfl, rfl⟩ | ⟨-, hj⟩ := getElem?_set_cases hj
    · exact hs.chain j q hk
    · exact hs.chain j q' hj
  · change j + 1 = (s.queues.set k _).length
    rw [hlength]
    obtain ⟨-, ⟨-, hsame⟩ | ⟨-, -, hnone⟩⟩ := h.isOpen (hs.listed k q hk).1
    · exact hs.current j (hsame ▸ hj)
    · exact absurd (hnone.symm.trans hj) (by simp)
  · obtain ⟨rfl, rfl⟩ | ⟨-, hj⟩ := getElem?_set_cases hj
    · exact (h.given fun outcome left => hs.suffix j q outcome left hk).1 outcome left hstage
    · exact hs.suffix j q' outcome left hj hstage
  · have hcalls : ({ q with stage := stage } : ActionQueue α ε).calls = q.calls := rfl
    exact (flatMap_set hk hcalls).trans hs.entered

end

/-- A queue that takes actions is the last one, and nobody has started on it. -/
theorem Inv.isOpen_last (hs : Inv start s) (hk : s.queues[k]? = some q)
    (hcurrent : s.currentQueue = some k) : q.stage = .waiting ∨ q.stage = .awake := by
  have hopen := (hs.listed k q hk).1.mp hcurrent
  cases hstage : q.stage <;> rw [hstage] at hopen
  case waiting => exact .inl rfl
  case awake => exact .inr rfl
  all_goals cases hopen

theorem Inv.join (hs : Inv start s) (hk : s.queues[k]? = some q)
    (hcurrent : s.currentQueue = some k) (action : Action α) :
    Inv start { s with
      queues := s.queues.set k { q with queue := q.queue ++ [⟨s.calls.length, action⟩] }
      calls := s.calls ++ [⟨s.calls.length, action⟩] } := by
  obtain ⟨before, behind, hqueues, hbefore, hset⟩ := split_at hk
  have hlength : (s.queues.set k { q with queue := q.queue ++ [⟨s.calls.length, action⟩] }).length =
      s.queues.length := List.length_set
  have hlast := hs.current k hcurrent
  have hbehind : behind = [] := by
    rw [hqueues, List.length_append, List.length_cons] at hlast
    exact List.eq_nil_of_length_eq_zero (by omega)
  have hstage := hs.isOpen_last hk hcurrent
  have hgiven (q' : ActionQueue α ε) (hq' : q'.stage = q.stage) : q'.given = [] := by
    rw [ActionQueue.given, hq']
    obtain hstage | hstage := hstage <;> rw [hstage]
  have hcommitted : q.stage.committed = false := by
    obtain hstage | hstage := hstage <;> rw [hstage] <;> rfl
  subst hbehind
  refine {
    promises := by rw [hlength]; exact hs.promises
    chain := fun j q' hj => ?_
    fulfilled := fun p hp => (hs.fulfilled p hp).imp_right ?_
    passed := ⟨hs.passed.1, fun j q' hj hpassed => ?_⟩
    current := fun j hj => by rw [hlength]; exact hs.current j hj
    listed := fun j q' hj => ?_
    ordered := fun i j p q' hij hi hj hstarted => ?_
    fetched := fun j q' fetched hj hfetched => ?_
    suffix := fun j q' outcome left hj hreleasing => ?_
    entered := ?_
    ids := ?_
    applied := ?_
    given := ?_ }
  · obtain ⟨rfl, rfl⟩ | ⟨-, hj⟩ := getElem?_set_cases hj
    · exact hs.chain j q hk
    · exact hs.chain j q' hj
  · rintro ⟨j, q', hpj, hj, hpassed⟩
    by_cases hjk : j = k
    · subst hjk
      obtain rfl := Option.some.inj (hk.symm.trans hj)
      obtain hstage | hstage := hstage <;> rw [hstage] at hpassed <;> cases hpassed
    · exact ⟨j, q', hpj, by rwa [List.getElem?_set_ne fun h => hjk h.symm], hpassed⟩
  · obtain ⟨rfl, rfl⟩ | ⟨-, hj⟩ := getElem?_set_cases hj
    · exact hs.passed.2 j q hk hpassed
    · exact hs.passed.2 j q' hj hpassed
  · obtain ⟨rfl, rfl⟩ | ⟨-, hj⟩ := getElem?_set_cases hj
    · exact hs.listed j q hk
    · exact hs.listed j q' hj
  · obtain ⟨rfl, rfl⟩ | ⟨-, hi'⟩ := getElem?_set_cases hi
    · have hend : j < s.queues.length := by
        rw [← hlength]
        exact (List.getElem?_eq_some_iff.mp hj).1
      omega
    · obtain ⟨rfl, rfl⟩ | ⟨-, hj'⟩ := getElem?_set_cases hj
      · exact hs.ordered i j p q hij hi' hk hstarted
      · exact hs.ordered i j p q' hij hi' hj' hstarted
  · obtain ⟨rfl, rfl⟩ | ⟨-, hj⟩ := getElem?_set_cases hj
    · obtain hstage | hstage := hstage <;> exact absurd (hstage.symm.trans hfetched) nofun
    · exact hs.fetched j q' fetched hj hfetched
  · obtain ⟨rfl, rfl⟩ | ⟨-, hj⟩ := getElem?_set_cases hj
    · obtain hstage | hstage := hstage <;> exact absurd (hstage.symm.trans hreleasing) nofun
    · exact hs.suffix j q' outcome left hj hreleasing
  · have hentered := hs.entered
    rw [hqueues, List.flatMap_append, List.flatMap_cons, List.flatMap_nil, List.append_nil]
      at hentered
    rw [hset, ← hentered]
    simp [ActionQueue.calls]
  · rw [List.map_append, hs.ids, List.length_append, List.length_singleton, List.range_succ]
    rfl
  · have happlied := hs.applied
    rw [State.applied, hqueues, List.filter_append, List.filter_singleton, hcommitted] at happlied
    rw [State.applied, hset, List.filter_append, List.filter_singleton]
    simpa [hcommitted] using happlied
  · have hnew := hgiven { q with queue := q.queue ++ [⟨s.calls.length, action⟩] } rfl
    rw [flatMap_set (f := ActionQueue.given) hk (hnew.trans (hgiven q rfl).symm)]
    exact hs.given

theorem Inv.create (hs : Inv start s) (hcurrent : s.currentQueue = none) (action : Action α) :
    Inv start { s with
      currentQueue := some s.queues.length
      nextQueueExecutionPromise := s.promises
      promises := s.promises + 1
      queues := s.queues ++ [{
        action := ⟨s.calls.length, action⟩, queue := []
        promiseForThisQueue := s.nextQueueExecutionPromise
        promiseForNextQueue := s.promises, stage := .waiting }]
      calls := s.calls ++ [⟨s.calls.length, action⟩] } := by
  obtain ⟨hnext, hpromises⟩ := hs.promises
  refine {
    promises := by rw [List.length_append, List.length_singleton, hpromises]; exact ⟨rfl, rfl⟩
    chain := fun j q' hj => ?_
    fulfilled := fun p hp => (hs.fulfilled p hp).imp_right ?_
    passed := ⟨hs.passed.1, fun j q' hj hpassed => ?_⟩
    current := fun j hj => ?_
    listed := fun j q' hj => ?_
    ordered := fun i j p q' hij hi hj hstarted => ?_
    fetched := fun j q' fetched hj hfetched => ?_
    suffix := fun j q' outcome left hj hreleasing => ?_
    entered := ?_
    ids := ?_
    applied := ?_
    given := ?_ }
  · obtain ⟨rfl, rfl⟩ | ⟨-, hj⟩ := getElem?_concat_cases hj
    · exact ⟨hnext, hpromises⟩
    · exact hs.chain j q' hj
  · rintro ⟨j, q', hpj, hj, hpassed⟩
    exact ⟨j, q', hpj, getElem?_concat hj _, hpassed⟩
  · obtain ⟨rfl, rfl⟩ | ⟨-, hj⟩ := getElem?_concat_cases hj
    · cases hpassed
    · exact hs.passed.2 j q' hj hpassed
  · rw [← Option.some.inj hj, List.length_append, List.length_singleton]
  · obtain ⟨rfl, rfl⟩ | ⟨hlt, hj⟩ := getElem?_concat_cases hj
    · exact ⟨⟨fun _ => rfl, fun _ => rfl⟩, nofun⟩
    · obtain ⟨hopen, hlisted⟩ := hs.listed j q' hj
      rw [hcurrent] at hopen
      refine ⟨⟨fun h => ?_, fun h => ?_⟩, hlisted⟩
      · exact absurd (Option.some.inj h) hlt.ne'
      · exact absurd (hopen.mpr h) nofun
  · obtain ⟨rfl, rfl⟩ | ⟨hlt, hj⟩ := getElem?_concat_cases hj
    · cases hstarted
    · obtain ⟨rfl, -⟩ | ⟨-, hi⟩ := getElem?_concat_cases hi
      · omega
      · exact hs.ordered i j p q' hij hi hj hstarted
  · obtain ⟨rfl, rfl⟩ | ⟨-, hj⟩ := getElem?_concat_cases hj
    · cases hfetched
    · exact hs.fetched j q' fetched hj hfetched
  · obtain ⟨rfl, rfl⟩ | ⟨-, hj⟩ := getElem?_concat_cases hj
    · cases hreleasing
    · exact hs.suffix j q' outcome left hj hreleasing
  · rw [List.flatMap_append, hs.entered]
    rfl
  · rw [List.map_append, hs.ids, List.length_append, List.length_singleton, List.range_succ]
    rfl
  · rw [State.applied, List.filter_append, List.flatMap_append]
    exact (List.append_nil s.applied).symm ▸ hs.applied
  · rw [List.flatMap_append]
    exact (List.append_nil (s.queues.flatMap ActionQueue.given)).symm ▸ hs.given

theorem Inv.exit (hs : Inv start s) : Inv start { s with exited := true } :=
  { hs with }

theorem Inv.call (hs : Inv start s) {action : Action α} (h : s.call action = some t) :
    Inv start t := by
  unfold State.call at h
  split at h
  · rename_i k hcurrent
    obtain ⟨q, hk, rfl⟩ := Option.map_eq_some_iff.mp h
    exact hs.join hk hcurrent action
  · rename_i hcurrent
    obtain rfl := Option.some.inj h
    exact hs.create hcurrent action

theorem Inv.step (hs : Inv start s) (h : step s e = some t) : Inv start t := by
  obtain ⟨-, ⟨action, -, hcall⟩ | ⟨-, rfl | ⟨k, q, _, _, _, _, _, hk, hmove, rfl⟩⟩⟩ := step_cases h
  · exact hs.call hcall
  · exact hs.exit
  · exact hs.moved hk hmove

theorem inv_start (agent : Agent α) : Inv agent (AgentReference.start agent : State α ε) where
  promises := ⟨rfl, rfl⟩
  chain := nofun
  fulfilled := fun _ hp => .inl (List.mem_singleton.mp hp)
  passed := ⟨List.mem_singleton.mpr rfl, nofun⟩
  current := nofun
  listed := nofun
  ordered := fun _ _ _ _ _ hj => nomatch hj
  fetched := fun _ _ _ hk => nomatch hk
  suffix := fun _ _ _ _ hk => nomatch hk
  entered := rfl
  ids := rfl
  applied := rfl
  given := .nil

theorem Inv.run (hs : Inv start s) {events : List (Event α ε)} (h : run s events = some t) :
    Inv start t := by
  induction events generalizing s with
  | nil => exact Option.some.inj h ▸ hs
  | cons e events ih =>
    obtain ⟨s', hstep, hrun⟩ := Option.bind_eq_some_iff.mp h
    exact ih (hs.step hstep) hrun

/-- A thread that has not returned can do its next step, if those before it have. -/
theorem Inv.exists_serve (hs : Inv start s) (hk : s.queues[k]? = some q)
    (hbefore : ∀ j p, j < k → s.queues[j]? = some p → ∃ outcome, p.stage = .returned outcome)
    (hnot : ∀ outcome, q.stage ≠ .returned outcome) :
    ∃ e : Event α ε, e.queue = some k ∧ ∃ t, s.serve k q e = some t := by
  cases hstage : q.stage with
  | waiting =>
    have hpromise : q.promiseForThisQueue ∈ s.fulfilled := by
      rw [(hs.chain k q hk).1]
      cases k with
      | zero => exact hs.passed.1
      | succ k =>
        have hlt : k < s.queues.length := (List.getElem?_eq_some_iff.mp hk).1.trans' k.lt_succ_self
        obtain ⟨outcome, hreturned⟩ :=
          hbefore k s.queues[k] k.lt_succ_self (List.getElem?_eq_getElem hlt)
        exact hs.passed.2 k _ (List.getElem?_eq_getElem hlt) (by rw [hreturned]; rfl)
    exact ⟨.wake k, rfl, _, by simp only [State.serve, hstage, if_pos hpromise]; rfl⟩
  | awake =>
    have hcurrent := (hs.listed k q hk).1.mpr (by rw [hstage]; rfl)
    exact ⟨.close k, rfl, _, by simp only [State.serve, hstage, if_pos hcurrent]; rfl⟩
  | notListed => exact absurd hstage (hs.listed k q hk).2
  | closed => exact ⟨.fetch k, rfl, _, by simp only [State.serve, hstage]; rfl⟩
  | fetched => exact ⟨.commit k, rfl, _, by simp only [State.serve, hstage]; rfl⟩
  | ended => exact ⟨.pass k, rfl, _, by simp only [State.serve, hstage]; rfl⟩
  | releasing outcome left =>
    cases left with
    | nil => exact ⟨.finish k, rfl, _, by simp only [State.serve, hstage]; rfl⟩
    | cons => exact ⟨.release k, rfl, _, by simp only [State.serve, hstage]; rfl⟩
  | returned outcome => exact absurd hstage (hnot outcome)

theorem Inv.exists_step (hs : Inv start s) (hexited : s.exited = false)
    (hk : s.queues[k]? = some q) (hnot : ∀ outcome, q.stage ≠ .returned outcome) :
    ∃ e : Event α ε, e.queue ≠ none ∧ ∃ t, AgentReference.step s e = some t := by
  induction k using Nat.strong_induction_on generalizing q with
  | _ k ih =>
    by_cases hbefore : ∀ j p, j < k → s.queues[j]? = some p → ∃ outcome, p.stage = .returned outcome
    · obtain ⟨e, hqueue, t, hserve⟩ := hs.exists_serve hk hbefore hnot
      refine ⟨e, by rw [hqueue]; exact Option.some_ne_none k, t, ?_⟩
      simp only [AgentReference.step, hexited, hqueue]
      rw [if_neg (by decide), hk]
      exact hserve
    · push Not at hbefore
      obtain ⟨j, p, hjk, hj, hp⟩ := hbefore
      exact ih j hjk hj hp

theorem Inv.nodup (hs : Inv start s) : (s.calls.map (·.id)).Nodup :=
  hs.ids ▸ List.nodup_range

theorem Inv.released (hs : Inv start s) {c : Call α} (hc : c ∈ s.calls) {outcome : Outcome ε}
    (h : (c.id, outcome) ∈ s.results) :
    ∃ q ∈ s.queues, c ∈ q.calls ∧ q.stage.outcome = some outcome := by
  obtain ⟨q, hq, hgiven⟩ := List.mem_flatMap.mp (hs.given.mem_iff.mp h)
  obtain ⟨houtcome, c', hc', hid⟩ := ActionQueue.mem_given hgiven
  have hmem : c' ∈ s.calls := hs.entered ▸ List.mem_flatMap.mpr ⟨q, hq, hc'⟩
  obtain rfl := List.inj_on_of_nodup_map hs.nodup hmem hc hid
  exact ⟨q, hq, hc', houtcome⟩

theorem Inv.progress (hs : Inv start s) (hexited : s.exited = false) {c : Call α}
    (hc : c ∈ s.calls) (hwaits : c.id ∉ s.results.map (·.1)) :
    ∃ e : Event α ε, e.queue ≠ none ∧ ∃ t, AgentReference.step s e = some t := by
  rw [← hs.entered] at hc
  obtain ⟨q, hq, hcq⟩ := List.mem_flatMap.mp hc
  obtain ⟨k, hk⟩ := List.mem_iff_getElem?.mp hq
  refine hs.exists_step hexited hk fun outcome hreturned => hwaits ?_
  have hgiven : (c.id, outcome) ∈ q.given := by
    rw [ActionQueue.given, hreturned]
    exact List.mem_map_of_mem hcq
  exact List.mem_map.mpr ⟨_, hs.given.mem_iff.mpr (List.mem_flatMap.mpr ⟨q, hq, hgiven⟩), rfl⟩

theorem step_remaining (hqueue : e.queue ≠ none) (h : step s e = some t) :
    t.remaining < s.remaining := by
  obtain ⟨hexited, ⟨action, rfl, -⟩ | ⟨-, rfl | ⟨k, q, _, _, _, _, _, hk, hmove, rfl⟩⟩⟩ :=
    step_cases h
  · exact absurd rfl hqueue
  · simp only [State.remaining, hexited]
    rw [if_pos trivial, if_neg (by decide)]
    omega
  · have hwork := sum_map_set_lt (f := ActionQueue.work) hk hmove.work
    simp only [State.remaining, moved, State.setStage, hexited]
    omega

end

end Cta.ObjectStore.AgentReference

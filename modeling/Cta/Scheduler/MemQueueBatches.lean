import Cta.Lib.Slots
import Cta.Scheduler.MemQueueSteps

/-! Each request is in one batch, and the batches of a queue come one after the other. -/
namespace Cta.Scheduler.MemQueues
open Cta.Lib.Slots
variable {ι ε : Type}

/-- The earlier queues of an index have set their promises. -/
def AllFulfilled (queues : List (MemQueue ι ε)) (n : ℕ) (i : ι) : Prop :=
  ∀ j p, j < n → queues[j]? = some p → p.queueIndex = i → p.stage.fulfilled = true

/-- The promise of the last queue of an index before a number; without one, none has to be waited
for. -/
def Chained (queues : List (MemQueue ι ε)) (n : ℕ) (i : ι) : Option ℕ → Prop
  | none => AllFulfilled queues n i
  | some m => (∃ p, m < n ∧ queues[m]? = some p ∧ p.queueIndex = i) ∧
      ∀ j p, j < n → queues[j]? = some p → p.queueIndex = i → j ≤ m

section
variable {queues queues' : List (MemQueue ι ε)} {n k : ℕ} {i : ι} {o : Option ℕ}
  {q q' : MemQueue ι ε}

theorem Chained.keep (h : Chained queues n i o)
    (hback : ∀ (j : ℕ) (p' : MemQueue ι ε), j < n → queues'[j]? = some p' →
      ∃ p, queues[j]? = some p ∧ p'.queueIndex = p.queueIndex ∧
        (p.stage.fulfilled = true → p'.stage.fulfilled = true))
    (hfound : ∀ (j : ℕ) (p : MemQueue ι ε), queues[j]? = some p →
      ∃ p', queues'[j]? = some p' ∧ p'.queueIndex = p.queueIndex) :
    Chained queues' n i o := by
  cases o with
  | none =>
    intro j p' hj hp' hi
    obtain ⟨p, hp, hindex, hmono⟩ := hback j p' hj hp'
    exact hmono (h j p hj hp (hindex ▸ hi))
  | some m =>
    obtain ⟨⟨p, hm, hp, hi⟩, hlast⟩ := h
    obtain ⟨p', hp', hindex⟩ := hfound m p hp
    refine ⟨⟨p', hm, hp', hindex.trans hi⟩, fun j p'' hj hp'' hi' => ?_⟩
    obtain ⟨p, hp, hindex, -⟩ := hback j p'' hj hp''
    exact hlast j p hj hp (hindex ▸ hi')

theorem Chained.set (h : Chained queues n i o) (hk : queues[k]? = some q)
    (hindex : q'.queueIndex = q.queueIndex)
    (hmono : q.stage.fulfilled = true → q'.stage.fulfilled = true) :
    Chained (queues.set k q') n i o := by
  refine h.keep (fun j p' _ hp' => ?_) fun j p hp => ?_
  · obtain ⟨rfl, rfl⟩ | ⟨-, hp⟩ := getElem?_set_cases hp'
    · exact ⟨q, hk, hindex, hmono⟩
    · exact ⟨p', hp, rfl, id⟩
  · obtain ⟨p', hp', ⟨-, rfl, rfl⟩ | ⟨-, rfl⟩⟩ := exists_getElem?_set hk hp q'
    · exact ⟨p', hp', hindex⟩
    · exact ⟨p', hp', rfl⟩

theorem Chained.concat (h : Chained queues n i o) (hn : n ≤ queues.length) :
    Chained (queues ++ [q']) n i o := by
  refine h.keep (fun j p' hj hp' => ?_) fun j p hp => ⟨p, getElem?_concat hp q', rfl⟩
  obtain ⟨rfl, -⟩ | ⟨-, hp⟩ := getElem?_concat_cases hp'
  · omega
  · exact ⟨p', hp, rfl, id⟩

theorem Chained.extend (h : Chained queues queues.length i o) (hi : q'.queueIndex ≠ i) :
    Chained (queues ++ [q']) (queues ++ [q']).length i o := by
  have hold : ∀ j p, (queues ++ [q'])[j]? = some p → p.queueIndex = i →
      j < queues.length ∧ queues[j]? = some p := by
    intro j p hp hindex
    obtain ⟨-, rfl⟩ | hp := getElem?_concat_cases hp
    · exact absurd hindex hi
    · exact hp
  cases o with
  | none =>
    intro j p _ hp hindex
    obtain ⟨hj, hp⟩ := hold j p hp hindex
    exact h j p hj hp hindex
  | some m =>
    obtain ⟨⟨p, hm, hp, hindex⟩, hlast⟩ := h
    refine ⟨⟨p, ?_, getElem?_concat hp q', hindex⟩, fun j p' _ hp' hindex' => ?_⟩
    · rw [List.length_append]
      omega
    · obtain ⟨hj, hp'⟩ := hold j p' hp' hindex'
      exact hlast j p' hj hp' hindex'

end

structure Inv (s : State ι ε) : Prop where
  listed : ∀ k q, s.queues[k]? = some q →
    (s.g_queues q.queueIndex = some k ↔ q.stage.isOpen = true)
  made : ∀ i k, s.g_queues i = some k → ∃ q, s.queues[k]? = some q ∧ q.queueIndex = i
  sound : ∀ q ∈ s.queues, q.Sound
  futures : s.g_futures = s.g_promises
  promises : ∀ i, Chained s.queues s.queues.length i (s.g_promises i)
  predecessor : ∀ k q, s.queues[k]? = some q →
    Chained s.queues k q.queueIndex q.futureFromPredecessor
  ordered : ∀ k q, s.queues[k]? = some q → q.stage.started = true →
    AllFulfilled s.queues k q.queueIndex
  entered : (s.queues.flatMap MemQueue.calls).Perm s.calls
  ids : s.calls.map (·.id) = List.range s.calls.length
  jobs : s.jobs.Perm (s.queues.flatMap MemQueue.jobs)
  given : s.results.Perm (s.queues.flatMap MemQueue.given)

section
variable {s t : State ι ε} {j k : ℕ} {p q : MemQueue ι ε} {e : Event ι ε}
  {stage : Stage ι ε} {holders : List ℕ} {g_queues : ι → Option ℕ} {trims : Bool}
  {jobs : List (MemQueueRequest ι)} {results : List (ℕ × Outcome ε)}

theorem Inv.allFulfilled_of_ready (hs : Inv s) (hk : s.queues[k]? = some q)
    (hready : s.ready q = true) : AllFulfilled s.queues k q.queueIndex := by
  have hchained := hs.predecessor k q hk
  unfold State.ready at hready
  cases hfuture : q.futureFromPredecessor with
  | none =>
    rw [hfuture] at hchained
    exact hchained
  | some m =>
    rw [hfuture] at hchained hready
    obtain ⟨⟨p, -, hp, hi⟩, hlast⟩ := hchained
    have hfulfilled : p.stage.fulfilled = true := by simpa [hp] using hready
    intro j p' hj hp' hi'
    obtain hlt | rfl := (hlast j p' hj hp' hi').lt_or_eq
    · have hstarted := Stage.started_of_fulfilled hfulfilled
      exact hs.ordered m p hp hstarted j p' hlt hp' (hi'.trans hi.symm)
    · exact Option.some.inj (hp.symm.trans hp') ▸ hfulfilled

theorem inv_start : Inv ({} : State ι ε) where
  listed := nofun
  made := nofun
  sound := nofun
  futures := rfl
  promises := fun _ _ _ hj => absurd hj (Nat.not_lt_zero _)
  predecessor := nofun
  ordered := nofun
  entered := .nil
  ids := rfl
  jobs := .nil
  given := .nil

theorem Inv.join (hs : Inv s) (hk : s.queues[k]? = some q)
    (hlist : s.g_queues q.queueIndex = some k) (c : MemQueueRequest ι)
    (hindex : c.queueIndex = q.queueIndex) (hid : c.id = s.calls.length) :
    Inv { s with
      queues := s.queues.set k { q with m_requests := q.m_requests ++ [c] }
      calls := s.calls ++ [c] } := by
  have hopen := (hs.listed k q hk).mp hlist
  have hq := hs.sound q (List.mem_of_getElem? hk)
  have hstage : q.stage = .waiting ∨ q.stage = .awake := by
    cases hstage : q.stage <;> rw [hstage] at hopen
    case waiting => exact .inl rfl
    case awake => exact .inr rfl
    all_goals cases hopen
  have hnew (p : MemQueue ι ε) (hp : p.stage = q.stage) : p.jobs = [] ∧ p.given = [] := by
    rw [MemQueue.jobs, MemQueue.given, hp]
    obtain hstage | hstage := hstage <;> rw [hstage] <;> exact ⟨rfl, rfl⟩
  obtain ⟨hjobs, hgiven⟩ := hnew { q with m_requests := q.m_requests ++ [c] } rfl
  have hcalls : ({ q with m_requests := q.m_requests ++ [c] } : MemQueue ι ε).calls.Perm
      ([c] ++ q.calls) := by
    change (q.calls ++ [c]).Perm ([c] ++ q.calls)
    exact List.perm_append_comm
  exact {
    listed := fun j p hj => by
      obtain ⟨rfl, rfl⟩ | ⟨-, hj⟩ := getElem?_set_cases hj
      · exact hs.listed j q hk
      · exact hs.listed j p hj
    made := fun i j hi => by
      obtain ⟨p, hp, hmade⟩ := hs.made i j hi
      obtain ⟨p', hp', ⟨-, rfl, rfl⟩ | ⟨-, rfl⟩⟩ :=
        exists_getElem?_set hk hp { q with m_requests := q.m_requests ++ [c] }
      · exact ⟨_, hp', hmade⟩
      · exact ⟨_, hp', hmade⟩
    sound := fun p hp => by
      obtain hp | rfl := List.mem_or_eq_of_mem_set hp
      · exact hs.sound p hp
      · refine ⟨hq.unbroken, ?_, hq.lends, fun d hd => ?_⟩
        · obtain hstage | hstage := hstage <;> simp [hstage, Stage.left]
        · obtain hd | hd := List.mem_cons.mp (hcalls.mem_iff.mp hd)
          · exact hd ▸ hindex
          · exact hq.index d hd
    futures := hs.futures
    promises := fun i => by
      rw [List.length_set]
      exact (hs.promises i).set hk rfl id
    predecessor := fun j p hj => by
      obtain ⟨rfl, rfl⟩ | ⟨-, hj⟩ := getElem?_set_cases hj
      · exact (hs.predecessor j q hk).set hk rfl id
      · exact (hs.predecessor j p hj).set hk rfl id
    ordered := fun j p hj hstarted => by
      obtain ⟨rfl, rfl⟩ | ⟨-, hj⟩ := getElem?_set_cases hj
      · exact Chained.set (o := none) (hs.ordered j q hk hstarted) hk rfl id
      · exact Chained.set (o := none) (hs.ordered j p hj hstarted) hk rfl id
    entered := (perm_flatMap_set hk hcalls).trans
      (List.perm_append_comm.trans (hs.entered.append_right [c]))
    ids := by
      rw [List.map_append, hs.ids, List.length_append, List.length_singleton, List.range_succ,
        List.map_singleton, hid]
    jobs := (flatMap_set hk (hjobs.trans (hnew q rfl).1.symm)).symm ▸ hs.jobs
    given := (flatMap_set hk (hgiven.trans (hnew q rfl).2.symm)).symm ▸ hs.given }

variable [DecidableEq ι]

section
variable (hs : Inv s) (hk : s.queues[k]? = some q)
  (h : Move s k q stage holders g_queues trims jobs results)
include hs hk h

theorem Inv.moved_listed (j : ℕ) (p : MemQueue ι ε)
    (hj : (s.queues.set k { q with stage, holders })[j]? = some p) :
    g_queues p.queueIndex = some j ↔ p.stage.isOpen = true := by
  obtain ⟨hsame, rfl⟩ | ⟨hlist, hclosed, rfl⟩ := h.isOpen (hs.listed k q hk)
  · obtain ⟨rfl, rfl⟩ | ⟨-, hj⟩ := getElem?_set_cases hj
    · exact (hs.listed j q hk).trans (by rw [hsame])
    · exact hs.listed j p hj
  · obtain ⟨rfl, rfl⟩ | ⟨hjk, hj⟩ := getElem?_set_cases hj
    · simp [hclosed]
    · rw [← hs.listed j p hj]
      by_cases hindex : p.queueIndex = q.queueIndex
      · rw [hindex, Function.update_self, hlist]
        simp [Ne.symm hjk]
      · rw [Function.update_of_ne hindex]

theorem Inv.moved_made (i : ι) (j : ℕ) (hi : g_queues i = some j) :
    ∃ p, (s.queues.set k { q with stage, holders })[j]? = some p ∧ p.queueIndex = i := by
  have hold : s.g_queues i = some j := by
    obtain ⟨-, rfl⟩ | ⟨-, -, rfl⟩ := h.isOpen (hs.listed k q hk)
    · exact hi
    · by_cases hindex : i = q.queueIndex
      · rw [hindex, Function.update_self] at hi
        cases hi
      · rwa [Function.update_of_ne hindex] at hi
  obtain ⟨p, hp, hindex⟩ := hs.made i j hold
  obtain ⟨p', hp', ⟨-, rfl, rfl⟩ | ⟨-, rfl⟩⟩ := exists_getElem?_set hk hp { q with stage, holders }
  · exact ⟨_, hp', hindex⟩
  · exact ⟨_, hp', hindex⟩

theorem Inv.moved_ordered (j : ℕ) (p : MemQueue ι ε)
    (hj : (s.queues.set k { q with stage, holders })[j]? = some p)
    (hstarted : p.stage.started = true) :
    AllFulfilled (s.queues.set k { q with stage, holders }) j p.queueIndex := by
  have hold : AllFulfilled s.queues j p.queueIndex := by
    obtain ⟨rfl, rfl⟩ | ⟨-, hj⟩ := getElem?_set_cases hj
    · obtain hq | hready := h.started hstarted
      · exact hs.ordered j q hk hq
      · have hbefore := hs.allFulfilled_of_ready hk hready
        exact hbefore
    · exact hs.ordered j p hj hstarted
  exact Chained.set (o := none) hold hk rfl h.fulfilled_mono

theorem Inv.moved_promises :
    (moved s k q stage holders g_queues trims jobs results).g_futures =
        (moved s k q stage holders g_queues trims jobs results).g_promises ∧
      ∀ i, Chained (s.queues.set k { q with stage, holders })
        (s.queues.set k { q with stage, holders }).length i
        ((moved s k q stage holders g_queues trims jobs results).g_promises i) := by
  have hkept (i : ι) : Chained (s.queues.set k { q with stage, holders })
      (s.queues.set k { q with stage, holders }).length i (s.g_promises i) := by
    rw [List.length_set]
    exact (hs.promises i).set hk rfl h.fulfilled_mono
  cases trims with
  | false => exact ⟨hs.futures, hkept⟩
  | true =>
    simp only [moved, if_true]
    unfold State.trim
    split
    · rename_i hown
      refine ⟨by rw [hs.futures], fun i => ?_⟩
      change Chained _ _ i (Function.update s.g_promises q.queueIndex none i)
      by_cases hi : i = q.queueIndex
      · obtain ⟨hstarted, hfulfilled⟩ := h.fulfilled_of_trims
        have hlast := hs.promises q.queueIndex
        rw [hown] at hlast
        rw [hi, Function.update_self, List.length_set]
        intro j p hj hp hindex
        obtain ⟨rfl, rfl⟩ | ⟨hjk, hp⟩ := getElem?_set_cases hp
        · exact hfulfilled
        · have hle := hlast.2 j p hj hp hindex
          exact hs.ordered k q hk hstarted j p (by omega) hp hindex
      · rw [Function.update_of_ne hi]
        exact hkept i
    · exact ⟨hs.futures, hkept⟩

theorem Inv.moved : Inv (moved s k q stage holders g_queues trims jobs results) := by
  have hlisted := hs.listed k q hk
  have hq := hs.sound q (List.mem_of_getElem? hk)
  obtain ⟨hfutures, hpromises⟩ := hs.moved_promises hk h
  obtain ⟨newJobs, rfl, hjobs⟩ := h.addedJobs
  obtain ⟨new, rfl, hgiven⟩ := h.given hlisted hq
  have hcalls : ({ q with stage, holders } : MemQueue ι ε).calls = q.calls := rfl
  have hsame := (moved_calls_exited (s := s) (k := k) (q := q) stage holders g_queues trims
    (s.jobs ++ newJobs) (new ++ s.results)).1
  exact {
    listed := hs.moved_listed hk h
    made := hs.moved_made hk h
    sound := fun p hp => by
      obtain hp | rfl := List.mem_or_eq_of_mem_set hp
      · exact hs.sound p hp
      · exact h.sound hlisted hq
    futures := hfutures
    promises := hpromises
    predecessor := fun j p hj => by
      obtain ⟨rfl, rfl⟩ | ⟨-, hj⟩ := getElem?_set_cases hj
      · exact (hs.predecessor j q hk).set hk rfl h.fulfilled_mono
      · exact (hs.predecessor j p hj).set hk rfl h.fulfilled_mono
    ordered := hs.moved_ordered hk h
    entered := by
      rw [hsame]
      exact (flatMap_set hk hcalls).symm ▸ hs.entered
    ids := by
      rw [hsame]
      exact hs.ids
    jobs := (List.perm_append_comm.trans (hs.jobs.append_left newJobs)).trans
      (perm_flatMap_set hk hjobs).symm
    given := (hs.given.append_left new).trans (perm_flatMap_set hk hgiven).symm }

end

theorem sharedAddToNewQueue_eq (hfutures : s.g_futures = s.g_promises) {c : MemQueueRequest ι}
    (hnone : s.g_queues c.queueIndex = none) : s.sharedAddToNewQueue c = { s with
      g_queues := Function.update s.g_queues c.queueIndex (some s.queues.length)
      g_promises := Function.update s.g_promises c.queueIndex (some s.queues.length)
      g_futures := Function.update s.g_futures c.queueIndex (some s.queues.length)
      queues := s.queues ++ [⟨c.queueIndex, c, [], s.g_promises c.queueIndex, .waiting, []⟩]
      calls := s.calls ++ [c] } := by
  have hfuture : s.g_futures c.queueIndex = s.g_promises c.queueIndex := by rw [hfutures]
  unfold State.sharedAddToNewQueue
  simp only [hnone, hfuture, Option.isSome_none, Bool.false_eq_true, if_false]
  cases s.g_promises c.queueIndex with
  | none => rfl
  | some predecessor => rfl

theorem Inv.create (hs : Inv s) (c : MemQueueRequest ι) (hnone : s.g_queues c.queueIndex = none)
    (hid : c.id = s.calls.length) : Inv (s.sharedAddToNewQueue c) := by
  rw [sharedAddToNewQueue_eq hs.futures hnone]
  exact {
    listed := fun j p hj => by
      obtain ⟨rfl, rfl⟩ | ⟨hlt, hj⟩ := getElem?_concat_cases hj
      · exact ⟨fun _ => rfl, fun _ => Function.update_self ..⟩
      · dsimp only
        rw [← hs.listed j p hj]
        by_cases hindex : p.queueIndex = c.queueIndex
        · rw [hindex, Function.update_self, hnone]
          simp [hlt.ne']
        · rw [Function.update_of_ne hindex]
    made := fun i j hi => by
      dsimp only at hi
      by_cases hindex : i = c.queueIndex
      · rw [hindex, Function.update_self] at hi
        obtain rfl := Option.some.inj hi
        exact ⟨_, List.getElem?_concat_length, hindex.symm⟩
      · rw [Function.update_of_ne hindex] at hi
        obtain ⟨p, hp, hmade⟩ := hs.made i j hi
        exact ⟨p, getElem?_concat hp _, hmade⟩
    sound := fun p hp => by
      obtain hp | hp := List.mem_append.mp hp
      · exact hs.sound p hp
      · obtain rfl := List.mem_singleton.mp hp
        exact ⟨nofun, List.nil_suffix, fun hne => absurd rfl hne,
          fun d hd => List.mem_singleton.mp hd ▸ rfl⟩
    futures := by rw [hs.futures]
    promises := fun i => by
      dsimp only
      by_cases hindex : i = c.queueIndex
      · rw [hindex, Function.update_self]
        refine ⟨⟨_, by simp, List.getElem?_concat_length, rfl⟩, fun j p hj _ _ => ?_⟩
        rw [List.length_append, List.length_singleton] at hj
        omega
      · rw [Function.update_of_ne hindex]
        exact (hs.promises i).extend fun h => hindex h.symm
    predecessor := fun j p hj => by
      obtain ⟨rfl, rfl⟩ | ⟨hlt, hj⟩ := getElem?_concat_cases hj
      · exact (hs.promises c.queueIndex).concat le_rfl
      · exact (hs.predecessor j p hj).concat hlt.le
    ordered := fun j p hj hstarted => by
      obtain ⟨rfl, rfl⟩ | ⟨hlt, hj⟩ := getElem?_concat_cases hj
      · cases hstarted
      · exact Chained.concat (o := none) (hs.ordered j p hj hstarted) hlt.le
    entered := by
      rw [List.flatMap_append]
      exact hs.entered.append_right [c]
    ids := by
      rw [List.map_append, hs.ids, List.length_append, List.length_singleton, List.range_succ,
        List.map_singleton, hid]
    jobs := by
      rw [List.flatMap_append]
      exact (List.append_nil (s.queues.flatMap MemQueue.jobs)).symm ▸ hs.jobs
    given := by
      rw [List.flatMap_append]
      exact (List.append_nil (s.queues.flatMap MemQueue.given)).symm ▸ hs.given }

theorem Inv.call (hs : Inv s) {queueIndex : ι} (h : s.sharedAddToQueue queueIndex = some t) :
    Inv t := by
  unfold State.sharedAddToQueue at h
  split at h
  · rename_i hnone
    obtain rfl := Option.some.inj h
    exact hs.create ⟨s.calls.length, queueIndex⟩ hnone rfl
  · rename_i k hlist
    obtain ⟨q, hk, rfl⟩ := Option.map_eq_some_iff.mp h
    obtain ⟨q', hk', rfl⟩ := hs.made queueIndex k hlist
    obtain rfl := Option.some.inj (hk.symm.trans hk')
    exact hs.join hk hlist ⟨s.calls.length, q.queueIndex⟩ rfl rfl

theorem Inv.step (hs : Inv s) (h : step s e = some t) : Inv t := by
  obtain ⟨-, ⟨queueIndex, -, hcall⟩ |
    ⟨-, rfl | ⟨k, q, _, _, _, _, _, _, hk, hmove, rfl⟩⟩⟩ := step_cases h
  · exact hs.call hcall
  · exact { hs with }
  · exact hs.moved hk hmove

theorem Inv.run (hs : Inv s) {events : List (Event ι ε)} (h : run s events = some t) : Inv t := by
  induction events generalizing s with
  | nil => exact Option.some.inj h ▸ hs
  | cons e events ih =>
    obtain ⟨s', hstep, hrun⟩ := Option.bind_eq_some_iff.mp h
    exact ih (hs.step hstep) hrun

theorem step_of_serve (hexited : s.exited = false) (hk : s.queues[k]? = some q)
    (hqueue : e.queue = some k) (h : s.serve k q e = some t) :
    ∃ e : Event ι ε, e.queue ≠ none ∧ ∃ t, MemQueues.step s e = some t := by
  refine ⟨e, by rw [hqueue]; exact Option.some_ne_none k, t, ?_⟩
  simp only [MemQueues.step, hexited, hqueue]
  rw [if_neg (by decide), hk]
  exact h

/-- A thread can go on unless it waits for an earlier one, or for callers with references. -/
theorem Inv.exists_step (hs : Inv s) (hexited : s.exited = false) (hk : s.queues[k]? = some q)
    (hnot : q.stage.final = false) :
    ∃ e : Event ι ε, e.queue ≠ none ∧ ∃ t, MemQueues.step s e = some t := by
  induction k using Nat.strong_induction_on generalizing q with
  | _ k ih =>
    cases hstage : q.stage with
    | waiting =>
      by_cases hready : s.ready q = true
      · exact step_of_serve hexited hk (e := .wake k) rfl
          (by simp only [State.serve, hstage, hready]; rfl)
      · have hchained := hs.predecessor k q hk
        unfold State.ready at hready
        cases hfuture : q.futureFromPredecessor with
        | none => rw [hfuture] at hready; exact absurd rfl hready
        | some m =>
          rw [hfuture] at hchained hready
          obtain ⟨⟨p, hm, hp, -⟩, -⟩ := hchained
          refine ih m hm hp ?_
          cases hlast : p.stage with
          | finished | threw => exact absurd (by simp [hp, hlast, Stage.fulfilled]) hready
          | broken message => exact absurd hlast ((hs.sound p (List.mem_of_getElem? hp)).unbroken _)
          | _ => rfl
    | awake =>
      exact step_of_serve hexited hk (e := .close k) rfl (by simp only [State.serve, hstage]; rfl)
    | broken message => exact absurd hstage ((hs.sound q (List.mem_of_getElem? hk)).unbroken _)
    | adding reached =>
      cases reached with
      | unlocked =>
        exact step_of_serve hexited hk (e := .lock k) rfl (by simp only [State.serve, hstage]; rfl)
      | locked =>
        exact step_of_serve hexited hk (e := .add k) rfl (by simp only [State.serve, hstage]; rfl)
      | added =>
        exact step_of_serve hexited hk (e := .succeed k) rfl
          (by simp only [State.serve, hstage]; rfl)
    | releasing left =>
      cases left with
      | nil =>
        exact step_of_serve hexited hk (e := .finish k) rfl
          (by simp only [State.serve, hstage]; rfl)
      | cons =>
        exact step_of_serve hexited hk (e := .release k) rfl
          (by simp only [State.serve, hstage]; rfl)
    | returned =>
      cases hholders : q.holders with
      | nil =>
        exact step_of_serve hexited hk (e := .destroy k) rfl
          (by simp only [State.serve, hstage, hholders]; rfl)
      | cons id ids =>
        exact step_of_serve hexited hk (e := .drop k id) rfl
          (by simp only [State.serve, hholders, List.mem_cons_self, if_true]; rfl)
    | trimming =>
      exact step_of_serve hexited hk (e := .trim k) rfl (by simp only [State.serve, hstage]; rfl)
    | unwinding failure =>
      by_cases hunlocked : failure.reached = .unlocked
      · exact step_of_serve hexited hk (e := .destroy k) rfl
          (by simp only [State.serve, hstage, if_pos hunlocked]; rfl)
      · exact step_of_serve hexited hk (e := .destroy k) rfl
          (by simp only [State.serve, hstage, if_neg hunlocked]; rfl)
    | unwindingTrim failure =>
      exact step_of_serve hexited hk (e := .trim k) rfl (by simp only [State.serve, hstage]; rfl)
    | propagating failure left =>
      cases left with
      | nil =>
        exact step_of_serve hexited hk (e := .rethrow k) rfl
          (by simp only [State.serve, hstage]; rfl)
      | cons =>
        exact step_of_serve hexited hk (e := .propagate k) rfl
          (by simp only [State.serve, hstage]; rfl)
    | finished | threw => rw [hstage] at hnot; cases hnot

theorem step_remaining (hqueue : e.queue ≠ none) (h : step s e = some t) :
    t.remaining < s.remaining := by
  obtain ⟨hexited, ⟨queueIndex, rfl, -⟩ |
    ⟨-, rfl | ⟨k, q, _, _, _, trims, _, _, hk, hmove, rfl⟩⟩⟩ := step_cases h
  · exact absurd rfl hqueue
  · simp only [State.remaining, hexited]
    rw [if_pos trivial, if_neg (by decide)]
    omega
  · have hwork := sum_map_set_lt (f := MemQueue.work) hk hmove.work
    unfold State.remaining
    rw [(moved_calls_exited ..).2]
    exact Nat.add_lt_add_left hwork _

end

section
variable {s : State ι ε} {j k : ℕ} {p q : MemQueue ι ε}

theorem Inv.nodup (hs : Inv s) : (s.queues.flatMap MemQueue.calls).Nodup :=
  hs.entered.nodup_iff.mpr (List.Nodup.of_map _ (hs.ids ▸ List.nodup_range))

theorem Inv.batch (hs : Inv s) {c : MemQueueRequest ι} (hc : c ∈ s.calls) :
    ∃ (k : ℕ) (q : MemQueue ι ε), s.queues[k]? = some q ∧ c ∈ q.calls ∧
      q.queueIndex = c.queueIndex ∧
        ∀ (j : ℕ) (p : MemQueue ι ε), s.queues[j]? = some p → c ∈ p.calls → j = k := by
  obtain ⟨q, hq, hcq⟩ := List.mem_flatMap.mp (hs.entered.mem_iff.mpr hc)
  obtain ⟨k, hk⟩ := List.mem_iff_getElem?.mp hq
  exact ⟨k, q, hk, hcq, ((hs.sound q hq).index c hcq).symm,
    fun j p hj hcp => eq_of_mem_of_nodup hs.nodup hj hk hcp hcq⟩

theorem Inv.added (hs : Inv s) : s.jobs.Nodup ∧
    ∀ c, c ∈ s.jobs ↔ ∃ q ∈ s.queues, q.stage.added = true ∧ c ∈ q.calls := by
  have hsublist : (s.queues.flatMap MemQueue.jobs).Sublist (s.queues.flatMap MemQueue.calls) := by
    refine List.Sublist.flatMap_right _ fun q _ => ?_
    unfold MemQueue.jobs
    split
    · exact List.Sublist.refl _
    · exact List.nil_sublist _
  refine ⟨hs.jobs.nodup_iff.mpr (hsublist.nodup hs.nodup), fun c => ?_⟩
  rw [hs.jobs.mem_iff, List.mem_flatMap]
  refine exists_congr fun q => and_congr_right fun _ => ?_
  unfold MemQueue.jobs
  split
  · rename_i hadded
    exact ⟨fun h => ⟨hadded, h⟩, fun h => h.2⟩
  · rename_i hadded
    exact ⟨fun h => absurd h List.not_mem_nil, fun h => absurd h.1 hadded⟩

theorem Inv.exclusive (hs : Inv s) (hj : s.queues[j]? = some p) (hk : s.queues[k]? = some q)
    (hindex : p.queueIndex = q.queueIndex) (hp : p.stage.inStore = true)
    (hq : q.stage.inStore = true) : j = k := by
  obtain ⟨hpstarted, hpfulfilled⟩ := Stage.started_of_inStore hp
  obtain ⟨hqstarted, hqfulfilled⟩ := Stage.started_of_inStore hq
  rcases lt_trichotomy j k with hlt | heq | hlt
  · have hfulfilled := hs.ordered k q hk hqstarted j p hlt hj hindex
    exact absurd (hpfulfilled.symm.trans hfulfilled) (by decide)
  · exact heq
  · have hfulfilled := hs.ordered j p hj hpstarted k q hlt hk hindex.symm
    exact absurd (hqfulfilled.symm.trans hfulfilled) (by decide)

theorem Inv.after (hs : Inv s) (hjk : j < k) (hj : s.queues[j]? = some p)
    (hk : s.queues[k]? = some q) (hindex : p.queueIndex = q.queueIndex)
    (hstarted : q.stage.started = true) :
    p.stage.failed = true ∨ (p.stage = .trimming ∨ p.stage = .finished) ∧ p.holders = [] := by
  have hfulfilled := hs.ordered k q hk hstarted j p hjk hj hindex
  have hlends := (hs.sound p (List.mem_of_getElem? hj)).lends
  cases hstage : p.stage with
  | trimming | finished =>
    refine .inr ⟨by simp, by_contra fun hne => ?_⟩
    have hlent := hlends hne
    rw [hstage] at hlent
    cases hlent
  | unwindingTrim | propagating | threw => exact .inl rfl
  | _ => rw [hstage] at hfulfilled; cases hfulfilled

theorem Inv.outcome (hs : Inv s) {c : MemQueueRequest ι} (hc : c ∈ s.calls) {outcome : Outcome ε}
    (h : (c.id, outcome) ∈ s.results) :
    ∃ q ∈ s.queues, c ∈ q.calls ∧ q.stage.outcome = some outcome := by
  obtain ⟨q, hq, hgiven⟩ := List.mem_flatMap.mp (hs.given.mem_iff.mp h)
  obtain ⟨houtcome, c', hc', hid⟩ := MemQueue.mem_given hgiven
  have hcalls := q.told_sublist.subset hc'
  have hmem := hs.entered.mem_iff.mp (List.mem_flatMap.mpr ⟨q, hq, hcalls⟩)
  obtain rfl := List.inj_on_of_nodup_map (hs.ids ▸ List.nodup_range) hmem hc hid
  exact ⟨q, hq, hcalls, houtcome⟩

theorem Inv.outcomeOnce (hs : Inv s) : (s.results.map (·.1)).Nodup := by
  refine ((hs.given.map _).nodup_iff).mpr (List.Sublist.nodup ?_
    ((hs.entered.map (·.id)).nodup_iff.mpr (hs.ids ▸ List.nodup_range)))
  rw [List.map_flatMap, List.map_flatMap]
  exact List.Sublist.flatMap_right _ fun q _ => q.given_sublist

theorem Inv.told (hs : Inv s) (hq : q ∈ s.queues) (hended : q.stage.ended = true) :
    ∃ outcome, q.stage.outcome = some outcome ∧ ∀ c ∈ q.calls, (c.id, outcome) ∈ s.results := by
  have hgiven : ∃ outcome, q.stage.outcome = some outcome ∧
      q.given = q.calls.map fun c => (c.id, outcome) := by
    unfold MemQueue.given MemQueue.told
    cases hstage : q.stage with
    | returned | trimming | finished | threw => exact ⟨_, rfl, rfl⟩
    | _ => rw [hstage] at hended; cases hended
  obtain ⟨outcome, houtcome, hall⟩ := hgiven
  refine ⟨outcome, houtcome, fun c hc => hs.given.mem_iff.mpr (List.mem_flatMap.mpr ⟨q, hq, ?_⟩)⟩
  rw [hall]
  exact List.mem_map_of_mem hc

theorem Inv.unbroken (hs : Inv s) (id : ℕ) (message : String) :
    (id, .internal message) ∉ s.results := by
  intro h
  obtain ⟨q, -, hgiven⟩ := List.mem_flatMap.mp (hs.given.mem_iff.mp h)
  obtain ⟨houtcome, -⟩ := MemQueue.mem_given hgiven
  cases hstage : q.stage <;> rw [hstage] at houtcome <;> cases houtcome

variable [DecidableEq ι]

/-- Each request is in one batch, that of its own queue index, and is given to the object store with
this batch, once; the batches of an index are in the object store one at a time, and a thread only
starts when all references to the `SharedQueueLock` of each earlier one are gone, or it failed; each
thread is told what came of its batch; no thread waits for a batch that has ended, no check throws,
and as long as a thread waits, some thread can go on, but not for ever. -/
structure Shared (s : State ι ε) : Prop where
  once : (s.calls.map (·.id)).Nodup
  batch : ∀ c ∈ s.calls, ∃ (k : ℕ) (q : MemQueue ι ε), s.queues[k]? = some q ∧
    c ∈ q.calls ∧ q.queueIndex = c.queueIndex ∧
      ∀ (j : ℕ) (p : MemQueue ι ε), s.queues[j]? = some p → c ∈ p.calls → j = k
  added : s.jobs.Nodup ∧
    ∀ c, c ∈ s.jobs ↔ ∃ q ∈ s.queues, q.stage.added = true ∧ c ∈ q.calls
  exclusive : ∀ (j k : ℕ) (p q : MemQueue ι ε), s.queues[j]? = some p → s.queues[k]? = some q →
    p.queueIndex = q.queueIndex → p.stage.inStore = true → q.stage.inStore = true → j = k
  after : ∀ (j k : ℕ) (p q : MemQueue ι ε), j < k → s.queues[j]? = some p →
    s.queues[k]? = some q → p.queueIndex = q.queueIndex → q.stage.started = true →
    p.stage.failed = true ∨ (p.stage = .trimming ∨ p.stage = .finished) ∧ p.holders = []
  outcome : ∀ c ∈ s.calls, ∀ outcome, (c.id, outcome) ∈ s.results →
    ∃ q ∈ s.queues, c ∈ q.calls ∧ q.stage.outcome = some outcome
  outcomeOnce : (s.results.map (·.1)).Nodup
  told : ∀ q ∈ s.queues, q.stage.ended = true →
    ∃ outcome, q.stage.outcome = some outcome ∧ ∀ c ∈ q.calls, (c.id, outcome) ∈ s.results
  ready : s.exited = false → ∀ (k : ℕ) (q : MemQueue ι ε), s.queues[k]? = some q →
    q.stage = .waiting → AllFulfilled s.queues k q.queueIndex → ∃ t, step s (.wake k) = some t
  unbroken : (∀ q ∈ s.queues, ∀ message, q.stage ≠ .broken message) ∧
    ∀ id message, (id, .internal message) ∉ s.results
  progress : s.exited = false → ∀ c ∈ s.calls, c.id ∉ s.results.map (·.1) →
    ∃ e : Event ι ε, e.queue ≠ none ∧ ∃ t, step s e = some t
  finite : ∀ e t, e.queue ≠ none → step s e = some t → t.remaining < s.remaining

theorem Inv.ready (hs : Inv s) (hexited : s.exited = false) (hk : s.queues[k]? = some q)
    (hstage : q.stage = .waiting) (h : AllFulfilled s.queues k q.queueIndex) :
    ∃ t, MemQueues.step s (.wake k) = some t := by
  have hready : s.ready q = true := by
    have hchained := hs.predecessor k q hk
    unfold State.ready
    cases hfuture : q.futureFromPredecessor with
    | none => rfl
    | some m =>
      rw [hfuture] at hchained
      obtain ⟨⟨p, hm, hp, hindex⟩, -⟩ := hchained
      simp [hp, h m p hm hp hindex]
  refine ⟨s.setStage k q .awake, ?_⟩
  simp [MemQueues.step, hexited, Event.queue, hk, State.serve, hstage, hready]

theorem Inv.progress (hs : Inv s) (hexited : s.exited = false) {c : MemQueueRequest ι}
    (hc : c ∈ s.calls) (hwaits : c.id ∉ s.results.map (·.1)) :
    ∃ e : Event ι ε, e.queue ≠ none ∧ ∃ t, MemQueues.step s e = some t := by
  obtain ⟨k, q, hk, hcq, -⟩ := hs.batch hc
  have hq := List.mem_of_getElem? hk
  refine hs.exists_step hexited hk (Bool.eq_false_iff.mpr fun hfinal => ?_)
  have hended : q.stage.ended = true := by
    cases hstage : q.stage with
    | finished | threw => rfl
    | broken message => exact absurd hstage ((hs.sound q hq).unbroken message)
    | _ => rw [hstage] at hfinal; cases hfinal
  obtain ⟨outcome, -, hall⟩ := hs.told hq hended
  exact hwaits (List.mem_map.mpr ⟨_, hall c hcq, rfl⟩)

/-- However the threads take turns, and whatever fails. -/
theorem run_shared {events : List (Event ι ε)} (h : run {} events = some s) : Shared s := by
  have hs := inv_start.run h
  exact {
    once := hs.ids ▸ List.nodup_range
    batch := fun c hc => hs.batch hc
    added := hs.added
    exclusive := fun j k p q hj hk => hs.exclusive hj hk
    after := fun j k p q hjk hj hk => hs.after hjk hj hk
    outcome := fun c hc outcome hresult => hs.outcome hc hresult
    outcomeOnce := hs.outcomeOnce
    told := fun q hq hended => hs.told hq hended
    ready := fun hexited k q hk hstage hall => hs.ready hexited hk hstage hall
    unbroken := ⟨fun q hq => (hs.sound q hq).unbroken, hs.unbroken⟩
    progress := fun hexited c hc hwaits => hs.progress hexited hc hwaits
    finite := fun e t hqueue hstep => step_remaining hqueue hstep }

end

/-- Two threads share a batch, another index has one of its own, and the batch behind the first one
fails. -/
def threeBatches : List (Event ℕ String) :=
  [.call 0, .call 0, .call 1, .wake 0, .close 0, .call 0, .lock 0, .add 0, .succeed 0, .release 0,
    .finish 0, .drop 0 1, .drop 0 0, .destroy 0, .wake 2, .trim 0, .close 2, .wake 1,
    .throwing 2 "NoSuchObject", .destroy 2, .rethrow 2]

theorem run_shared_three_batches : ∃ s : State ℕ String,
    run {} threeBatches = some s ∧ Shared s := by
  have hsome : (run ({} : State ℕ String) threeBatches).isSome = true := by decide +kernel
  obtain ⟨s, hrun⟩ := Option.isSome_iff_exists.mp hsome
  exact ⟨s, hrun, run_shared hrun⟩

end Cta.Scheduler.MemQueues

import Cta.Lib.BusyMarks
import Cta.Lib.Runs
import Cta.Scheduler.BestRetrieveQueue

/-! The cache of the queue statistics, shared by the threads that select a queue. An entry is marked
while a thread updates it without the lock, and the others wait on its promise. -/
namespace Cta.Scheduler.StatisticsCache
open Cta.Lib.BusyMarks Cta.Lib.Runs
open RetrieveFailure (Failure RetrieveQueueStatistics RetrieveQueueStatisticsWithTime TapeState
  Statistics Surroundings c_retrieveQueueCacheMaxAge)

structure Entry extends RetrieveQueueStatisticsWithTime where
  updateFuture : Option Nat
  deriving DecidableEq, Repr

def Entry.initial : Entry := ⟨⟨⟨"", 0, 0, 0⟩, .active, false, 0⟩, none⟩

inductive Promise
  | pending
  | kept
  | broken
  deriving DecidableEq, Repr

structure Selection where
  candidateVids : List String
  forceDisabledTape : Bool
  candidateVidsStats : List RetrieveQueueStatistics
  deriving DecidableEq, Repr

inductive Thread
  | idle
  | locking (selection : Selection)
  | visiting (selection : Selection)
  | waiting (vid : String) (updateFuture : Option Nat) (selection : Selection)
  | updating (vid : String) (updatePromise : Nat) (selection : Selection)
  deriving DecidableEq, Repr

structure State where
  cache : String → Option Entry
  promises : Nat → Promise
  nextPromise : Nat
  mutex : Option Nat
  threads : Nat → Thread

namespace State

def initial : State where
  cache _ := none
  promises _ := .pending
  nextPromise := 0
  mutex := none
  threads _ := .idle

def setThread (s : State) (t : Nat) (thread : Thread) : State :=
  { s with threads := Function.update s.threads t thread }

def startUpdate (s : State) (t : Nat) (vid : String) (selection : Selection) : State where
  cache := Function.update s.cache vid (some
    { (s.cache vid).getD Entry.initial with updating := true, updateFuture := some s.nextPromise })
  promises := Function.update s.promises s.nextPromise .pending
  nextPromise := s.nextPromise + 1
  mutex := none
  threads := Function.update s.threads t (.updating vid s.nextPromise selection)

/-- The statistics join those of the candidates if the tape can be read. -/
def useEntry (s : State) (t : Nat) (entry : Entry) (selection : Selection) : State :=
  { s.setThread t (.visiting { selection with
      candidateVidsStats := selection.candidateVidsStats ++
        if Statistics.usable selection.forceDisabledTape entry.toRetrieveQueueStatisticsWithTime then
          [entry.stats] else [] }) with mutex := some t }

def visitCandidate (s : State) (t : Nat) (vid : String) (now : Int) (selection : Selection) :
    State :=
  match s.cache vid with
  | none => s.startUpdate t vid selection
  | some entry =>
    if entry.updating then
      { s.setThread t (.waiting vid entry.updateFuture selection) with mutex := none }
    else if now - entry.updateTime > c_retrieveQueueCacheMaxAge then s.startUpdate t vid selection
    else s.useEntry t entry selection

def wake (s : State) (t : Nat) (vid : String) (selection : Selection) : State :=
  match s.cache vid with
  | none => s.startUpdate t vid selection
  | some entry => s.useEntry t entry selection

/-- An exception without the lock destroys the promise, and the entry stays as it is. -/
def updateThrows (s : State) (t updatePromise : Nat) : State :=
  { s.setThread t .idle with promises := Function.update s.promises updatePromise .broken }

def checkedEntry (vid : String) (queuesStats : List RetrieveQueueStatistics)
    (tapeStatus : List (String × TapeState)) (now : Int) :
    Except Failure RetrieveQueueStatisticsWithTime :=
  match queuesStats, tapeStatus with
  | [stats], [(tapeVid, state)] =>
    if stats.vid = vid ∧ tapeVid = vid then .ok ⟨stats, state, false, now⟩
    else .error .exception
  | _, _ => .error .exception

def updateAnswers (s : State) (t : Nat) (vid : String) (updatePromise : Nat)
    (queuesStats : List RetrieveQueueStatistics) (tapeStatus : List (String × TapeState))
    (now : Int) (selection : Selection) : State :=
  let entry := { (s.cache vid).getD Entry.initial with updating := false, updateFuture := none }
  match checkedEntry vid queuesStats tapeStatus now with
  | .error _ =>
    { s.updateThrows t updatePromise with cache := Function.update s.cache vid (some entry) }
  | .ok checked =>
    let entry := { entry with toRetrieveQueueStatisticsWithTime := checked }
    { s.useEntry t entry selection with
      cache := Function.update s.cache vid (some entry)
      promises := Function.update s.promises updatePromise .kept }

def updateRetrieveQueueStatisticsCache (s : State) (vid : String) (files bytes priority : Nat)
    (now : Int) : State :=
  { s with cache := Function.update s.cache vid (some
      (match s.cache vid with
        | some entry => { entry with
            stats := ⟨entry.stats.vid, bytes, files, priority⟩ }
        | none => ⟨⟨⟨vid, bytes, files, priority⟩, .active, false, now⟩, none⟩)) }

end State

/-- What a thread does next, at the times and with the answers it gets. -/
inductive Event
  | call (t : Nat) (candidateVids : List String) (forceDisabledTape : Bool)
  | lock (t : Nat)
  | visit (t : Nat) (now : Int)
  | wake (t : Nat)
  | updateThrows (t : Nat)
  | updateAnswers (t : Nat) (queuesStats : List RetrieveQueueStatistics)
      (tapeStatus : List (String × TapeState)) (now : Int)
  | finish (t : Nat)
  | updateRetrieveQueueStatisticsCache (vid : String) (files bytes priority : Nat) (now : Int)
  deriving DecidableEq, Repr

def State.next (s : State) : Event → State
  | .call t candidateVids forceDisabledTape =>
    match s.threads t with
    | .idle => s.setThread t (.locking ⟨candidateVids, forceDisabledTape, []⟩)
    | _ => s
  | .lock t =>
    match s.threads t, s.mutex with
    | .locking selection, none => { s.setThread t (.visiting selection) with mutex := some t }
    | _, _ => s
  | .visit t now =>
    match s.threads t with
    | .visiting ⟨vid :: vids, forceDisabledTape, stats⟩ =>
      s.visitCandidate t vid now ⟨vids, forceDisabledTape, stats⟩
    | _ => s
  | .wake t =>
    match s.threads t, s.mutex with
    | .waiting vid (some future) selection, none =>
      if s.promises future = .pending then s else s.wake t vid selection
    | _, _ => s
  | .updateThrows t =>
    match s.threads t with
    | .updating _ updatePromise _ => s.updateThrows t updatePromise
    | _ => s
  | .updateAnswers t queuesStats tapeStatus now =>
    match s.threads t, s.mutex with
    | .updating vid updatePromise selection, none =>
      s.updateAnswers t vid updatePromise queuesStats tapeStatus now selection
    | _, _ => s
  | .finish t =>
    match s.threads t with
    | .visiting ⟨[], _, _⟩ => { s.setThread t .idle with mutex := none }
    | _ => s
  | .updateRetrieveQueueStatisticsCache vid files bytes priority now =>
    match s.mutex with
    | none => s.updateRetrieveQueueStatisticsCache vid files bytes priority now
    | some _ => s

def State.Updates (s : State) (vid : String) (future : Option Nat) : Prop :=
  ∃ t updatePromise selection, s.threads t = .updating vid updatePromise selection ∧
    future = some updatePromise ∧ s.promises updatePromise = .pending

/-- Marked entries are being updated, and those who start to wait do so for a running update. -/
structure Live (s : State) : Prop where
  marked : ∀ vid entry, s.cache vid = some entry → entry.updating = true →
    s.Updates vid entry.updateFuture
  waits : ∀ t now vid future selection, s.threads t ≠ .waiting vid future selection →
    (s.next (.visit t now)).threads t = .waiting vid future selection →
      (s.next (.visit t now)).Updates vid future

def Survives (s : State) : Event → Prop
  | .updateThrows t => ∀ vid updatePromise selection,
      s.threads t ≠ .updating vid updatePromise selection
  | _ => True

def Entry.mark (entry : Entry) : Option Nat :=
  if entry.updating then entry.updateFuture else none

def Thread.work : Thread → Option (String × Nat)
  | .updating vid updatePromise _ => some (vid, updatePromise)
  | _ => none

namespace State

def marks (s : State) : Marks String Nat where
  mark := (·.bind Entry.mark) ∘ s.cache
  work := Thread.work ∘ s.threads
  next := s.nextPromise

/-- A thread goes on with the lock or without it, marks an entry, dies, or takes off its mark. -/
inductive Moves (s : State) (e : Event) : State → Prop
  | stays : Moves s e s
  | goes (t : Nat) (thread : Thread) (mutex : Option Nat) (hs : s.marks.work t = none)
      (hthread : thread.work = none) : Moves s e { s.setThread t thread with mutex := mutex }
  | starts (t : Nat) (vid : String) (selection : Selection) (hs : s.marks.work t = none)
      (hmark : s.marks.mark vid = none) : Moves s e (s.startUpdate t vid selection)
  | throws (t : Nat) (vid : String) (updatePromise : Nat) (selection : Selection)
      (hs : s.threads t = .updating vid updatePromise selection) (he : e = .updateThrows t) :
      Moves s e (s.updateThrows t updatePromise)
  | answers (t : Nat) (vid : String) (updatePromise : Nat)
      (queuesStats : List RetrieveQueueStatistics) (tapeStatus : List (String × TapeState))
      (now : Int) (selection : Selection)
      (hs : s.threads t = .updating vid updatePromise selection) :
      Moves s e (s.updateAnswers t vid updatePromise queuesStats tapeStatus now selection)
  | books (vid : String) (files bytes priority : Nat) (now : Int) :
      Moves s e (s.updateRetrieveQueueStatisticsCache vid files bytes priority now)

section
variable {s s' : State} {e : Event}

theorem visitCandidate_moves (s : State) (e : Event) (t : Nat) (vid : String) (now : Int)
    (selection : Selection) (hs : s.marks.work t = none) :
    s.Moves e (s.visitCandidate t vid now selection) := by
  rw [visitCandidate]
  cases hcache : s.cache vid with
  | none => exact .starts t vid selection hs (by simp [marks, hcache])
  | some entry =>
    dsimp only
    split_ifs with hupdating hold
    · exact .goes t _ _ hs rfl
    · exact .starts t vid selection hs (by simp [marks, hcache, Entry.mark, hupdating])
    · exact .goes t _ _ hs rfl

theorem wake_moves (s : State) (e : Event) (t : Nat) (vid : String) (selection : Selection)
    (hs : s.marks.work t = none) : s.Moves e (s.wake t vid selection) := by
  rw [wake]
  cases hcache : s.cache vid with
  | none => exact .starts t vid selection hs (by simp [marks, hcache])
  | some entry => exact .goes t _ _ hs rfl

theorem next_moves (s : State) (e : Event) : s.Moves e (s.next e) := by
  cases e with
  | call t candidateVids forceDisabledTape =>
    rw [next]
    split
    · rename_i hs
      exact .goes t _ s.mutex (by simp [marks, hs, Thread.work]) rfl
    · exact .stays
  | lock t =>
    rw [next]
    split
    · rename_i hs hmutex
      exact .goes t _ _ (by simp [marks, hs, Thread.work]) rfl
    · exact .stays
  | visit t now =>
    rw [next]
    split
    · rename_i hs
      exact visitCandidate_moves s _ t _ now _ (by simp [marks, hs, Thread.work])
    · exact .stays
  | wake t =>
    rw [next]
    split
    · rename_i hs hmutex
      split_ifs with hpending
      · exact .stays
      · exact wake_moves s _ t _ _ (by simp [marks, hs, Thread.work])
    · exact .stays
  | updateThrows t =>
    rw [next]
    split
    · rename_i hs
      exact .throws t _ _ _ hs rfl
    · exact .stays
  | updateAnswers t queuesStats tapeStatus now =>
    rw [next]
    split
    · rename_i hs hmutex
      exact .answers t _ _ queuesStats tapeStatus now _ hs
    · exact .stays
  | finish t =>
    rw [next]
    split
    · rename_i hs
      exact .goes t _ _ (by simp [marks, hs, Thread.work]) rfl
    · exact .stays
  | updateRetrieveQueueStatisticsCache vid files bytes priority now =>
    rw [next]
    split
    · exact .books vid files bytes priority now
    · exact .stays

theorem marks_setThread (t : Nat) (thread : Thread) (mutex : Option Nat)
    (hs : s.marks.work t = none) (hthread : thread.work = none) :
    State.marks { s.setThread t thread with mutex := mutex } = s.marks := by
  have hwork : Thread.work ∘ Function.update s.threads t thread = Thread.work ∘ s.threads := by
    rw [Function.comp_update, hthread]
    exact Function.update_eq_self_iff.mpr hs.symm
  exact congrArg (fun work => (⟨s.marks.mark, work, s.nextPromise⟩ : Marks String Nat)) hwork

@[simp] theorem marks_startUpdate (t : Nat) (vid : String) (selection : Selection) :
    (s.startUpdate t vid selection).marks = s.marks.start t vid := by
  simp [marks, startUpdate, Marks.start, Function.comp_update, Entry.mark, Thread.work]

@[simp] theorem marks_updateThrows (t updatePromise : Nat) :
    (s.updateThrows t updatePromise).marks = s.marks.abandon t := by
  simp [marks, updateThrows, setThread, Marks.abandon, Function.comp_update, Thread.work]

@[simp] theorem marks_updateAnswers (t : Nat) (vid : String) (updatePromise : Nat)
    (queuesStats : List RetrieveQueueStatistics) (tapeStatus : List (String × TapeState))
    (now : Int) (selection : Selection) :
    (s.updateAnswers t vid updatePromise queuesStats tapeStatus now selection).marks =
      s.marks.finish t vid := by
  rw [updateAnswers]
  cases checkedEntry vid queuesStats tapeStatus now with
  | error =>
    simp [marks, updateThrows, setThread, Marks.finish, Function.comp_update, Thread.work,
      Entry.mark]
  | ok checked =>
    simp [marks, useEntry, setThread, Marks.finish, Function.comp_update, Thread.work, Entry.mark]

@[simp] theorem marks_updateRetrieveQueueStatisticsCache (vid : String)
    (files bytes priority : Nat) (now : Int) :
    (s.updateRetrieveQueueStatisticsCache vid files bytes priority now).marks = s.marks := by
  have hmark : (s.updateRetrieveQueueStatisticsCache vid files bytes priority now).marks.mark =
      s.marks.mark := by
    rw [marks, updateRetrieveQueueStatisticsCache, Function.comp_update]
    refine Function.update_eq_self_iff.mpr ?_
    cases hcache : s.cache vid with
    | none => simp [hcache, Entry.mark]
    | some entry => simp [hcache, Entry.mark]
  exact congrArg (fun mark => (⟨mark, s.marks.work, s.nextPromise⟩ : Marks String Nat)) hmark

theorem forall_update {P : String → Entry → Prop} {cache : String → Option Entry}
    {vid : String} {entry : Entry} (h : ∀ vid entry, cache vid = some entry → P vid entry)
    (hentry : P vid entry) {vid' : String} {entry' : Entry}
    (h' : Function.update cache vid (some entry) vid' = some entry') : P vid' entry' := by
  by_cases hvid : vid' = vid
  · subst hvid
    rw [Function.update_self, Option.some.injEq] at h'
    exact h' ▸ hentry
  · rw [Function.update_of_ne hvid] at h'
    exact h vid' entry' h'

theorem checkedEntry_vid {vid : String} {queuesStats : List RetrieveQueueStatistics}
    {tapeStatus : List (String × TapeState)} {now : Int} {checked : RetrieveQueueStatisticsWithTime}
    (h : checkedEntry vid queuesStats tapeStatus now = .ok checked) :
    checked.updating = false ∧ checked.stats.vid = vid := by
  unfold checkedEntry at h
  split at h
  · split_ifs at h with hvid
    cases h
    exact ⟨rfl, hvid.1⟩
  · cases h

theorem updateAnswers_spec (s : State) (t : Nat) (vid : String) (updatePromise : Nat)
    (queuesStats : List RetrieveQueueStatistics) (tapeStatus : List (String × TapeState))
    (now : Int) (selection : Selection) : ∃ entry outcome,
    (s.updateAnswers t vid updatePromise queuesStats tapeStatus now selection).cache =
        Function.update s.cache vid (some entry) ∧
      (s.updateAnswers t vid updatePromise queuesStats tapeStatus now selection).promises =
        Function.update s.promises updatePromise outcome ∧ entry.updating = false ∧
      (entry.stats.vid = vid ∨ entry.stats = ((s.cache vid).getD Entry.initial).stats) := by
  rw [updateAnswers]
  cases hchecked : checkedEntry vid queuesStats tapeStatus now with
  | error => exact ⟨_, _, rfl, rfl, rfl, .inr rfl⟩
  | ok checked =>
    obtain ⟨hupdating, hvid⟩ := checkedEntry_vid hchecked
    exact ⟨_, _, rfl, rfl, hupdating, .inl hvid⟩

/-- The marks find their threads, a marked entry has a future, and that of a running update is
pending. -/
structure Inv (s : State) : Prop where
  consistent : Consistent s.marks
  future : ∀ vid entry, s.cache vid = some entry → entry.updating = true →
    entry.updateFuture.isSome = true
  pending : ∀ t vid n, s.marks.work t = some (vid, n) → s.promises n = .pending

theorem Inv.initial : State.initial.Inv where
  consistent := by constructor <;> simp [State.initial, marks, Thread.work]
  future := by simp [State.initial]
  pending := by simp [State.initial]

theorem Inv.move (h : s.Inv) (hmove : s.Moves e s') (hsurvives : Survives s e) : s'.Inv := by
  cases hmove with
  | stays => exact h
  | goes t thread mutex hs hthread =>
    have hmarks := marks_setThread t thread mutex hs hthread
    exact ⟨hmarks ▸ h.consistent, h.future, fun i vid n hi => h.pending i vid n (hmarks ▸ hi)⟩
  | starts t vid selection hs hmark =>
    refine ⟨?_, fun _ _ => forall_update h.future fun _ => rfl, ?_⟩
    · rw [marks_startUpdate]
      exact h.consistent.start hmark
    · intro i vid' n hi
      rw [marks_startUpdate, Marks.start_work] at hi
      by_cases hit : i = t
      · subst hit
        rw [Function.update_self, Option.some.injEq, Prod.mk.injEq] at hi
        obtain ⟨-, rfl⟩ := hi
        exact Function.update_self _ _ _
      · rw [Function.update_of_ne hit] at hi
        have hfresh := h.consistent.fresh i vid' n hi
        exact (Function.update_of_ne hfresh.ne _ _).trans (h.pending i vid' n hi)
  | throws t vid updatePromise selection hs he =>
    subst he
    exact absurd hs (hsurvives _ _ _)
  | answers t vid updatePromise queuesStats tapeStatus now selection hs =>
    have hwork : s.marks.work t = some (vid, updatePromise) := by simp [marks, hs, Thread.work]
    obtain ⟨entry, outcome, hcache, hpromises, hupdating, -⟩ :=
      updateAnswers_spec s t vid updatePromise queuesStats tapeStatus now selection
    refine ⟨?_, ?_, ?_⟩
    · rw [marks_updateAnswers]
      exact h.consistent.finish hwork
    · rw [hcache]
      exact fun _ _ => forall_update h.future fun hu => absurd hu (by simp [hupdating])
    · intro i vid' n hi
      rw [marks_updateAnswers, Marks.finish_work] at hi
      obtain ⟨hit, -, hi⟩ := work_of_released h.consistent hwork hi
      have hn : n ≠ updatePromise := by
        rintro rfl
        exact hit (h.consistent.tickets i t vid' vid n hi hwork)
      rw [hpromises, Function.update_of_ne hn]
      exact h.pending i vid' n hi
  | books vid files bytes priority now =>
    refine ⟨?_, fun _ _ => forall_update h.future ?_, fun i vid' n hi => h.pending i vid' n ?_⟩
    · rw [marks_updateRetrieveQueueStatisticsCache]
      exact h.consistent
    · cases hcache : s.cache vid with
      | none => exact fun hu => absurd hu (by simp)
      | some entry => exact h.future vid entry hcache
    · rwa [marks_updateRetrieveQueueStatisticsCache] at hi

theorem work_eq {t n : Nat} {vid : String} : s.marks.work t = some (vid, n) ↔
    ∃ selection, s.threads t = .updating vid n selection := by
  change (s.threads t).work = some (vid, n) ↔ _
  cases s.threads t <;> simp [Thread.work]

theorem mark_eq {n : Nat} {vid : String} : s.marks.mark vid = some n ↔
    ∃ entry, s.cache vid = some entry ∧ entry.updating = true ∧ entry.updateFuture = some n := by
  simp [marks, Option.bind_eq_some_iff, Entry.mark]

theorem attended_of_live (h : Live s) : Attended s.marks := by
  intro vid n hmark
  obtain ⟨entry, hcache, hupdating, hfuture⟩ := mark_eq.mp hmark
  obtain ⟨t, updatePromise, selection, ht, heq, -⟩ := h.marked vid entry hcache hupdating
  obtain rfl := Option.some.inj (hfuture.symm.trans heq)
  exact ⟨t, work_eq.mpr ⟨selection, ht⟩⟩

theorem Inv.updates (h : s.Inv) (hattended : Attended s.marks) {vid : String} {entry : Entry}
    (hcache : s.cache vid = some entry) (hupdating : entry.updating = true) :
    s.Updates vid entry.updateFuture := by
  obtain ⟨n, hn⟩ := Option.isSome_iff_exists.mp (h.future vid entry hcache hupdating)
  obtain ⟨t, ht⟩ := hattended vid n (mark_eq.mpr ⟨entry, hcache, hupdating, hn⟩)
  obtain ⟨selection, hselection⟩ := work_eq.mp ht
  exact ⟨t, n, selection, hselection, hn, h.pending t vid n ht⟩

theorem visit_waits {t : Nat} {now : Int} {vid : String} {future : Option Nat}
    {selection : Selection} (hno : s.threads t ≠ .waiting vid future selection)
    (h : (s.next (.visit t now)).threads t = .waiting vid future selection) :
    ∃ entry, s.cache vid = some entry ∧ entry.updating = true ∧ future = entry.updateFuture ∧
      s.marks.work t = none ∧ s.next (.visit t now) =
        { s.setThread t (.waiting vid future selection) with mutex := none } := by
  rw [next] at h ⊢
  split at h
  · rename_i vid' vids force stats hs
    rw [visitCandidate] at h ⊢
    cases hcache : s.cache vid' with
    | none => simp [hcache, startUpdate] at h
    | some entry =>
      simp only [hcache] at h ⊢
      split_ifs at h ⊢ with hupdating hold
      · simp only [setThread, Function.update_self, Thread.waiting.injEq] at h
        obtain ⟨rfl, rfl, rfl⟩ := h
        exact ⟨entry, hcache, hupdating, rfl, by simp [marks, hs, Thread.work], rfl⟩
      · simp [startUpdate] at h
      · simp [useEntry, setThread] at h
  · exact absurd h hno

theorem Inv.live_iff (h : s.Inv) : Live s ↔ Attended s.marks := by
  refine ⟨attended_of_live, fun hattended => ⟨fun vid entry => h.updates hattended, ?_⟩⟩
  intro t now vid future selection hno hwaits
  obtain ⟨entry, hcache, hupdating, rfl, hidle, hnext⟩ := visit_waits hno hwaits
  obtain ⟨i, n, selection', hi, hn, hpending⟩ := h.updates hattended hcache hupdating
  have hne : i ≠ t := by
    rintro rfl
    rw [work_eq.mpr ⟨selection', hi⟩] at hidle
    cases hidle
  refine ⟨i, n, selection', ?_, hn, ?_⟩
  · rw [hnext]
    exact (Function.update_of_ne hne _ _).trans hi
  · rw [hnext]
    exact hpending

theorem attended_move (h : Attended s.marks) (hmove : s.Moves e s')
    (hsurvives : Survives s e) : Attended s'.marks := by
  cases hmove with
  | stays => exact h
  | goes t thread mutex hs hthread => rwa [marks_setThread t thread mutex hs hthread]
  | starts t vid selection hs hmark =>
    rw [marks_startUpdate]
    exact h.start hs
  | throws t vid updatePromise selection hs he =>
    subst he
    exact absurd hs (hsurvives _ _ _)
  | answers t vid updatePromise queuesStats tapeStatus now selection hs =>
    rw [marks_updateAnswers]
    exact h.finish (work_eq.mpr ⟨selection, hs⟩)
  | books => rwa [marks_updateRetrieveQueueStatisticsCache]

theorem Inv.not_live_of_throws (h : s.Inv) {t : Nat} {vid : String} {updatePromise : Nat}
    {selection : Selection} (hs : s.threads t = .updating vid updatePromise selection) :
    ¬Live (s.next (.updateThrows t)) := by
  intro hlive
  have hmarks : (s.next (.updateThrows t)).marks = s.marks.abandon t := by
    simp only [next, hs, marks_updateThrows]
  exact not_attended_abandon h.consistent (work_eq.mpr ⟨selection, hs⟩)
    (hmarks ▸ attended_of_live hlive)

theorem Inv.live_next_iff (h : s.Inv) (hlive : Live s) (e : Event) :
    Live (s.next e) ↔ Survives s e := by
  constructor
  · intro hnext
    cases e with
    | updateThrows t => exact fun vid updatePromise selection hs => h.not_live_of_throws hs hnext
    | _ => trivial
  · intro hsurvives
    have hmove := s.next_moves e
    exact (h.move hmove hsurvives).live_iff.mpr
      (attended_move (h.live_iff.mp hlive) hmove hsurvives)

end

theorem initial_live : Live State.initial :=
  Inv.initial.live_iff.mpr (by simp [Attended, State.initial, marks])

end State

/-- Marked entries are attended all along a history if and only if no update in it throws. -/
theorem always_live_iff_survives (events : List Event) :
    AllStates State.next Live State.initial events ↔
      AllSteps State.next Survives State.initial events :=
  allStates_iff_allSteps (fun _ e hinv hlive => hinv.live_next_iff hlive e)
    (fun s e hinv _ hsurvives => hinv.move (s.next_moves e) hsurvives) State.Inv.initial
    State.initial_live

def deadUpdate : List Event :=
  [.call 0 ["V1"] false, .lock 0, .visit 0 1000, .updateThrows 0]

def laterCall : List Event := [.call 1 ["V1"] false, .lock 1, .visit 1 1001]

/-- No update runs, the entry is marked, and the later call waits on the broken promise and then
uses the entry that was never filled. -/
theorem deadUpdate_leaves_mark :
    let s := deadUpdate.foldl State.next State.initial
    let s' := laterCall.foldl State.next s
    (∀ t, (s.threads t).work = none) ∧
      s.cache "V1" = some { Entry.initial with updating := true, updateFuture := some 0 } ∧
      s.promises 0 = .broken ∧ s'.threads 1 = .waiting "V1" (some 0) ⟨[], false, []⟩ ∧
      s'.promises 0 = .broken ∧
      (s'.next (.wake 1)).threads 1 = .visiting ⟨[], false, [⟨"", 0, 0, 0⟩]⟩ ∧
      ¬AllStates State.next Live State.initial deadUpdate := by
  have hidle : ∀ t, ((deadUpdate.foldl State.next State.initial).threads t).work = none := by
    intro t
    by_cases ht : t = 0
    · subst ht
      rfl
    · simp [deadUpdate, State.next, State.initial, State.setThread, State.visitCandidate,
        State.startUpdate, State.updateThrows, Thread.work]
  refine ⟨hidle, rfl, rfl, rfl, rfl, rfl, fun hall => ?_⟩
  obtain ⟨t, updatePromise, selection, ht, -⟩ := hall.last.marked "V1" _ rfl rfl
  have hwork := hidle t
  rw [ht] at hwork
  cases hwork

/-- An entry has the statistics of its tape, or still those of a new one. -/
def Named (s : State) : Prop :=
  ∀ vid entry, s.cache vid = some entry → entry.stats.vid = vid ∨ entry.stats.vid = ""

section
variable {s s' : State} {e : Event}

theorem Named.getD (h : Named s) (vid : String) :
    ((s.cache vid).getD Entry.initial).stats.vid = vid ∨
      ((s.cache vid).getD Entry.initial).stats.vid = "" := by
  cases hcache : s.cache vid with
  | none => exact .inr rfl
  | some entry => exact h vid entry hcache

theorem Named.move (h : Named s) (hmove : s.Moves e s') : Named s' := by
  cases hmove with
  | stays => exact h
  | goes => exact h
  | throws => exact h
  | starts t vid selection hs hmark =>
    refine fun _ _ => State.forall_update h ?_
    exact h.getD vid
  | answers t vid updatePromise queuesStats tapeStatus now selection hs =>
    obtain ⟨entry, outcome, hcache, -, -, hstats⟩ :=
      State.updateAnswers_spec s t vid updatePromise queuesStats tapeStatus now selection
    rw [Named, hcache]
    refine fun _ _ => State.forall_update h ?_
    rcases hstats with hvid | hstats
    · exact .inl hvid
    · rw [hstats]
      exact h.getD vid
  | books vid files bytes priority now =>
    refine fun _ _ => State.forall_update h ?_
    cases hcache : s.cache vid with
    | none => exact .inl rfl
    | some entry => exact h vid entry hcache

end

theorem run_named (events : List Event) : Named (events.foldl State.next State.initial) :=
  (AllStates.of_invariant (I := Named) (fun _ _ h => by cases h)
    (fun s e _ h => h.move (s.next_moves e)) fun _ h => h).last

/-- The choice after any history of the cache, with the entries that are read after a wait. -/
theorem run_chooses_best_iff {w : Surroundings} {events : List Event} {later : String → List Event}
    (hcache : ∀ vid, w.cache vid = ((events.foldl State.next State.initial).cache vid).map
      Entry.toRetrieveQueueStatisticsWithTime)
    (hupdated : ∀ vid, ∃ entry,
      ((later vid).foldl State.next State.initial).cache vid = some entry ∧
        w.updated vid = entry.toRetrieveQueueStatisticsWithTime)
    {candidateVids : Finset String} (hvids : "" ∉ candidateVids) (forceDisabledTape : Bool) :
    w.ChoosesBest candidateVids forceDisabledTape ↔ w.OnlyBest candidateVids forceDisabledTape := by
  have hnamed : w.CacheNamed := by
    refine ⟨fun vid entry h => ?_, fun vid => ?_⟩
    · rw [hcache vid] at h
      obtain ⟨entry', hentry, rfl⟩ := Option.map_eq_some_iff.mp h
      exact run_named events vid entry' hentry
    · obtain ⟨entry, hentry, heq⟩ := hupdated vid
      rw [heq]
      exact run_named (later vid) vid entry hentry
  exact ⟨fun h => h.onlyBest hnamed hvids, Surroundings.OnlyBest.choosesBest⟩

end Cta.Scheduler.StatisticsCache

import Cta.ObjectStore.BackendRados
import Mathlib.Logic.Function.Basic

/-! Threads that create, lock, release and remove one object on Rados, one step for each call to
librados. -/
namespace Cta.ObjectStore.RadosLocks
open Cta.ObjectStore.BackendRados

abbrev Thread := Nat

inductive LockType where
  | shared
  | exclusive
  deriving DecidableEq, Repr

/-- Where a thread is: in `lockBackoff` behind the lock, before the `stat` or before the removal
of an empty object, or in `create`. -/
inductive Activity where
  | idle
  | stating (type : LockType)
  | removingEmpty (type : LockType)
  | creating (content : Content)
  | polling (content : Content)
  deriving DecidableEq

/-- A `ScopedLock` object. Its client is the thread that locked; `dropped` says that it was
released, or that the object was removed, since it was returned. The code does not know this:
`m_lockSet` stays true for ever. -/
structure ScopedLock where
  client : Thread
  type : LockType
  dropped : Bool
  deriving DecidableEq

/-- The object with its lockers, the threads and the lock objects they were given. `destroyed`
and `misreported` record that a locker removed an object that was not empty, and that one found
nothing and threw something else than `NoSuchObject`. -/
structure State where
  object : Option Content
  lockers : List (Thread × LockType)
  threads : Thread → Activity
  locks : Nat → Option ScopedLock
  destroyed : Bool
  misreported : Bool

def State.start : State := ⟨none, [], fun _ => .idle, fun _ => none, false, false⟩

def State.setThread (s : State) (t : Thread) (a : Activity) : State :=
  { s with threads := Function.update s.threads t a }

def State.setLock (s : State) (l : Nat) (k : Option ScopedLock) : State :=
  { s with locks := Function.update s.locks l k }

def State.removeObject (s : State) : State :=
  { s with object := none
           lockers := []
           locks := fun l => (s.locks l).map fun k => { k with dropped := true } }

def State.lockable (s : State) (t : Thread) : LockType → Bool
  | .exclusive => s.lockers.isEmpty
  | .shared => s.lockers.all fun k => k.1 ≠ t ∧ k.2 = .shared

/-- An object that does not exist is created by the lock. Otherwise the call waits or throws. -/
def State.lock (s : State) (t : Thread) (type : LockType) : Option State :=
  if s.threads t = .idle ∧ s.lockable t type = true then
    some ({ s with object := some (s.object.getD []), lockers := (t, type) :: s.lockers }.setThread
      t (.stating type))
  else none

def State.stat (s : State) (t : Thread) (l : Nat) : Option State :=
  match s.threads t with
  | .stating type =>
    match s.object with
    | none => some { s.setThread t .idle with misreported := true }
    | some [] => some (s.setThread t (.removingEmpty type))
    | some (_ :: _) =>
      if s.locks l = none then some ((s.setLock l (some ⟨t, type, false⟩)).setThread t .idle)
      else none
  | _ => none

def State.removeEmpty (s : State) (t : Thread) : Option State :=
  match s.threads t with
  | .removingEmpty _ =>
    match s.object with
    | none => some { s.setThread t .idle with misreported := true }
    | some c => some { s.removeObject.setThread t .idle with destroyed := s.destroyed || c ≠ [] }
  | _ => none

def State.operate (s : State) (t : Thread) (content : Content) : State :=
  match s.object with
  | none => { s with object := some content }.setThread t .idle
  | some _ => s.setThread t (.polling content)

def State.create (s : State) (t : Thread) (content : Content) : Option State :=
  if s.threads t = .idle ∧ content ≠ [] then some (s.operate t content) else none

def State.poll (s : State) (t : Thread) (late : Bool) : Option State :=
  match s.threads t with
  | .polling content =>
    match s.object with
    | none => some (s.setThread t (.creating content))
    | some c => if c ≠ [] ∨ late then some (s.setThread t .idle) else some s
  | _ => none

def State.retry (s : State) (t : Thread) : Option State :=
  match s.threads t with
  | .creating content => some (s.operate t content)
  | _ => none

def State.unlock (s : State) (client : Thread) : State :=
  { s with lockers := s.lockers.filter (·.1 ≠ client) }

def State.release (s : State) (l : Nat) : Option State :=
  match s.locks l with
  | some k => some ((s.unlock k.client).setLock l (some { k with dropped := true }))
  | none => none

def State.destroy (s : State) (l : Nat) : Option State :=
  match s.locks l with
  | some k => some ((s.unlock k.client).setLock l none)
  | none => none

def State.remove (s : State) (t : Thread) : Option State :=
  if s.threads t = .idle ∧ s.object ≠ none then some s.removeObject else none

inductive Event where
  | lock (t : Thread) (type : LockType)
  | stat (t : Thread) (l : Nat)
  | removeEmpty (t : Thread)
  | create (t : Thread) (content : Content)
  | poll (t : Thread) (late : Bool)
  | retry (t : Thread)
  | release (l : Nat)
  | destroy (l : Nat)
  | remove (t : Thread)

/-- `none`: the thread waits, is elsewhere, or the call throws and changes nothing. -/
def next (s : State) : Event → Option State
  | .lock t type => s.lock t type
  | .stat t l => s.stat t l
  | .removeEmpty t => s.removeEmpty t
  | .create t content => s.create t content
  | .poll t late => s.poll t late
  | .retry t => s.retry t
  | .release l => s.release l
  | .destroy l => s.destroy l
  | .remove t => s.remove t

def step (s : State) (e : Event) : State := (next s e).getD s

theorem destroyed_of_lost {s u : State} {e : Event} {c : Content} (h : next s e = some u)
    (hc : c ≠ []) (ho : s.object = some c) (hu : u.object = none) (he : ∀ t, e ≠ .remove t) :
    u.destroyed = true := by
  cases e with
  | lock t type => grind [next, State.lock, State.setThread]
  | stat t l => grind [next, State.stat, State.setThread, State.setLock]
  | removeEmpty t => grind [next, State.removeEmpty, State.setThread, State.removeObject]
  | create t content => grind [next, State.create, State.operate, State.setThread]
  | poll t late => grind [next, State.poll, State.setThread]
  | retry t => grind [next, State.retry, State.operate, State.setThread]
  | release l => grind [next, State.release, State.unlock, State.setLock]
  | destroy l => grind [next, State.destroy, State.unlock, State.setLock]
  | remove t => exact absurd rfl (he t)
/-- The thread has the lock and has not yet returned it to its caller. -/
def Activity.locking : Activity → Bool
  | .stating _ | .removingEmpty _ => true
  | _ => false

/-- What the callers rely on. An empty object is there only while a locker deals with it; a lock
that was returned stays in force until it is released or the object is removed; an exclusive one
keeps other threads out. -/
structure Safe (s : State) : Prop where
  kept : s.destroyed = false
  reported : s.misreported = false
  nothingLeft : s.object = some [] → ∃ t, (s.threads t).locking = true
  inForce : ∀ l k, s.locks l = some k → k.dropped = false → (k.client, k.type) ∈ s.lockers
  exclusive : ∀ l k l' k', s.locks l = some k → s.locks l' = some k' → k.dropped = false →
    k'.dropped = false → k.type = .exclusive → k'.client = k.client

/-- The object is not removed, by a call of `remove` or by a locker that found it empty, while
another thread is behind its lock; and a lock object that was released, or lost its lock with
the object, is not released again while its thread has a lock. -/
def Proper (s : State) : Event → Prop
  | .remove _ => ∀ t', (s.threads t').locking = false
  | .removeEmpty t => ∀ t', t' ≠ t → (s.threads t').locking = false
  | .release l | .destroy l =>
    ∀ k ∈ s.locks l, k.dropped = true → ∀ x ∈ s.lockers, x.1 ≠ k.client
  | _ => True

variable {s u : State} {t : Thread} {l : Nat}

def ThreadOk (s : State) (t : Thread) : Activity → Prop
  | .idle => True
  | .stating type => (t, type) ∈ s.lockers ∧ s.object ≠ none
  | .removingEmpty _ => s.object = some []
  | .creating c | .polling c => c ≠ []

structure LockOk (s : State) (k : ScopedLock) : Prop where
  locker : (k.client, k.type) ∈ s.lockers
  object : ∃ c, c ≠ [] ∧ s.object = some c
  returned : (s.threads k.client).locking = false

structure Ok (s : State) : Prop where
  kept : s.destroyed = false
  reported : s.misreported = false
  nothingLeft : s.object = some [] → ∃ t, (s.threads t).locking = true
  thread : ∀ t, ThreadOk s t (s.threads t)
  held : ∀ l k, s.locks l = some k → k.dropped = false → LockOk s k
  one : ∀ l k l' k', s.locks l = some k → s.locks l' = some k' → k.dropped = false →
    k'.dropped = false → k.client = k'.client → l = l'
  alone : ∀ x ∈ s.lockers, x.2 = .exclusive → ∀ y ∈ s.lockers, y = x

theorem Ok.safe (hok : Ok s) : Safe s where
  kept := hok.kept
  reported := hok.reported
  nothingLeft := hok.nothingLeft
  inForce l k hk hd := (hok.held l k hk hd).locker
  exclusive l k l' k' hk hk' hd hd' he := by
    have hx := (hok.held l k hk hd).locker
    have hy := (hok.held l' k' hk' hd').locker
    have := hok.alone _ hx he _ hy
    exact congrArg Prod.fst this

theorem Ok.start : Ok .start where
  kept := rfl
  reported := rfl
  nothingLeft := nofun
  thread _ := trivial
  held := nofun
  one := nofun
  alone := nofun

theorem threads_setThread {a : Activity} (t' : Thread) :
    (s.setThread t a).threads t' = if t' = t then a else s.threads t' := by
  simp [State.setThread, Function.update_apply]

theorem thread_setThread {a : Activity} (hs : ∀ t', t' ≠ t → ThreadOk s t' (s.threads t'))
    (ha : ThreadOk s t a) (t' : Thread) :
    ThreadOk (s.setThread t a) t' ((s.setThread t a).threads t') := by
  have hsame : ∀ b, ThreadOk s t' b → ThreadOk (s.setThread t a) t' b := by
    intro b hb
    cases b with
    | idle => trivial
    | stating type => exact hb
    | removingEmpty type => exact hb
    | creating c => exact hb
    | polling c => exact hb
  rw [threads_setThread]
  by_cases he : t' = t
  · rw [if_pos he]
    exact hsame a (he ▸ ha)
  · rw [if_neg he]
    exact hsame _ (hs t' he)

theorem locks_setLock {o : Option ScopedLock} {l' : Nat} {k : ScopedLock}
    (h : (s.setLock l o).locks l' = some k) :
    l' = l ∧ o = some k ∨ l' ≠ l ∧ s.locks l' = some k := by
  by_cases he : l' = l
  · subst he
    exact .inl ⟨rfl, by simpa [State.setLock] using h⟩
  · exact .inr ⟨he, by simpa [State.setLock, he] using h⟩

theorem LockOk.setThread {k : ScopedLock} {a : Activity} (hk : LockOk s k) (hne : k.client ≠ t) :
    LockOk (s.setThread t a) k where
  locker := hk.locker
  object := hk.object
  returned := by
    rw [threads_setThread, if_neg hne]
    exact hk.returned

theorem Ok.object_ne_none (hok : Ok s) (ht : (s.threads t).locking = true) : s.object ≠ none := by
  have hthread := hok.thread t
  cases ha : s.threads t with
  | stating type =>
    rw [ha] at hthread
    exact hthread.2
  | removingEmpty type =>
    rw [ha] at hthread
    have : s.object = some [] := hthread
    simp [this]
  | idle => simp [ha, Activity.locking] at ht
  | creating c => simp [ha, Activity.locking] at ht
  | polling c => simp [ha, Activity.locking] at ht

theorem Ok.client_ne (hok : Ok s) (ht : (s.threads t).locking = true) {k : ScopedLock}
    (hk : s.locks l = some k) (hd : k.dropped = false) : k.client ≠ t := by
  intro he
  have := (hok.held l k hk hd).returned
  rw [he, ht] at this
  cases this

theorem lockable_spec {type : LockType} (h : s.lockable t type = true) :
    (∀ x ∈ s.lockers, x.1 ≠ t ∧ x.2 = .shared) ∧ (type = .exclusive → s.lockers = []) := by
  cases type with
  | exclusive =>
    have hnil : s.lockers = [] := by simpa [State.lockable] using h
    simp [hnil]
  | shared =>
    have hall : ∀ x ∈ s.lockers, x.1 ≠ t ∧ x.2 = .shared := by
      simpa [State.lockable] using h
    exact ⟨hall, nofun⟩

theorem Ok.lock (hok : Ok s) {type : LockType} (h : s.lock t type = some u) : Ok u := by
  unfold State.lock at h
  split at h
  · next hg =>
    cases h
    obtain ⟨hshared, hexcl⟩ := lockable_spec hg.2
    have hsome : ∀ c, s.object = some c → some (s.object.getD []) = some c := by
      intro c hc
      rw [hc]
      rfl
    constructor
    · exact hok.kept
    · exact hok.reported
    · exact fun _ => ⟨t, by simp [threads_setThread, Activity.locking]⟩
    · refine thread_setThread (fun t' _ => ?_) ⟨List.mem_cons_self, nofun⟩
      have ht' := hok.thread t'
      change ThreadOk _ t' (s.threads t')
      cases ha : s.threads t' with
      | idle => trivial
      | stating type' =>
        rw [ha] at ht'
        exact ⟨List.mem_cons_of_mem _ ht'.1, nofun⟩
      | removingEmpty type' =>
        rw [ha] at ht'
        exact hsome [] ht'
      | creating c =>
        rw [ha] at ht'
        exact ht'
      | polling c =>
        rw [ha] at ht'
        exact ht'
    · intro l k hk hd
      have hlock := hok.held l k hk hd
      obtain ⟨c, hne, hc⟩ := hlock.object
      refine LockOk.setThread ⟨List.mem_cons_of_mem _ hlock.locker, ⟨c, hne, hsome c hc⟩,
        hlock.returned⟩ ?_
      exact (hshared _ hlock.locker).1
    · exact hok.one
    · intro x hx he y hy
      -- an exclusive lock is taken only where there is none, a shared one beside shared ones
      cases List.mem_cons.mp hx with
      | inl hxt =>
        subst hxt
        have hnil := hexcl he
        simpa [State.setThread, hnil] using hy
      | inr hx =>
        have := (hshared x hx).2
        rw [he] at this
        cases this
  · cases h

theorem Ok.stat (hok : Ok s) (h : s.stat t l = some u) : Ok u := by
  unfold State.stat at h
  split at h
  · next type ht =>
    have hlocking : (s.threads t).locking = true := by simp [ht, Activity.locking]
    have hthread := hok.thread t
    rw [ht] at hthread
    split at h
    · next ho => exact absurd ho (hok.object_ne_none hlocking)
    · next ho =>
      cases h
      constructor
      · exact hok.kept
      · exact hok.reported
      · exact fun _ => ⟨t, by simp [threads_setThread, Activity.locking]⟩
      · exact thread_setThread (fun t' _ => hok.thread t') ho
      · exact fun l k hk hd => (hok.held l k hk hd).setThread (hok.client_ne hlocking hk hd)
      · exact hok.one
      · exact hok.alone
    · next c cs ho =>
      split at h
      · next hfree =>
        cases h
        constructor
        · exact hok.kept
        · exact hok.reported
        · intro he
          have he : s.object = some [] := he
          rw [ho] at he
          cases he
        · exact thread_setThread (fun t' _ => hok.thread t') trivial
        · intro l' k hk hd
          cases locks_setLock (s := s) hk with
          | inl hnew =>
            cases hnew.2
            refine ⟨hthread.1, ⟨c :: cs, nofun, ho⟩, ?_⟩
            rw [threads_setThread, if_pos rfl]
            rfl
          | inr hold =>
            have hlock := hok.held l' k hold.2 hd
            refine LockOk.setThread ⟨hlock.locker, hlock.object, hlock.returned⟩ ?_
            exact hok.client_ne hlocking hold.2 hd
        · intro l₁ k₁ l₂ k₂ h₁ h₂ hd₁ hd₂ he
          cases locks_setLock (s := s) h₁ with
          | inl hnew₁ =>
            cases locks_setLock (s := s) h₂ with
            | inl hnew₂ => rw [hnew₁.1, hnew₂.1]
            | inr hold₂ =>
              cases hnew₁.2
              exact absurd he.symm (hok.client_ne hlocking hold₂.2 hd₂)
          | inr hold₁ =>
            cases locks_setLock (s := s) h₂ with
            | inl hnew₂ =>
              cases hnew₂.2
              exact absurd he (hok.client_ne hlocking hold₁.2 hd₁)
            | inr hold₂ => exact hok.one l₁ k₁ l₂ k₂ hold₁.2 hold₂.2 hd₁ hd₂ he
        · exact hok.alone
      · cases h
  · cases h

theorem Ok.removeObject (hok : Ok s) (hp : ∀ t', t' ≠ t → (s.threads t').locking = false) :
    Ok (s.removeObject.setThread t .idle) := by
  have hdropped : ∀ l k, s.removeObject.locks l = some k → k.dropped = true := by
    intro l k hk
    obtain ⟨k', -, rfl⟩ := Option.map_eq_some_iff.mp hk
    rfl
  constructor
  · exact hok.kept
  · exact hok.reported
  · exact nofun
  · refine thread_setThread (fun t' hne => ?_) trivial
    have ht' := hok.thread t'
    have hl := hp t' hne
    change ThreadOk _ t' (s.threads t')
    cases ha : s.threads t' with
    | idle => trivial
    | stating type => simp [ha, Activity.locking] at hl
    | removingEmpty type => simp [ha, Activity.locking] at hl
    | creating c =>
      rw [ha] at ht'
      exact ht'
    | polling c =>
      rw [ha] at ht'
      exact ht'
  · intro l k hk hd
    rw [hdropped l k hk] at hd
    cases hd
  · intro l k l' k' hk _ hd
    rw [hdropped l k hk] at hd
    cases hd
  · exact nofun

theorem Ok.removeEmpty (hok : Ok s) (h : s.removeEmpty t = some u)
    (hp : Proper s (.removeEmpty t)) : Ok u := by
  unfold State.removeEmpty at h
  split at h
  · next type ht =>
    have ho : s.object = some [] := by simpa [ht, ThreadOk] using hok.thread t
    simp only [ho] at h
    cases h
    have hkept : (s.destroyed || decide (([] : Content) ≠ [])) = s.destroyed := by simp
    rw [hkept]
    exact hok.removeObject hp
  · cases h

theorem setThread_self (ht : s.threads t = .idle) : s.setThread t .idle = s := by
  simp [State.setThread, ← ht]

theorem Ok.remove (hok : Ok s) (h : s.remove t = some u) (hp : Proper s (.remove t)) : Ok u := by
  unfold State.remove at h
  split at h
  · next hg =>
    cases h
    have := hok.removeObject (t := t) fun t' _ => hp t'
    rwa [setThread_self (s := s.removeObject) hg.1] at this
  · cases h

theorem Ok.setThread (hok : Ok s) {a : Activity} (ht : (s.threads t).locking = false)
    (ha : a.locking = false) (hthread : ThreadOk s t a) : Ok (s.setThread t a) := by
  constructor
  · exact hok.kept
  · exact hok.reported
  · intro he
    obtain ⟨t', hl⟩ := hok.nothingLeft he
    have hne : t' ≠ t := by
      intro he
      rw [he, ht] at hl
      cases hl
    exact ⟨t', by rwa [threads_setThread, if_neg hne]⟩
  · exact thread_setThread (fun t' _ => hok.thread t') hthread
  · intro l k hk hd
    have hlock := hok.held l k hk hd
    by_cases he : k.client = t
    · refine ⟨hlock.locker, hlock.object, ?_⟩
      rwa [threads_setThread, if_pos he]
    · exact hlock.setThread he
  · exact hok.one
  · exact hok.alone

theorem Ok.operate (hok : Ok s) {content : Content} (hc : content ≠ [])
    (ht : (s.threads t).locking = false) : Ok (s.operate t content) := by
  unfold State.operate
  cases ho : s.object with
  | none =>
    have hfree : ∀ t', (s.threads t').locking = false := by
      intro t'
      by_contra hl
      exact hok.object_ne_none (by simpa using hl) ho
    have hnone : ∀ l k, s.locks l = some k → k.dropped = true := by
      intro l k hk
      by_contra hd
      obtain ⟨c, -, hs⟩ := (hok.held l k hk (by simpa using hd)).object
      rw [ho] at hs
      cases hs
    constructor
    · exact hok.kept
    · exact hok.reported
    · intro he
      exact absurd (Option.some.inj he) hc
    · refine thread_setThread (fun t' _ => ?_) trivial
      have ht' := hok.thread t'
      have hl := hfree t'
      change ThreadOk _ t' (s.threads t')
      cases ha : s.threads t' with
      | idle => trivial
      | stating type => simp [ha, Activity.locking] at hl
      | removingEmpty type => simp [ha, Activity.locking] at hl
      | creating c =>
        rw [ha] at ht'
        exact ht'
      | polling c =>
        rw [ha] at ht'
        exact ht'
    · intro l k hk hd
      rw [hnone l k hk] at hd
      cases hd
    · exact hok.one
    · exact hok.alone
  | some c => exact hok.setThread ht rfl hc

theorem Ok.create (hok : Ok s) {content : Content} (h : s.create t content = some u) : Ok u := by
  unfold State.create at h
  split at h
  · next hg =>
    cases h
    exact hok.operate hg.2 (by simp [hg.1, Activity.locking])
  · cases h

theorem Ok.poll (hok : Ok s) {late : Bool} (h : s.poll t late = some u) : Ok u := by
  unfold State.poll at h
  split at h
  · next content ht =>
    have hl : (s.threads t).locking = false := by simp [ht, Activity.locking]
    have hc : content ≠ [] := by simpa [ht, ThreadOk] using hok.thread t
    split at h
    · cases h
      exact hok.setThread hl rfl hc
    · split at h
      · cases h
        exact hok.setThread hl rfl trivial
      · cases h
        exact hok
  · cases h

theorem Ok.retry (hok : Ok s) (h : s.retry t = some u) : Ok u := by
  unfold State.retry at h
  split at h
  · next content ht =>
    cases h
    have hc : content ≠ [] := by simpa [ht, ThreadOk] using hok.thread t
    exact hok.operate hc (by simp [ht, Activity.locking])
  · cases h

/-- Unlocking takes away no other lock: one in force is the only one of its client, and behind
one that is not there is nothing to unlock. -/
theorem Ok.unlock (hok : Ok s) {k : ScopedLock} (hk : s.locks l = some k)
    (hp : k.dropped = true → ∀ x ∈ s.lockers, x.1 ≠ k.client) {locks : Nat → Option ScopedLock}
    (hlocks : ∀ l' k', locks l' = some k' → k'.dropped = false → l' ≠ l ∧ s.locks l' = some k') :
    Ok { s.unlock k.client with locks := locks } := by
  have hkeep : ∀ x ∈ s.lockers, x.1 ≠ k.client → x ∈ (s.unlock k.client).lockers := by
    intro x hx hne
    simp [State.unlock, hx, hne]
  constructor
  · exact hok.kept
  · exact hok.reported
  · exact hok.nothingLeft
  · intro t'
    have ht' := hok.thread t'
    change ThreadOk _ t' (s.threads t')
    cases ha : s.threads t' with
    | idle => trivial
    | stating type =>
      rw [ha] at ht'
      refine ⟨hkeep _ ht'.1 ?_, ht'.2⟩
      cases hd : k.dropped with
      | true => exact hp hd _ ht'.1
      | false => exact (hok.client_ne (by simp [ha, Activity.locking]) hk hd).symm
    | removingEmpty type =>
      rw [ha] at ht'
      exact ht'
    | creating c =>
      rw [ha] at ht'
      exact ht'
    | polling c =>
      rw [ha] at ht'
      exact ht'
  · intro l' k' hk' hd'
    obtain ⟨hne, hk'⟩ := hlocks l' k' hk' hd'
    have hlock := hok.held l' k' hk' hd'
    refine ⟨hkeep _ hlock.locker ?_, hlock.object, hlock.returned⟩
    cases hd : k.dropped with
    | true => exact hp hd _ hlock.locker
    | false => exact fun he => hne (hok.one l' k' l k hk' hk hd' hd he)
  · intro l₁ k₁ l₂ k₂ h₁ h₂ hd₁ hd₂
    exact hok.one l₁ k₁ l₂ k₂ (hlocks l₁ k₁ h₁ hd₁).2 (hlocks l₂ k₂ h₂ hd₂).2 hd₁ hd₂
  · intro x hx he y hy
    exact hok.alone x (List.mem_of_mem_filter hx) he y (List.mem_of_mem_filter hy)

theorem Ok.release (hok : Ok s) (h : s.release l = some u) (hp : Proper s (.release l)) :
    Ok u := by
  unfold State.release at h
  split at h
  · next k hk =>
    cases h
    refine hok.unlock hk (hp k hk) fun l' k' hk' hd' => ?_
    cases locks_setLock (s := s.unlock k.client) hk' with
    | inl hnew =>
      rw [← Option.some.inj hnew.2] at hd'
      cases hd'
    | inr hold => exact hold
  · cases h

theorem Ok.destroy (hok : Ok s) (h : s.destroy l = some u) (hp : Proper s (.destroy l)) :
    Ok u := by
  unfold State.destroy at h
  split at h
  · next k hk =>
    cases h
    refine hok.unlock hk (hp k hk) fun l' k' hk' hd' => ?_
    cases locks_setLock (s := s.unlock k.client) hk' with
    | inl hnew => cases hnew.2
    | inr hold => exact hold
  · cases h

theorem Ok.next (hok : Ok s) {e : Event} (hp : Proper s e) (h : next s e = some u) : Ok u := by
  cases e with
  | lock t type => exact hok.lock h
  | stat t l => exact hok.stat h
  | removeEmpty t => exact hok.removeEmpty h hp
  | create t content => exact hok.create h
  | poll t late => exact hok.poll h
  | retry t => exact hok.retry h
  | release l => exact hok.release h hp
  | destroy l => exact hok.destroy h hp
  | remove t => exact hok.remove h hp

theorem Ok.step (hok : Ok s) (e : Event) (hp : Proper s e) : Ok (step s e) := by
  unfold RadosLocks.step
  cases h : RadosLocks.next s e with
  | none => exact hok
  | some u => exact hok.next hp h

end Cta.ObjectStore.RadosLocks

import Cta.ObjectStore.RunningAgent
import Mathlib.Data.List.Perm.Basic

/-! When the cleanup of an agent that still works orphans nothing: the condition on its steps,
what holds while they meet it, and what a step leaves alone. -/
namespace Cta.ObjectStore.RunningAgent
variable {R : Requests} {s t : State} {q : QueueName} {i : Nat} {j : Job} {mine : Holder → Prop}

/-- Where a job has to be known for its owner to find it again. -/
def HasHome (s : State) (j : Job) : Owner → Prop
  | .queue q => j ∈ s.references q
  | .agent => ∃ a ∈ s.agent, j.request ∈ a.ownership
  | .otherAgent n => ∃ a ∈ s.otherAgents n, j.request ∈ a.ownership

/-- Each job is owned by a queue that references it or by an agent that exists and lists it. -/
def OrphansNothing (s : State) : Prop := ∀ j, ∀ o ∈ s.owner j, HasHome s j o

def NoneOwned (s : State) (r : Request) : Prop :=
  ∀ j, s.owner j = some .agent → j.request ≠ r

def OnlyReference (s : State) (q : QueueName) (j : Job) : Prop :=
  ∀ j' ∈ s.references q, j'.request = j.request → j' = j

instance : Decidable (OnlyReference s q j) :=
  inferInstanceAs (Decidable (∀ j' ∈ s.references q, j'.request = j.request → j' = j))

def Operation.requests : Operation → List Request
  | .idle => []
  | .popping _ candidates _ _ => requestsOf candidates
  | .referencing _ elements _ _ => requestsOf elements
  | .unowning requests => requests

/-- Before the collector comes: nothing is under way, nothing is orphaned, and the agent has
at most one job of each request. -/
structure Start (R : Requests) (s : State) : Prop where
  dumped : ∀ j, s.owner j ≠ none → j ∈ R.dumpJobs j.request
  home : OrphansNothing s
  one : ∀ j j', s.owner j = some .agent → s.owner j' = some .agent → j.request = j'.request → j = j'
  idle : ∀ i, s.operations i = .idle
  watching : s.collector = .watching
  passedOver : s.passedOver = []

def NotAtHand (s : State) (i : Nat) (r : Request) : Prop :=
  ∀ k, k ≠ i → r ∉ (s.operations k).requests

/-- The steps that do what they are meant to do.

A thread takes on one job of a request at a time: what it takes on is at hand nowhere else in
the agent, and is the only job of its request in the queue. An owner update of a pop comes
before the collector has passed the request over. An update that moves a retrieve request to a
queue does not find it there already. A batch of retrieve requests that adds no reference has
nothing left to take from the agent. -/
def Proper (R : Requests) (s : State) : Event → Prop
  | .pop i q candidates =>
    (requestsOf candidates).Nodup ∧ ∀ j ∈ candidates,
      (∀ j' ∈ R.dumpJobs j.request, s.owner j' ≠ some .agent) ∧ NotAtHand s i j.request ∧
        OnlyReference s q j
  | .reference i q elements => ∀ j ∈ elements,
      (∀ j' ∈ R.dumpJobs j.request, s.owner j' = some .agent → j' = j) ∧
        NotAtHand s i j.request ∧ OnlyReference s q j ∧
          ∀ j' ∈ elements, j'.request = j.request → j' = j
  | .popUpdate i j =>
    match s.operations i with
    | .popping q _ _ _ => s.owner j = some (.queue q) → j.request ∉ s.passedOver
    | _ => True
  | .referenceUpdate i j =>
    match s.operations i with
    | .referencing q _ _ _ => j.isRetrieve = true → s.owner j ≠ some (.queue q)
    | _ => True
  | .requeueArchive q tapePool picked => ∀ j ∈ R.jobsToAdd tapePool picked,
      OnlyReference s q j ∧ ∀ j' ∈ R.jobsToAdd tapePool picked, j'.request = j.request → j' = j
  | .requeueRetrieve q picked =>
    s.jobsToReallyAdd q picked = [] → ∀ j ∈ picked, s.owner j ≠ some .agent
  | .requeueUpdate j =>
    match s.collector with
    | .requeueing q _ _ _ _ _ => j.isRetrieve = true → s.owner j ≠ some (.queue q)
    | _ => True
  | _ => True

def Operation.pending : Operation → List Request
  | .popping _ _ toUpdate _ => requestsOf toUpdate
  | _ => []

def Pending (s : State) (r : Request) : Prop := ∃ i, r ∈ (s.operations i).pending

/-- A batch of jobs on its way from the agent to a queue. -/
structure Switching (s : State) (holder : Holder) (q : QueueName)
    (jobs toUpdate failed : List Job) : Prop where
  lock : s.lock q = some holder
  toUpdate_sub : ∀ j ∈ toUpdate, j ∈ jobs
  failed_sub : ∀ j ∈ failed, j ∈ jobs
  referenced : ∀ j ∈ jobs, j ∈ s.references q
  unique : ∀ j ∈ jobs, OnlyReference s q j
  failed_owner : ∀ j ∈ failed, s.owner j ≠ some (.queue q) ∧ s.owner j ≠ some .agent
  updated : ∀ j ∈ jobs, j ∉ toUpdate → s.owner j ≠ some .agent
  only : ∀ j ∈ jobs, ∀ j', s.owner j' = some .agent → j'.request = j.request → j' = j

/-- The request is in the agent's list, unless the collector passed it over. -/
def Listed (s : State) (r : Request) : Prop :=
  r ∈ s.passedOver ∨ ∃ a ∈ s.agent, r ∈ a.ownership

/-- A batch of jobs on its way from a queue to the agent. -/
structure Popping (s : State) (holder : Holder) (q : QueueName)
    (candidates toUpdate failed : List Job) : Prop where
  lock : s.lock q = some holder
  toUpdate_sub : ∀ j ∈ toUpdate, j ∈ candidates
  failed_sub : ∀ j ∈ failed, j ∈ candidates
  unique : ∀ j ∈ candidates, OnlyReference s q j
  nodup : (requestsOf (toUpdate ++ failed)).Nodup
  updated : ∀ j ∈ candidates, j ∉ toUpdate → s.owner j ≠ some (.queue q)
  notOwned : ∀ r ∈ requestsOf (toUpdate ++ failed), NoneOwned s r
  listed : ∀ r ∈ requestsOf toUpdate, Listed s r

def OperationOk (s : State) (i : Nat) : Operation → Prop
  | .idle => True
  | .popping q candidates toUpdate failed =>
    Popping s (.operation i) q candidates toUpdate failed
  | .referencing q elements toUpdate failed =>
    Switching s (.operation i) q elements toUpdate failed
  | .unowning requests => ∀ r ∈ requests, NoneOwned s r

/-- Nothing of the request can come into the agent's hands any more, and at most this job is
there. -/
structure Requeueable (R : Requests) (s : State) (j : Job) : Prop where
  dumped : j ∈ R.dumpJobs j.request
  notPending : ¬ Pending s j.request
  only : ∀ j', s.owner j' = some .agent → j'.request = j.request → j' = j

def CollectorOk (R : Requests) (s : State) : Collector → Prop
  | .watching | .stopped => True
  | .fetching _ gone skipped toRequeue =>
    (∀ r ∈ gone ++ skipped, r ∈ s.passedOver) ∧ ∀ j ∈ toRequeue, Requeueable R s j
  | .sorting skipped toRequeue =>
    (∀ r ∈ skipped, r ∈ s.passedOver) ∧ ∀ j ∈ toRequeue, Requeueable R s j
  | .updating toRequeue => ∀ j ∈ toRequeue, Requeueable R s j
  | .requeueing q picked batch toUpdate failed toRequeue =>
    Switching s .collector q batch toUpdate failed ∧ (∀ j ∈ picked, j ∈ batch) ∧
      (∀ j ∈ batch, ¬ Pending s j.request) ∧ ∀ j ∈ toRequeue, Requeueable R s j
  | .relinquishing requests toRequeue =>
    (∀ r ∈ requests, NoneOwned s r ∧ ¬ Pending s r) ∧ ∀ j ∈ toRequeue, Requeueable R s j
  | .collecting j q toRequeue =>
    (j.isRetrieve = true ∧ j ∈ s.references q ∧ s.lock q = some .collector ∧
      ¬ Pending s j.request) ∧ ∀ j ∈ toRequeue, Requeueable R s j

structure Ok (R : Requests) (s : State) : Prop where
  dumped : ∀ j, s.owner j ≠ none → j ∈ R.dumpJobs j.request
  home : OrphansNothing s
  one : ∀ j j', s.owner j = some .agent → s.owner j' = some .agent → j.request = j'.request → j = j'
  passedOver : ∀ r ∈ s.passedOver, NoneOwned s r
  operation : ∀ i, OperationOk s i (s.operations i)
  apart : ∀ i k r, r ∈ (s.operations i).requests → r ∈ (s.operations k).requests → i = k
  collector : CollectorOk R s s.collector

/-- Only the holder of a queue's lock changes its references or makes it an owner, the agent
comes to own jobs of `taken` requests only, and its list loses `dropped` requests only. -/
structure Frame (mine : Holder → Prop) (taken dropped : List Request) (s t : State) : Prop where
  lock : ∀ q k, s.lock q = some k → ¬ mine k → t.lock q = some k
  references : ∀ q k, s.lock q = some k → ¬ mine k → t.references q = s.references q
  queue : ∀ q k, s.lock q = some k → ¬ mine k →
    ∀ j, t.owner j = some (.queue q) → s.owner j = some (.queue q)
  agent : ∀ j, t.owner j = some .agent → s.owner j = some .agent ∨ j.request ∈ taken
  listed : ∀ r, r ∉ dropped → Listed s r → Listed t r

section
variable {taken dropped : List Request} {jobs toUpdate failed : List Job} {k : Holder}

theorem Frame.noneOwned (hf : Frame mine taken dropped s t) {r : Request} (hr : r ∉ taken)
    (hn : NoneOwned s r) : NoneOwned t r := by
  intro j hj he
  cases hf.agent j hj with
  | inl hs => exact hn j hs he
  | inr ht => exact hr (he ▸ ht)

theorem Frame.onlyReference (hf : Frame mine taken dropped s t) (hl : s.lock q = some k)
    (hk : ¬ mine k) (ho : OnlyReference s q j) : OnlyReference t q j := by
  intro j' hj'
  rw [hf.references q k hl hk] at hj'
  exact ho j' hj'

theorem mem_requestsOf {js : List Job} (hj : j ∈ js) : j.request ∈ requestsOf js :=
  List.mem_map_of_mem hj

theorem Switching.frame (hs : Switching s k q jobs toUpdate failed)
    (hf : Frame mine taken dropped s t) (hk : ¬ mine k) (ht : ∀ r ∈ requestsOf jobs, r ∉ taken) :
    Switching t k q jobs toUpdate failed where
  lock := hf.lock q k hs.lock hk
  toUpdate_sub := hs.toUpdate_sub
  failed_sub := hs.failed_sub
  referenced := by
    rw [hf.references q k hs.lock hk]
    exact hs.referenced
  unique j hj := hf.onlyReference hs.lock hk (hs.unique j hj)
  failed_owner j hj := by
    refine ⟨fun ho => (hs.failed_owner j hj).1 (hf.queue q k hs.lock hk j ho), fun ho => ?_⟩
    cases hf.agent j ho with
    | inl ho => exact (hs.failed_owner j hj).2 ho
    | inr hm => exact ht _ (mem_requestsOf (hs.failed_sub j hj)) hm
  updated j hj hn ho := by
    cases hf.agent j ho with
    | inl ho => exact hs.updated j hj hn ho
    | inr hm => exact ht _ (mem_requestsOf hj) hm
  only j hj j' ho he := by
    cases hf.agent j' ho with
    | inl ho => exact hs.only j hj j' ho he
    | inr hm => exact absurd hm (ht _ (he ▸ mem_requestsOf hj))

theorem requestsOf_append (js ks : List Job) :
    requestsOf (js ++ ks) = requestsOf js ++ requestsOf ks := List.map_append

theorem requestsOf_subset {js ks : List Job} (h : ∀ j ∈ js, j ∈ ks) :
    ∀ r ∈ requestsOf js, r ∈ requestsOf ks := by
  intro r hr
  obtain ⟨j, hj, rfl⟩ := List.mem_map.mp hr
  exact mem_requestsOf (h j hj)

theorem Popping.requests_sub {candidates : List Job}
    (hp : Popping s k q candidates toUpdate failed) :
    ∀ r ∈ requestsOf (toUpdate ++ failed), r ∈ requestsOf candidates := by
  apply requestsOf_subset
  intro j hj
  cases List.mem_append.mp hj with
  | inl hj => exact hp.toUpdate_sub j hj
  | inr hj => exact hp.failed_sub j hj

theorem Popping.frame {candidates : List Job} (hp : Popping s k q candidates toUpdate failed)
    (hf : Frame mine taken dropped s t) (hk : ¬ mine k)
    (ht : ∀ r ∈ requestsOf candidates, r ∉ taken)
    (hd : ∀ r ∈ requestsOf toUpdate, r ∉ dropped) :
    Popping t k q candidates toUpdate failed where
  lock := hf.lock q k hp.lock hk
  toUpdate_sub := hp.toUpdate_sub
  failed_sub := hp.failed_sub
  unique j hj := hf.onlyReference hp.lock hk (hp.unique j hj)
  nodup := hp.nodup
  updated j hj hn ho := hp.updated j hj hn (hf.queue q k hp.lock hk j ho)
  notOwned r hr := hf.noneOwned (ht r (hp.requests_sub r hr)) (hp.notOwned r hr)
  listed r hr := hf.listed r (hd r hr) (hp.listed r hr)

theorem OperationOk.frame {o : Operation} (ho : OperationOk s i o)
    (hf : Frame mine taken dropped s t) (hi : ¬ mine (.operation i))
    (ht : ∀ r ∈ o.requests, r ∉ taken) (hd : ∀ r ∈ o.pending, r ∉ dropped) :
    OperationOk t i o := by
  cases o with
  | idle => trivial
  | popping q candidates toUpdate failed => exact Popping.frame ho hf hi ht hd
  | referencing q elements toUpdate failed => exact Switching.frame ho hf hi ht
  | unowning requests => exact fun r hr => hf.noneOwned (ht r hr) (ho r hr)

theorem Requeueable.frame (hj : Requeueable R s j) (hf : Frame mine taken dropped s t)
    (hp : ∀ r, Pending t r → Pending s r) (ht : ∀ r ∈ taken, Pending s r) :
    Requeueable R t j where
  dumped := hj.dumped
  notPending h := hj.notPending (hp _ h)
  only j' ho he := by
    cases hf.agent j' ho with
    | inl ho => exact hj.only j' ho he
    | inr hm => exact absurd (he ▸ ht _ hm) hj.notPending

theorem CollectorOk.frame {c : Collector} (hc : CollectorOk R s c)
    (hf : Frame mine taken dropped s t) (hh : ¬ mine .collector)
    (hp : ∀ r, Pending t r → Pending s r) (ht : ∀ r ∈ taken, Pending s r)
    (hpassed : ∀ r ∈ s.passedOver, r ∈ t.passedOver) : CollectorOk R t c := by
  have hqueue : ∀ {js : List Job}, (∀ j ∈ js, Requeueable R s j) → ∀ j ∈ js, Requeueable R t j :=
    fun hr j hj => (hr j hj).frame hf hp ht
  have hnot : ∀ {r : Request}, ¬ Pending s r → r ∉ taken := fun hn hm => hn (ht _ hm)
  cases c with
  | watching => trivial
  | stopped => trivial
  | fetching toRead gone skipped toRequeue =>
    exact ⟨fun r hr => hpassed r (hc.1 r hr), hqueue hc.2⟩
  | sorting skipped toRequeue => exact ⟨fun r hr => hpassed r (hc.1 r hr), hqueue hc.2⟩
  | updating toRequeue => exact hqueue hc
  | requeueing q picked batch toUpdate failed toRequeue =>
    obtain ⟨hs, hpicked, hbatch, hr⟩ := hc
    refine ⟨hs.frame hf hh ?_, hpicked, fun j hj h => hbatch j hj (hp _ h), hqueue hr⟩
    intro r hm
    obtain ⟨j, hj, rfl⟩ := List.mem_map.mp hm
    exact hnot (hbatch j hj)
  | relinquishing requests toRequeue =>
    refine ⟨fun r hr => ?_, hqueue hc.2⟩
    have hn := hc.1 r hr
    exact ⟨hf.noneOwned (hnot hn.2) hn.1, fun h => hn.2 (hp r h)⟩
  | collecting j q toRequeue =>
    obtain ⟨⟨hret, href, hlock, hn⟩, hr⟩ := hc
    refine ⟨⟨hret, ?_, hf.lock q _ hlock hh, fun h => hn (hp _ h)⟩, hqueue hr⟩
    rw [hf.references q _ hlock hh]
    exact href

end

theorem CollectorOk.of_not_active {c : Collector} (hc : c.active = false) : CollectorOk R s c := by
  cases c with
  | watching => trivial
  | stopped => trivial
  | fetching | sorting | updating | requeueing | relinquishing | collecting => cases hc

theorem OperationOk.pending_sub {o : Operation} (ho : OperationOk s i o) :
    ∀ r ∈ o.pending, r ∈ o.requests := by
  cases o with
  | idle => exact fun _ hr => hr
  | popping q candidates toUpdate failed => exact requestsOf_subset (Popping.toUpdate_sub ho)
  | referencing q elements toUpdate failed => exact fun _ hr => absurd hr List.not_mem_nil
  | unowning requests => exact fun _ hr => absurd hr List.not_mem_nil

theorem Frame.one {dropped : List Request} (hf : Frame mine [] dropped s t)
    (h : ∀ j j', s.owner j = some .agent → s.owner j' = some .agent → j.request = j'.request →
      j = j') (j j' : Job) (hj : t.owner j = some .agent) (hj' : t.owner j' = some .agent)
    (he : j.request = j'.request) : j = j' := by
  have hold : ∀ j, t.owner j = some .agent → s.owner j = some .agent := by
    intro j hj
    cases hf.agent j hj with
    | inl ho => exact ho
    | inr hm => cases hm
  exact h j j' (hold j hj) (hold j' hj') he

theorem Ok.of_operation (hok : Ok R s) {o : Operation} {taken dropped : List Request}
    (hf : Frame (· = .operation i) taken dropped s t)
    (hops : t.operations = Function.update s.operations i o) (hown : OperationOk t i o)
    (hreq : ∀ r ∈ o.requests, r ∈ (s.operations i).requests ∨ NotAtHand s i r)
    (hpend : s.collector.active = false ∨ ∀ r ∈ o.pending, r ∈ (s.operations i).pending)
    (htaken : ∀ r ∈ taken, r ∈ (s.operations i).pending ∧ r ∉ s.passedOver)
    (hdropped : ∀ r ∈ dropped, r ∈ (s.operations i).requests)
    (hcol : t.collector = s.collector) (hpass : t.passedOver = s.passedOver)
    (hdump : ∀ j, t.owner j ≠ none → s.owner j ≠ none) (hhome : OrphansNothing t)
    (hone : ∀ j j', t.owner j = some .agent → t.owner j' = some .agent →
      j.request = j'.request → j = j') : Ok R t where
  dumped j hj := hok.dumped j (hdump j hj)
  home := hhome
  one := hone
  passedOver r hr := by
    rw [hpass] at hr
    exact hf.noneOwned (fun hm => (htaken r hm).2 hr) (hok.passedOver r hr)
  operation k := by
    rw [hops]
    by_cases hk : k = i
    · subst hk
      simpa using hown
    · rw [Function.update_of_ne hk]
      have hne : ¬ Holder.operation k = .operation i := by simpa using hk
      refine (hok.operation k).frame hf hne (fun r hr hm => ?_) fun r hr hm => ?_
      · have hi := (hok.operation i).pending_sub r (htaken r hm).1
        exact hk (hok.apart k i r hr hi)
      · have hr := (hok.operation k).pending_sub r hr
        exact hk (hok.apart k i r hr (hdropped r hm))
  apart := by
    have hnew : ∀ k, k ≠ i → ∀ r ∈ o.requests, r ∉ (s.operations k).requests := by
      intro k hk r hr hm
      cases hreq r hr with
      | inl hi => exact hk (hok.apart k i r hm hi)
      | inr hn => exact hn k hk hm
    intro k l r hk hl
    rw [hops] at hk hl
    by_cases hki : k = i
    · by_cases hli : l = i
      · rw [hki, hli]
      · subst hki
        rw [Function.update_self] at hk
        rw [Function.update_of_ne hli] at hl
        exact absurd hl (hnew l hli r hk)
    · rw [Function.update_of_ne hki] at hk
      by_cases hli : l = i
      · subst hli
        rw [Function.update_self] at hl
        exact absurd hk (hnew k hki r hl)
      · rw [Function.update_of_ne hli] at hl
        exact hok.apart k l r hk hl
  collector := by
    rw [hcol]
    cases hpend with
    | inl hidle => exact CollectorOk.of_not_active hidle
    | inr hless =>
      refine hok.collector.frame hf (by simp) (fun r hr => ?_) (fun r hr => ⟨i, (htaken r hr).1⟩)
        fun r hr => hpass ▸ hr
      obtain ⟨k, hr⟩ := hr
      rw [hops] at hr
      by_cases hk : k = i
      · subst hk
        rw [Function.update_self] at hr
        exact ⟨k, hless r hr⟩
      · rw [Function.update_of_ne hk] at hr
        exact ⟨k, hr⟩

theorem Ok.of_collector (hok : Ok R s) {dropped : List Request}
    (hf : Frame (· = .collector) [] dropped s t) (hops : t.operations = s.operations)
    (hdropped : ∀ r ∈ dropped, ¬ Pending s r) (hpass : ∀ r ∈ t.passedOver, NoneOwned t r)
    (hdump : ∀ j, t.owner j ≠ none → j ∈ R.dumpJobs j.request) (hhome : OrphansNothing t)
    (hcol : CollectorOk R t t.collector) : Ok R t where
  dumped := hdump
  home := hhome
  one := hf.one hok.one
  passedOver := hpass
  operation k := by
    rw [hops]
    refine (hok.operation k).frame hf (by simp) (fun _ _ hm => by cases hm) fun r hr hm => ?_
    exact hdropped r hm ⟨k, hr⟩
  apart := by
    rw [hops]
    exact hok.apart
  collector := hcol

theorem OrphansNothing.setOwner (hs : OrphansNothing s) {o : Owner} (ho : HasHome s j o) :
    OrphansNothing (s.setOwner j o) := by
  intro j' o' hj'
  by_cases he : j' = j
  · subst he
    have ho' : o' = o := by simpa [State.setOwner, eq_comm] using hj'
    subst ho'
    cases o' with
    | queue q => exact ho
    | agent => exact ho
    | otherAgent n => exact ho
  · have hj : o' ∈ s.owner j' := by simpa [State.setOwner, he] using hj'
    have := hs j' o' hj
    cases o' with
    | queue q => exact this
    | agent => exact this
    | otherAgent n => exact this

theorem OrphansNothing.setReferences (hs : OrphansNothing s) {js : List Job}
    (hjs : ∀ j ∈ s.references q, s.owner j = some (.queue q) → j ∈ js) :
    OrphansNothing (s.setReferences q js) := by
  intro j o hj
  have hj : o ∈ s.owner j := hj
  have home := hs j o hj
  cases o with
  | queue p =>
    by_cases hp : p = q
    · subst hp
      simpa [HasHome, State.setReferences] using hjs j home hj
    · simpa [HasHome, State.setReferences, hp] using home
  | agent => exact home
  | otherAgent n => exact home

theorem OrphansNothing.removeReferences (hs : OrphansNothing s) {js : List Job}
    (hu : ∀ j ∈ js, OnlyReference s q j) (ho : ∀ j ∈ js, s.owner j ≠ some (.queue q)) :
    OrphansNothing (s.removeReferences q js) := by
  refine hs.setReferences fun j hj hq => ?_
  simp only [List.mem_filter, hj, true_and, decide_eq_true_eq]
  intro hm
  obtain ⟨j', hj', he⟩ := List.mem_map.mp hm
  have := hu j' hj' j hj he.symm
  exact ho j' hj' (this ▸ hq)

theorem OrphansNothing.setAgent (hs : OrphansNothing s) {a : Option Agent}
    (ha : ∀ j, s.owner j = some .agent → ∃ b ∈ a, j.request ∈ b.ownership) :
    OrphansNothing (s.setAgent a) := by
  intro j o hj
  have hj : o ∈ s.owner j := hj
  have home := hs j o hj
  cases o with
  | queue p => exact home
  | agent => exact ha j hj
  | otherAgent n => exact home

theorem OrphansNothing.removeFromOwnership (hs : OrphansNothing s) {rs : List Request}
    (hn : ∀ r ∈ rs, NoneOwned s r) : OrphansNothing (s.removeFromOwnership rs) := by
  refine hs.setAgent fun j hj => ?_
  obtain ⟨a, ha, hm⟩ := hs j .agent hj
  refine ⟨a.removeFromOwnership rs, ?_, ?_⟩
  · rw [Option.mem_def.mp ha]
    rfl
  · simp only [Agent.removeFromOwnership, List.mem_filter, hm, true_and, decide_eq_true_eq]
    exact fun hr => hn _ hr j hj rfl

section
variable {taken dropped : List Request} {u : State}

theorem Frame.trans (hst : Frame mine taken dropped s t) (htu : Frame mine taken dropped t u) :
    Frame mine taken dropped s u where
  lock q k hk hm := htu.lock q k (hst.lock q k hk hm) hm
  references q k hk hm :=
    (htu.references q k (hst.lock q k hk hm) hm).trans (hst.references q k hk hm)
  queue q k hk hm j hj := hst.queue q k hk hm j (htu.queue q k (hst.lock q k hk hm) hm j hj)
  agent j hj := by
    cases htu.agent j hj with
    | inl ht => exact hst.agent j ht
    | inr hm => exact .inr hm
  listed r hr hs := htu.listed r hr (hst.listed r hr hs)

theorem Frame.setOwner {o : Owner} (hq : ∀ q k, o = .queue q → s.lock q = some k → mine k)
    (ha : o = .agent → j.request ∈ taken) : Frame mine taken dropped s (s.setOwner j o) where
  lock _ _ hk _ := hk
  references _ _ _ _ := rfl
  queue q k hk hm j' hj' := by
    by_cases he : j' = j
    · subst he
      have ho : o = .queue q := by simpa [State.setOwner] using hj'
      exact absurd (hq q k ho hk) hm
    · simpa [State.setOwner, he] using hj'
  agent j' hj' := by
    by_cases he : j' = j
    · subst he
      have ho : o = .agent := by simpa [State.setOwner] using hj'
      exact .inr (ha ho)
    · exact .inl (by simpa [State.setOwner, he] using hj')
  listed _ _ hr := hr

theorem Frame.setReferences {js : List Job} (hq : ∀ k, s.lock q = some k → mine k) :
    Frame mine taken dropped s (s.setReferences q js) where
  lock _ _ hk _ := hk
  references p k hk hm := by
    by_cases hp : p = q
    · subst hp
      exact absurd (hq k hk) hm
    · simp [State.setReferences, hp]
  queue _ _ _ _ _ hj := hj
  agent _ hj := .inl hj
  listed _ _ hr := hr

theorem Frame.setLock {l : Option Holder} (hq : ∀ k, s.lock q = some k → mine k) :
    Frame mine taken dropped s (s.setLock q l) where
  lock p k hk hm := by
    by_cases hp : p = q
    · subst hp
      exact absurd (hq k hk) hm
    · simpa [State.setLock, hp] using hk
  references _ _ _ _ := rfl
  queue _ _ _ _ _ hj := hj
  agent _ hj := .inl hj
  listed _ _ hr := hr

theorem Frame.of_eq (ho : t.owner = s.owner) (hr : t.references = s.references)
    (hl : t.lock = s.lock) (hlisted : ∀ r, r ∉ dropped → Listed s r → Listed t r) :
    Frame mine taken dropped s t where
  lock q k hk _ := hl ▸ hk
  references q k _ _ := by rw [hr]
  queue _ _ _ _ j hj := ho ▸ hj
  agent j hj := .inl (ho ▸ hj)
  listed := hlisted

theorem Frame.refl : Frame mine taken dropped s s := .of_eq rfl rfl rfl fun _ _ hr => hr

theorem Frame.setAgent {a : Option Agent}
    (hl : ∀ r, r ∉ dropped → Listed s r → Listed (s.setAgent a) r) :
    Frame mine taken dropped s (s.setAgent a) := .of_eq rfl rfl rfl hl

theorem Frame.setOperation {o : Operation} :
    Frame mine taken dropped s (s.setOperation i o) := .of_eq rfl rfl rfl fun _ _ hr => hr

theorem Frame.setCollector {c : Collector} :
    Frame mine taken dropped s (s.setCollector c) := .of_eq rfl rfl rfl fun _ _ hr => hr

theorem Frame.removeFromOwnership {rs : List Request}
    (hd : ∀ r ∈ rs, r ∈ s.passedOver ∨ r ∈ dropped) :
    Frame mine taken dropped s (s.removeFromOwnership rs) := by
  refine Frame.setAgent fun r hr hs => ?_
  by_cases hm : r ∈ rs
  · cases hd r hm with
    | inl hp => exact .inl hp
    | inr hdr => exact absurd hdr hr
  · cases hs with
    | inl hp => exact .inl hp
    | inr hl =>
      obtain ⟨a, ha, hra⟩ := hl
      refine .inr ⟨a.removeFromOwnership rs, ?_, ?_⟩
      · rw [Option.mem_def.mp ha]
        rfl
      · simp [Agent.removeFromOwnership, hra, hm]

theorem Frame.releaseQueues : Frame (· = .collector) taken dropped s s.releaseQueues where
  lock q k hk hm := by
    simpa [State.releaseQueues, hk] using hm
  references _ _ _ _ := rfl
  queue _ _ _ _ _ hj := hj
  agent _ hj := .inl hj
  listed _ _ hr := hr

theorem Frame.endProcess : Frame (· ≠ .collector) taken dropped s s.endProcess where
  lock q k hk hm := by
    have : k = .collector := not_not.mp hm
    subst this
    simp [State.endProcess, hk]
  references _ _ _ _ := rfl
  queue _ _ _ _ _ hj := hj
  agent _ hj := .inl hj
  listed _ _ hr := hr

end

theorem OperationOk.setOperation {o o' : Operation} {k : Nat} (ho : OperationOk s i o) :
    OperationOk (s.setOperation k o') i o := by
  have hf : Frame (fun _ => False) [] [] s (s.setOperation k o') := Frame.setOperation
  exact ho.frame hf not_false (by simp) (by simp)

end Cta.ObjectStore.RunningAgent

import Cta.ObjectStore.RunningAgentOperations

/-! The collector orphans nothing, and so no run of the two together does. -/
namespace Cta.ObjectStore.RunningAgent
open Cta.Lib.Runs
variable {R : Requests} {s t : State} {q : QueueName} {i : Nat} {j : Job}

theorem CollectorOk.setCollector {c c' : Collector} (hc : CollectorOk R s c) :
    CollectorOk R (s.setCollector c') c := by
  have hf : Frame (fun _ => False) [] [] s (s.setCollector c') := Frame.setCollector
  exact hc.frame hf not_false (fun _ hr => hr) (by simp) fun _ hr => hr

theorem Ok.of_collector_same (hok : Ok R s) {u : State} {c : Collector} {dropped : List Request}
    (hf : Frame (· = .collector) [] dropped s u) (howner : u.owner = s.owner)
    (hops : u.operations = s.operations) (hpass : u.passedOver = s.passedOver)
    (hdropped : ∀ r ∈ dropped, ¬ Pending s r) (hhome : OrphansNothing u)
    (hcol : CollectorOk R u c) : Ok R (u.setCollector c) := by
  refine hok.of_collector (hf.trans Frame.setCollector) hops hdropped ?_ ?_ hhome hcol.setCollector
  · intro r hr j hj
    have hr : r ∈ s.passedOver := hpass ▸ hr
    have hj : s.owner j = some .agent := howner ▸ hj
    exact hok.passedOver r hr j hj
  · intro j hj
    have hj : u.owner j ≠ none := hj
    exact hok.dumped j (howner ▸ hj)

theorem Ok.setCollector (hok : Ok R s) {c : Collector} (hcol : CollectorOk R s c) :
    Ok R (s.setCollector c) := by
  have hframe : Frame (· = .collector) [] [] s s := Frame.refl
  exact hok.of_collector_same hframe rfl rfl rfl (by simp) hok.home hcol

theorem Requeueable.frame_collector {u : State} {dropped : List Request} {js : List Job}
    (hjs : ∀ j ∈ js, Requeueable R s j) (hf : Frame (· = .collector) [] dropped s u)
    (hops : u.operations = s.operations) : ∀ j ∈ js, Requeueable R u j := by
  intro j hj
  refine (hjs j hj).frame hf (fun r hr => ?_) (by simp)
  obtain ⟨i, hr⟩ := hr
  exact ⟨i, hops ▸ hr⟩

theorem Ok.mark (hok : Ok R s) (h : s.mark = some t) : Ok R t := by
  unfold State.mark at h
  split at h
  · next a hc ha =>
    cases h
    have hlisted : ∀ r, Listed s r →
        Listed (s.setAgent (some { a with beingGarbageCollected := true })) r := by
      intro r hr
      cases hr with
      | inl hp => exact .inl hp
      | inr hl =>
        obtain ⟨b, hb, hr⟩ := hl
        have hab : a = b := by simpa [ha] using hb
        subst hab
        exact .inr ⟨_, rfl, hr⟩
    have hframe : Frame (· = .collector) [] [] s
        (s.setAgent (some { a with beingGarbageCollected := true })) :=
      Frame.setAgent fun r _ => hlisted r
    refine hok.of_collector_same hframe rfl rfl rfl (by simp) ?_ (by simp [CollectorOk])
    refine hok.home.setAgent fun j hj => ?_
    obtain ⟨b, hb, hm⟩ := hok.home j .agent hj
    have hab : a = b := by simpa [ha] using hb
    subst hab
    exact ⟨_, rfl, hm⟩
  · cases h

theorem request_of_mem_dumpJobs {r : Request} (hj : j ∈ R.dumpJobs r) : j.request = r := by
  cases r with
  | archiveRequest n =>
    obtain ⟨c, _, rfl⟩ := List.mem_map.mp hj
    rfl
  | retrieveRequest n =>
    have : j = .retrieveJob n := by simpa [Requests.dumpJobs] using hj
    rw [this]
    rfl

theorem Ok.not_pending (hok : Ok R s) (hj : s.owner j = some .agent) : ¬ Pending s j.request := by
  intro hp
  obtain ⟨i, hi⟩ := hp
  have hop := hok.operation i
  cases ho : s.operations i with
  | popping q candidates toUpdate failed =>
    rw [ho] at hi hop
    have hm : j.request ∈ requestsOf (toUpdate ++ failed) := by
      rw [requestsOf_append]
      exact List.mem_append_left _ hi
    exact Popping.notOwned hop _ hm j hj rfl
  | idle => simp [ho, Operation.pending] at hi
  | referencing => simp [ho, Operation.pending] at hi
  | unowning => simp [ho, Operation.pending] at hi

theorem Ok.passOver (hok : Ok R s) {r : Request} {c : Collector} (hn : NoneOwned s r)
    (hcol : CollectorOk R { s with passedOver := r :: s.passedOver } c) :
    Ok R { s.setCollector c with passedOver := r :: s.passedOver } := by
  have hlisted : ∀ x, Listed s x → Listed { s with passedOver := r :: s.passedOver } x := by
    intro x hx
    cases hx with
    | inl hp => exact .inl (List.mem_cons_of_mem _ hp)
    | inr hl => exact .inr hl
  have hframe : Frame (· = .collector) [] [] s { s with passedOver := r :: s.passedOver } :=
    .of_eq rfl rfl rfl fun x _ => hlisted x
  refine hok.of_collector (hframe.trans Frame.setCollector) rfl (by simp) ?_ hok.dumped
    hok.home hcol.setCollector
  intro x hx
  cases List.mem_cons.mp hx with
  | inl he => exact he ▸ hn
  | inr hx => exact hok.passedOver x hx

theorem Ok.fetchOwned (hok : Ok R s) {r : Request} (h : s.fetchOwned R r = some t) : Ok R t := by
  unfold State.fetchOwned at h
  split at h
  · next toRead gone skipped toRequeue hc =>
    have hcol : (∀ x ∈ gone ++ skipped, x ∈ s.passedOver) ∧ ∀ j ∈ toRequeue, Requeueable R s j := by
      simpa [hc, CollectorOk] using hok.collector
    have hmore : ∀ j ∈ toRequeue, Requeueable R { s with passedOver := r :: s.passedOver } j :=
      fun j hj => ⟨(hcol.2 j hj).dumped, (hcol.2 j hj).notPending, (hcol.2 j hj).only⟩
    split at h
    · dsimp only at h
      split at h
      · next hgone =>
        cases h
        have hn : NoneOwned s r := by
          refine hok.noneOwned_of_dump fun j hj ho => ?_
          have := List.all_eq_true.mp hgone j hj
          simp [ho] at this
        refine hok.passOver hn ⟨fun x hx => ?_, hmore⟩
        cases List.mem_cons.mp hx with
        | inl he => exact he ▸ List.mem_cons_self
        | inr hx => exact List.mem_cons_of_mem _ (hcol.1 x hx)
      · split at h
        · next hempty =>
          cases h
          have hn : NoneOwned s r := by
            refine hok.noneOwned_of_dump fun j hj ho => ?_
            have := List.filter_eq_nil_iff.mp hempty j hj
            simp [ho] at this
          refine hok.passOver hn ⟨fun x hx => ?_, hmore⟩
          cases List.mem_append.mp hx with
          | inl hx => exact List.mem_cons_of_mem _ (hcol.1 x (List.mem_append_left _ hx))
          | inr hx =>
            cases List.mem_cons.mp hx with
            | inl he => exact he ▸ List.mem_cons_self
            | inr hx => exact List.mem_cons_of_mem _ (hcol.1 x (List.mem_append_right _ hx))
        · cases h
          refine hok.setCollector ⟨hcol.1, fun j hj => ?_⟩
          cases List.mem_append.mp hj with
          | inl hj => exact hcol.2 j hj
          | inr hj =>
            obtain ⟨hdump, howned⟩ := List.mem_filter.mp (List.mem_of_mem_filter hj)
            have howned : s.owner j = some .agent := by simpa using howned
            refine ⟨request_of_mem_dumpJobs hdump ▸ hdump, hok.not_pending howned, ?_⟩
            exact fun c hc he => hok.one c j hc howned he
    · cases h
  · cases h

theorem Ok.skipFetch (hok : Ok R s) {r : Request} (h : s.skipFetch r = some t) : Ok R t := by
  unfold State.skipFetch at h
  split at h
  · next toRead gone skipped toRequeue hc =>
    cases h
    have hcol := hok.collector
    rw [hc] at hcol
    exact hok.setCollector hcol
  · cases h

theorem Ok.commitPassedOver (hok : Ok R s) {rs : List Request} {c : Collector}
    (hrs : ∀ r ∈ rs, r ∈ s.passedOver) (hcol : CollectorOk R s c) :
    Ok R ((s.removeFromOwnership rs).setCollector c) := by
  have hframe : ∀ mine, Frame mine [] [] s (s.removeFromOwnership rs) :=
    fun _ => Frame.removeFromOwnership fun r hr => .inl (hrs r hr)
  refine hok.of_collector_same (hframe _) rfl rfl rfl (by simp)
    (hok.home.removeFromOwnership fun r hr => hok.passedOver r (hrs r hr)) ?_
  exact hcol.frame (hframe fun _ => False) not_false (fun _ hr => hr) (by simp) fun _ hr => hr

theorem Ok.commitGone (hok : Ok R s) (h : s.commitGone = some t) : Ok R t := by
  unfold State.commitGone at h
  split at h
  · next gone skipped toRequeue hc =>
    cases h
    have hcol := hok.collector
    rw [hc] at hcol
    refine hok.commitPassedOver (fun r hr => hcol.1 r (List.mem_append_left _ hr)) ?_
    exact ⟨fun r hr => hcol.1 r (List.mem_append_right _ hr), hcol.2⟩
  · cases h

theorem Ok.commitSkipped (hok : Ok R s) (h : s.commitSkipped = some t) : Ok R t := by
  unfold State.commitSkipped at h
  split at h
  · next skipped toRequeue hc =>
    cases h
    have hcol := hok.collector
    rw [hc] at hcol
    exact hok.commitPassedOver hcol.1 hcol.2
  · cases h

theorem eq_of_retrieve {c : Job} (hj : j.isRetrieve = true) (he : c.request = j.request) :
    c = j := by
  cases j with
  | archiveJob => cases hj
  | retrieveJob n =>
    cases c with
    | archiveJob => cases he
    | retrieveJob m =>
      cases he
      rfl

theorem mem_dumpJobs_of_retrieve (hj : j.isRetrieve = true) : j ∈ R.dumpJobs j.request := by
  cases j with
  | archiveJob => cases hj
  | retrieveJob n => exact List.mem_cons_self

section
variable {batch picked toRequeue : List Job}

theorem Frame.addReferencesIfNecessary {dropped : List Request} (hl : s.lock q = none) :
    Frame (· = .collector) [] dropped s (s.addReferencesIfNecessary q batch) := by
  have hfree : ∀ k, s.lock q = some k → k = .collector := by simp [hl]
  exact (Frame.setReferences hfree).trans (Frame.setLock (by exact hfree))

theorem OrphansNothing.addReferencesIfNecessary (hs : OrphansNothing s) :
    OrphansNothing (s.addReferencesIfNecessary q batch) :=
  hs.setReferences fun _ hj _ => List.mem_append_left _ hj

theorem Switching.of_addReferences (hu : ∀ j ∈ batch, OnlyReference s q j)
    (hself : ∀ j ∈ batch, ∀ c ∈ batch, c.request = j.request → c = j)
    (honly : ∀ j ∈ batch, ∀ c, s.owner c = some .agent → c.request = j.request → c = j) :
    Switching (s.addReferencesIfNecessary q batch) .collector q batch batch [] := by
  have hrefs : (s.addReferencesIfNecessary q batch).references q =
      s.references q ++ s.jobsToReallyAdd q batch := by
    simp [State.addReferencesIfNecessary, State.setReferences, State.setLock]
  constructor
  · simp [State.addReferencesIfNecessary, State.setLock]
  · exact fun j hj => hj
  · simp
  · intro j hj
    rw [hrefs]
    by_cases hm : j.request ∈ requestsOf (s.references q)
    · obtain ⟨c, hc, he⟩ := List.mem_map.mp hm
      exact List.mem_append_left _ (hu j hj c hc he ▸ hc)
    · exact List.mem_append_right _ (List.mem_filter.mpr ⟨hj, by simpa using hm⟩)
  · intro j hj c hc he
    rw [hrefs] at hc
    cases List.mem_append.mp hc with
    | inl hc => exact hu j hj c hc he
    | inr hc => exact hself j hj c (List.mem_of_mem_filter hc) he
  · simp
  · exact fun j hj hn => absurd hj hn
  · exact honly

theorem Ok.requeueArchive (hok : Ok R s) {tapePool : Nat}
    (h : s.requeueArchive R q tapePool picked = some t)
    (hp : Proper R s (.requeueArchive q tapePool picked)) : Ok R t := by
  unfold State.requeueArchive at h
  split at h
  · next toRequeue hc =>
    have hcol : ∀ j ∈ toRequeue, Requeueable R s j := by
      simpa [hc, CollectorOk] using hok.collector
    split at h
    · next hg =>
      cases h
      have hframe : Frame (· = .collector) [] [] s
          (s.addReferencesIfNecessary q (R.jobsToAdd tapePool picked)) :=
        Frame.addReferencesIfNecessary hg.1
      have hmem : ∀ j ∈ picked, j ∈ R.jobsToAdd tapePool picked := by
        intro j hj
        refine List.mem_flatMap.mpr ⟨j, hj, List.mem_filter.mpr ⟨?_, ?_⟩⟩
        · exact (hcol j (hg.2 j hj).1).dumped
        · simpa using (hg.2 j hj).2.2
      -- with one job of a request in the batch, all of it was picked
      have hpicked : ∀ j ∈ R.jobsToAdd tapePool picked, j ∈ picked := by
        intro j hj
        obtain ⟨c, hc, hjc⟩ := List.mem_flatMap.mp hj
        have he := request_of_mem_dumpJobs (List.mem_of_mem_filter hjc)
        exact (hp j hj).2 c (hmem c hc) he.symm ▸ hc
      have hqueue : ∀ j ∈ R.jobsToAdd tapePool picked, Requeueable R s j :=
        fun j hj => hcol j (hg.2 j (hpicked j hj)).1
      have hsw := Switching.of_addReferences (fun j hj => (hp j hj).1) (fun j hj => (hp j hj).2)
        fun j hj => (hqueue j hj).only
      refine hok.of_collector_same hframe rfl rfl rfl (by simp)
        hok.home.addReferencesIfNecessary ⟨hsw, hmem, ?_, ?_⟩
      · exact fun j hj => (Requeueable.frame_collector hqueue hframe rfl j hj).notPending
      · refine Requeueable.frame_collector (fun j hj => hcol j ?_) hframe rfl
        exact List.mem_of_mem_filter hj
    · cases h
  · cases h

theorem mem_of_mem_lastUses {r : Request} (hr : r ∈ lastUses picked toRequeue) :
    ∃ j ∈ picked, j.request = r := List.mem_map.mp (List.mem_of_mem_filter hr)

theorem Ok.requeueRetrieve (hok : Ok R s) (h : s.requeueRetrieve q picked = some t)
    (hp : Proper R s (.requeueRetrieve q picked)) : Ok R t := by
  unfold State.requeueRetrieve at h
  split at h
  · next toRequeue hc =>
    have hcol : ∀ j ∈ toRequeue, Requeueable R s j := by
      simpa [hc, CollectorOk] using hok.collector
    split at h
    · next hg =>
      cases h
      have hframe : Frame (· = .collector) [] [] s (s.addReferencesIfNecessary q picked) :=
        Frame.addReferencesIfNecessary hg.1
      have hqueue : ∀ j ∈ picked, Requeueable R (s.addReferencesIfNecessary q picked) j :=
        Requeueable.frame_collector (fun j hj => hcol j (hg.2 j hj).1) hframe rfl
      have hleft : ∀ j ∈ toRequeue.filter (· ∉ picked),
          Requeueable R (s.addReferencesIfNecessary q picked) j :=
        Requeueable.frame_collector (fun j hj => hcol j (List.mem_of_mem_filter hj)) hframe rfl
      refine hok.of_collector_same hframe rfl rfl rfl (by simp)
        hok.home.addReferencesIfNecessary ?_
      split
      · next hnothing =>
        refine ⟨fun r hr => ?_, hleft⟩
        obtain ⟨j, hj, rfl⟩ := mem_of_mem_lastUses hr
        refine ⟨fun c hc he => ?_, (hqueue j hj).notPending⟩
        have hcj := (hqueue j hj).only c hc he
        exact hp hnothing j hj (hcj ▸ hc)
      · have hsw : Switching (s.addReferencesIfNecessary q picked) .collector q picked picked [] :=
          Switching.of_addReferences
            (fun j hj c _ he => eq_of_retrieve (hg.2 j hj).2 he)
            (fun j hj c _ he => eq_of_retrieve (hg.2 j hj).2 he)
            (fun j hj c _ he => eq_of_retrieve (hg.2 j hj).2 he)
        exact ⟨hsw, fun j hj => hj, fun j hj => (hqueue j hj).notPending, hleft⟩
    · cases h
  · cases h

theorem Ok.requeueUpdate (hok : Ok R s) (h : s.requeueUpdate j = some t)
    (hp : Proper R s (.requeueUpdate j)) : Ok R t := by
  unfold State.requeueUpdate at h
  split at h
  · next q picked batch toUpdate failed toRequeue hc =>
    have hcol := hok.collector
    rw [hc] at hcol
    obtain ⟨hsw, hpicked, hbatch, hqueue⟩ := hcol
    simp only [Proper, hc] at hp
    split at h
    · next hj =>
      split at h
      · next u hu =>
        cases h
        have hframe := hsw.frame_succeed hu
        have hops : u.operations = s.operations := by
          rw [updateJobOwner_eq hu]
        have hpass : u.passedOver = s.passedOver := by
          rw [updateJobOwner_eq hu]
        have hdump : ∀ c, u.owner c ≠ none → c ∈ R.dumpJobs c.request :=
          fun c hc => hok.dumped c (updateJobOwner_exists hu c hc)
        have hhome := hsw.home_succeed hj hok.home hu
        have hcol : CollectorOk R u
            (.requeueing q picked batch (toUpdate.erase j) failed toRequeue) := by
          refine ⟨hsw.succeed hj hu, hpicked, fun c hc hpend => hbatch c hc ?_,
            Requeueable.frame_collector hqueue hframe hops⟩
          obtain ⟨i, hi⟩ := hpend
          exact ⟨i, hops ▸ hi⟩
        refine hok.of_collector (hframe.trans Frame.setCollector) hops (by simp) ?_ hdump hhome
          hcol.setCollector
        intro r hr
        have hr : r ∈ s.passedOver := hpass ▸ hr
        exact hframe.noneOwned List.not_mem_nil (hok.passedOver r hr)
      · next hu =>
        cases h
        exact hok.setCollector ⟨hsw.fail hj hu hp, hpicked, hbatch, hqueue⟩
    · cases h
  · cases h

theorem Ok.endRequeue (hok : Ok R s) (h : s.endRequeue = some t) : Ok R t := by
  unfold State.endRequeue at h
  split at h
  · next q picked batch failed toRequeue hc =>
    have hcol := hok.collector
    rw [hc] at hcol
    obtain ⟨hsw, hpicked, hbatch, hqueue⟩ := hcol
    have hmine : ∀ k, s.lock q = some k → k = .collector :=
      fun k hk => Option.some.inj (hk.symm.trans hsw.lock)
    have hremove : Frame (· = .collector) [] [] s (s.removeReferences q failed) :=
      Frame.setReferences hmine
    have hend : CollectorOk R s (.relinquishing (lastUses picked toRequeue) toRequeue) := by
      refine ⟨fun r hr => ?_, hqueue⟩
      obtain ⟨j, hj, rfl⟩ := mem_of_mem_lastUses hr
      exact ⟨hsw.noneOwned (hpicked j hj), hbatch j (hpicked j hj)⟩
    have hhome := hsw.home_end hok.home
    dsimp only at h
    cases h
    split
    · refine hok.of_collector_same hremove rfl rfl rfl (by simp) hhome ?_
      exact ⟨fun r hr => hend.1 r hr, Requeueable.frame_collector hend.2 hremove rfl⟩
    · have hframe := hremove.trans Frame.releaseQueues
      refine hok.of_collector_same hframe rfl rfl rfl (by simp) hhome ?_
      exact ⟨fun r hr => hend.1 r hr, Requeueable.frame_collector hend.2 hframe rfl⟩
  · cases h

theorem Ok.relinquish (hok : Ok R s) (h : s.relinquish = some t) : Ok R t := by
  unfold State.relinquish at h
  split at h
  · next requests toRequeue hc =>
    have hcol := hok.collector
    rw [hc] at hcol
    cases h
    have hframe : Frame (· = .collector) [] requests s
        (s.removeFromOwnership requests).releaseQueues :=
      (Frame.removeFromOwnership fun r hr => .inr hr).trans Frame.releaseQueues
    have hhome := hok.home.removeFromOwnership fun r hr => (hcol.1 r hr).1
    exact hok.of_collector_same hframe rfl rfl rfl (fun r hr => (hcol.1 r hr).2) hhome
      (Requeueable.frame_collector hcol.2 hframe rfl)
  · cases h

theorem Ok.garbageCollect (hok : Ok R s) (h : s.garbageCollect j q = some t) : Ok R t := by
  unfold State.garbageCollect at h
  split at h
  · next toRequeue hc =>
    have hcol : ∀ j ∈ toRequeue, Requeueable R s j := by
      simpa [hc, CollectorOk] using hok.collector
    split at h
    · next hg =>
      cases h
      have hframe : Frame (· = .collector) [] [] s (s.addReferencesIfNecessary q [j]) :=
        Frame.addReferencesIfNecessary hg.1
      have hsw : Switching (s.addReferencesIfNecessary q [j]) .collector q [j] [j] [] := by
        have hsame : ∀ d ∈ [j], ∀ c : Job, c.request = d.request → c = d := by
          intro d hd c he
          have hdj : d = j := by simpa using hd
          exact eq_of_retrieve (hdj ▸ hg.2.2) he
        exact Switching.of_addReferences (fun d hd c _ => hsame d hd c)
          (fun d hd c _ => hsame d hd c) fun d hd c _ => hsame d hd c
      refine hok.of_collector_same hframe rfl rfl rfl (by simp)
        hok.home.addReferencesIfNecessary ⟨⟨hg.2.2, ?_, hsw.lock, ?_⟩, ?_⟩
      · exact hsw.referenced j (by simp)
      · exact (Requeueable.frame_collector hcol hframe rfl j hg.2.1).notPending
      · exact Requeueable.frame_collector (fun c hc => hcol c (List.mem_of_mem_filter hc)) hframe
          rfl
    · cases h
  · cases h

theorem Ok.garbageCollectOwner (hok : Ok R s) (h : s.garbageCollectOwner = some t) : Ok R t := by
  unfold State.garbageCollectOwner at h
  split at h
  · next j q toRequeue hc =>
    have hcol := hok.collector
    rw [hc] at hcol
    obtain ⟨⟨hret, href, hlock, hpend⟩, hqueue⟩ := hcol
    cases h
    have hmine : ∀ p k, Owner.queue q = .queue p → s.lock p = some k → k = .collector := by
      intro p k hp hk
      cases hp
      exact Option.some.inj (hk.symm.trans hlock)
    have hframe : Frame (· = .collector) [] [] s (s.setOwner j (.queue q)).releaseQueues :=
      (Frame.setOwner hmine fun hn => by cases hn).trans Frame.releaseQueues
    have hcol : CollectorOk R (s.setOwner j (.queue q)).releaseQueues
        (.relinquishing [j.request] toRequeue) := by
      refine ⟨fun r hr => ?_, Requeueable.frame_collector hqueue hframe rfl⟩
      have hr : r = j.request := by simpa using hr
      subst hr
      refine ⟨fun c hc he => ?_, hpend⟩
      have hcj := eq_of_retrieve hret he
      simp [State.releaseQueues, State.setOwner, hcj] at hc
    refine hok.of_collector (hframe.trans Frame.setCollector) rfl (by simp) ?_ ?_ ?_
      hcol.setCollector
    · exact fun r hr => hframe.noneOwned List.not_mem_nil (hok.passedOver r hr)
    · intro c hc
      by_cases hcj : c = j
      · exact hcj ▸ mem_dumpJobs_of_retrieve hret
      · refine hok.dumped c ?_
        simpa [State.setCollector, State.releaseQueues, State.setOwner, hcj] using hc
    · exact hok.home.setOwner href
  · cases h

theorem Ok.removeAgent (hok : Ok R s) (h : s.removeAgent = some t) : Ok R t := by
  unfold State.removeAgent at h
  split at h
  · next a hc ha =>
    split at h
    · next hempty =>
      cases h
      have hgone : ∀ {r : Request}, (∃ b ∈ s.agent, r ∈ b.ownership) → False := by
        intro r hl
        obtain ⟨b, hb, hr⟩ := hl
        have hab : a = b := by simpa [ha] using hb
        subst hab
        simp [hempty] at hr
      have hframe : Frame (· = .collector) [] [] s (s.setAgent none) := by
        refine Frame.setAgent fun r _ hr => ?_
        cases hr with
        | inl hp => exact .inl hp
        | inr hl => exact (hgone hl).elim
      refine hok.of_collector_same hframe rfl rfl rfl (by simp) ?_ trivial
      exact hok.home.setAgent fun j hj => (hgone (hok.home j .agent hj)).elim
    · cases h
  · cases h

end

theorem Ok.next (hok : Ok R s) {e : Event} (hp : Proper R s e)
    (h : RunningAgent.next R s e = some t) : Ok R t := by
  have hruns : ∀ {u : Option State}, s.whileRunning u = some t → u = some t := by
    intro u hu
    unfold State.whileRunning at hu
    split at hu
    · exact hu
    · cases hu
  cases e with
  | pop i q candidates => exact hok.pop (hruns h) hp
  | popUpdate i j => exact hok.popUpdate (hruns h) hp
  | popDereference i => exact hok.popDereference (hruns h)
  | reference i q elements => exact hok.reference (hruns h) hp
  | referenceUpdate i j => exact hok.referenceUpdate (hruns h) hp
  | referenceEnd i => exact hok.referenceEnd (hruns h)
  | unown i => exact hok.unown (hruns h)
  | crash =>
    cases h
    exact hok.endProcess
  | mark => exact hok.mark h
  | fetchOwned r => exact hok.fetchOwned h
  | skipFetch r => exact hok.skipFetch h
  | commitGone => exact hok.commitGone h
  | commitSkipped => exact hok.commitSkipped h
  | requeueArchive q tapePool picked => exact hok.requeueArchive h hp
  | requeueRetrieve q picked => exact hok.requeueRetrieve h hp
  | requeueUpdate j => exact hok.requeueUpdate h hp
  | endRequeue => exact hok.endRequeue h
  | relinquish => exact hok.relinquish h
  | garbageCollect j q => exact hok.garbageCollect h
  | garbageCollectOwner => exact hok.garbageCollectOwner h
  | removeAgent => exact hok.removeAgent h
  | abort =>
    cases h
    have hframe : Frame (· = .collector) [] [] s s.releaseQueues := Frame.releaseQueues
    exact hok.of_collector_same hframe rfl rfl rfl (by simp) hok.home trivial

theorem Ok.step (hok : Ok R s) {e : Event} (hp : Proper R s e) :
    Ok R (RunningAgent.step R s e) := by
  unfold RunningAgent.step
  cases h : RunningAgent.next R s e with
  | none => exact hok
  | some t => exact hok.next hp h

theorem Start.ok (h : Start R s) : Ok R s where
  dumped := h.dumped
  home := h.home
  one := h.one
  passedOver r hr := by simp [h.passedOver] at hr
  operation i := by
    rw [h.idle i]
    trivial
  apart i k r hr _ := by simp [h.idle i, Operation.requests] at hr
  collector := by
    rw [h.watching]
    trivial

/-- While all the steps are proper, no state of the run has an orphan. -/
theorem orphansNothing_of_proper (hs : Start R s) {es : List Event}
    (h : AllSteps (step R) (Proper R) s es) : AllStates (step R) OrphansNothing s es :=
  h.allStates (fun _ _ hok hp => hok.step hp) (fun _ hok => hok.home) hs.ok

/-- Archive requests with two copies, each in a tape pool of its own. -/
def twoCopies : Requests where
  copyNbs _ := [1, 2]
  tapePool j := match j with
    | .archiveJob _ c => c
    | .retrieveJob _ => 0
  impliesQueueing _ := true

def queued (jobs : List (Job × QueueName)) : State where
  owner j := (jobs.lookup j).map .queue
  references q := (jobs.filter (·.2 = q)).map Prod.fst
  lock _ := none
  agent := some ⟨[], false⟩
  otherAgents _ := none
  processRuns := true
  operations _ := .idle
  collector := .watching
  passedOver := []

theorem start_queued {jobs : List (Job × QueueName)}
    (hd : ∀ x ∈ jobs, x.1 ∈ R.dumpJobs x.1.request) : Start R (queued jobs) := by
  have hmem : ∀ j q, jobs.lookup j = some q → (j, q) ∈ jobs := by
    intro j q h
    induction jobs with
    | nil => cases h
    | cons x xs ih =>
      rw [List.lookup_cons] at h
      split at h
      · next he =>
        cases h
        have : j = x.1 := by simpa using he
        subst this
        exact List.mem_cons_self
      · exact List.mem_cons_of_mem _ (ih (fun y hy => hd y (List.mem_cons_of_mem _ hy)) h)
  constructor
  · intro j hj
    cases h : jobs.lookup j with
    | none => simp [queued, h] at hj
    | some q => exact hd _ (hmem j q h)
  · intro j o hj
    obtain ⟨q, hq, rfl⟩ := Option.map_eq_some_iff.mp hj
    exact List.mem_map.mpr ⟨(j, q), by simpa using hmem j q hq, rfl⟩
  · intro j j' hj
    obtain ⟨q, _, hq⟩ := Option.map_eq_some_iff.mp hj
    cases hq
  · exact fun _ => rfl
  · rfl
  · rfl

/-- The collector requeues what the agent popped before. -/
def quietCollection : List Event :=
  [.pop 0 0 [.archiveJob 0 1], .popUpdate 0 (.archiveJob 0 1), .popDereference 0, .mark,
    .fetchOwned (.archiveRequest 0), .commitGone, .commitSkipped,
    .requeueArchive 0 1 [.archiveJob 0 1], .requeueUpdate (.archiveJob 0 1), .endRequeue,
    .relinquish, .removeAgent, .crash]

theorem quietCollection_proper :
    AllSteps (step twoCopies) (Proper twoCopies) (queued [(.archiveJob 0 1, 0)])
      quietCollection := by
  refine ⟨⟨by decide, fun j hj => ?_⟩, fun _ => by decide, trivial, trivial, trivial, trivial,
    trivial, fun j hj => ?_, fun h => ?_, trivial, trivial, trivial, trivial, trivial⟩
  · have hj : j = .archiveJob 0 1 := by simpa using hj
    subst hj
    refine ⟨by decide, fun k _ h => ?_, by decide⟩
    cases h
  · have hj : j = .archiveJob 0 1 := by
      simpa [twoCopies, Requests.jobsToAdd, Requests.dumpJobs, Job.request] using hj
    subst hj
    decide
  · cases h

theorem orphansNothing_of_proper_quietCollection :
    AllSteps (step twoCopies) (Proper twoCopies) (queued [(.archiveJob 0 1, 0)])
      quietCollection ∧
    AllStates (step twoCopies) OrphansNothing (queued [(.archiveJob 0 1, 0)]) quietCollection :=
  ⟨quietCollection_proper,
    orphansNothing_of_proper (start_queued (by decide)) quietCollection_proper⟩

/-- The collector reads a request before the pop takes it. -/
def lateUpdate : List Event :=
  [.pop 0 0 [.archiveJob 0 1], .mark, .fetchOwned (.archiveRequest 0), .commitGone,
    .commitSkipped, .popUpdate 0 (.archiveJob 0 1), .popDereference 0, .removeAgent, .crash]

/-- Two copies of one request in the hands of the agent, which requeues one of them. -/
def twoInHand : List Event :=
  [.pop 0 1 [.archiveJob 0 1], .popUpdate 0 (.archiveJob 0 1), .popDereference 0,
    .pop 0 2 [.archiveJob 0 2], .popUpdate 0 (.archiveJob 0 2), .popDereference 0,
    .reference 0 1 [.archiveJob 0 1], .referenceUpdate 0 (.archiveJob 0 1), .referenceEnd 0,
    .unown 0, .abort, .crash]

/-- The agent stops before the popped request is dereferenced, and nothing is added. -/
def nothingAdded : List Event :=
  [.pop 0 0 [.retrieveJob 0], .popUpdate 0 (.retrieveJob 0), .crash, .mark,
    .fetchOwned (.retrieveRequest 0), .commitGone, .commitSkipped,
    .requeueRetrieve 0 [.retrieveJob 0], .relinquish, .removeAgent]

/-- Agent and collector requeue a request to the same queue. -/
def requeuedTwice : List Event :=
  [.pop 0 0 [.retrieveJob 0, .retrieveJob 1], .popUpdate 0 (.retrieveJob 0),
    .popUpdate 0 (.retrieveJob 1), .popDereference 0, .mark, .fetchOwned (.retrieveRequest 0),
    .fetchOwned (.retrieveRequest 1), .commitGone, .commitSkipped,
    .reference 0 0 [.retrieveJob 0], .referenceUpdate 0 (.retrieveJob 0), .referenceEnd 0,
    .requeueRetrieve 0 [.retrieveJob 0, .retrieveJob 1], .requeueUpdate (.retrieveJob 0),
    .requeueUpdate (.retrieveJob 1), .endRequeue, .relinquish, .removeAgent, .crash]

def Stopped (s : State) : Prop := s.processRuns = false ∧ s.collector = .stopped

instance : Decidable (Stopped s) :=
  inferInstanceAs (Decidable (s.processRuns = false ∧ s.collector = .stopped))

theorem not_orphansNothing_of_agent (ho : s.owner j = some .agent)
    (ha : ∀ a ∈ s.agent, j.request ∉ a.ownership) : ¬ OrphansNothing s := by
  intro h
  obtain ⟨a, hs, hm⟩ := h j .agent ho
  exact ha a hs hm

theorem not_orphansNothing_of_queue (ho : s.owner j = some (.queue q))
    (hr : j ∉ s.references q) : ¬ OrphansNothing s := fun h => hr (h j (.queue q) ho)

/-- Each of the conditions is needed: the claim fails in a run against each. -/
theorem lateUpdate_orphans :
    (Start twoCopies (queued [(.archiveJob 0 1, 0)]) ∧
      Stopped (lateUpdate.foldl (step twoCopies) (queued [(.archiveJob 0 1, 0)])) ∧
      ¬ OrphansNothing (lateUpdate.foldl (step twoCopies) (queued [(.archiveJob 0 1, 0)]))) ∧
    (Start twoCopies (queued [(.archiveJob 0 1, 1), (.archiveJob 0 2, 2)]) ∧
      Stopped (twoInHand.foldl (step twoCopies)
        (queued [(.archiveJob 0 1, 1), (.archiveJob 0 2, 2)])) ∧
      ¬ OrphansNothing (twoInHand.foldl (step twoCopies)
        (queued [(.archiveJob 0 1, 1), (.archiveJob 0 2, 2)]))) ∧
    (Start twoCopies (queued [(.retrieveJob 0, 0)]) ∧
      Stopped (nothingAdded.foldl (step twoCopies) (queued [(.retrieveJob 0, 0)])) ∧
      ¬ OrphansNothing (nothingAdded.foldl (step twoCopies) (queued [(.retrieveJob 0, 0)]))) ∧
    (Start twoCopies (queued [(.retrieveJob 0, 0), (.retrieveJob 1, 0)]) ∧
      Stopped (requeuedTwice.foldl (step twoCopies)
        (queued [(.retrieveJob 0, 0), (.retrieveJob 1, 0)])) ∧
      ¬ OrphansNothing (requeuedTwice.foldl (step twoCopies)
        (queued [(.retrieveJob 0, 0), (.retrieveJob 1, 0)]))) := by
  refine ⟨⟨start_queued (by decide), by decide, ?_⟩, ⟨start_queued (by decide), by decide, ?_⟩,
    ⟨start_queued (by decide), by decide, ?_⟩, ⟨start_queued (by decide), by decide, ?_⟩⟩
  · exact not_orphansNothing_of_agent (j := .archiveJob 0 1) (by decide) (by decide)
  · exact not_orphansNothing_of_agent (j := .archiveJob 0 2) (by decide) (by decide)
  · exact not_orphansNothing_of_agent (j := .retrieveJob 0) (by decide) (by decide)
  · exact not_orphansNothing_of_queue (j := .retrieveJob 0) (q := 0) (by decide) (by decide)

end Cta.ObjectStore.RunningAgent

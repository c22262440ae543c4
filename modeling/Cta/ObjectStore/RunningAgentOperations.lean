import Cta.ObjectStore.RunningAgentHomes

/-! The agent's own operations orphan nothing. -/
namespace Cta.ObjectStore.RunningAgent
variable {R : Requests} {s t : State} {q : QueueName} {i : Nat} {j : Job}

theorem Ok.noneOwned_of_dump (hok : Ok R s) {r : Request}
    (h : ∀ j' ∈ R.dumpJobs r, s.owner j' ≠ some .agent) : NoneOwned s r := by
  intro j hj he
  subst he
  exact h j (hok.dumped j (by simp [hj])) hj

theorem Ok.endProcess (hok : Ok R s) : Ok R s.endProcess where
  dumped := hok.dumped
  home := hok.home
  one := hok.one
  passedOver := hok.passedOver
  operation _ := trivial
  apart _ _ _ hr _ := absurd hr List.not_mem_nil
  collector := by
    have hframe : Frame (· ≠ .collector) [] [] s s.endProcess := Frame.endProcess
    refine hok.collector.frame hframe (by simp) ?_ ?_ fun _ hr => hr
    · intro r hr
      obtain ⟨_, hr⟩ := hr
      cases hr
    · intro r hr
      cases hr

theorem queueAndExecuteAction_cases {f : Agent → Agent} {k : State → State}
    (h : s.queueAndExecuteAction f k = some t) :
    t = s.endProcess ∨ s.collector.active = false ∧
      ∃ a, s.agent = some a ∧ t = k (s.setAgent (some (f a))) := by
  unfold State.queueAndExecuteAction at h
  cases hc : s.collector.active with
  | true => simp [hc] at h
  | false =>
    cases ha : s.agent with
    | none => exact .inl (by simpa [hc, ha, eq_comm] using h)
    | some a =>
      by_cases hm : a.beingGarbageCollected
      · exact .inl (by simpa [hc, ha, hm, eq_comm] using h)
      · exact .inr ⟨rfl, a, rfl, by simpa [hc, ha, hm, eq_comm] using h⟩

theorem Ok.pop (hok : Ok R s) {candidates : List Job} (h : s.pop i q candidates = some t)
    (hp : Proper R s (.pop i q candidates)) : Ok R t := by
  unfold State.pop at h
  split at h
  · next hg =>
    cases queueAndExecuteAction_cases h with
    | inl he => exact he ▸ hok.endProcess
    | inr hrun =>
      obtain ⟨hidle, a, ha, rfl⟩ := hrun
      have hfree : ∀ k, s.lock q = some k → k = .operation i := by simp [hg.2.1]
      have hlisted : ∀ r, Listed s r →
          Listed (s.setAgent (some (a.addToOwnership (requestsOf candidates)))) r := by
        intro r hr
        cases hr with
        | inl hpassed => exact .inl hpassed
        | inr hl =>
          obtain ⟨b, hb, hr⟩ := hl
          have hab : a = b := by simpa [ha] using hb
          subst hab
          exact .inr ⟨_, rfl, by simp [Agent.addToOwnership, hr]⟩
      have hframe : Frame (· = .operation i) [] [] s
          (((s.setAgent (some (a.addToOwnership (requestsOf candidates)))).setLock q
            (some (.operation i))).setOperation i (.popping q candidates candidates [])) :=
        ((Frame.setAgent fun r _ => hlisted r).trans (Frame.setLock (by exact hfree))).trans
          Frame.setOperation
      refine hok.of_operation hframe rfl ?_ ?_ (.inl hidle) (by simp) (by simp) rfl rfl
        (fun _ hj => hj) ?_ (hframe.one hok.one)
      · constructor
        · simp [State.setOperation, State.setLock]
        · exact fun j hj => hj
        · simp
        · exact fun j hj => (hp.2 j hj).2.2
        · simpa using hp.1
        · exact fun j hj hn => absurd hj hn
        · intro r hr
          obtain ⟨j, hj, rfl⟩ := List.mem_map.mp hr
          exact hok.noneOwned_of_dump (hp.2 j (by simpa using hj)).1
        · intro r hr
          refine .inr ⟨_, rfl, ?_⟩
          by_cases hm : r ∈ a.ownership
          · simp [Agent.addToOwnership, hm]
          · simp [Agent.addToOwnership, hm, hr]
      · intro r hr
        obtain ⟨j, hj, rfl⟩ := List.mem_map.mp hr
        exact .inr (hp.2 j hj).2.1
      · refine hok.home.setAgent fun j hj => ?_
        obtain ⟨b, hb, hm⟩ := hok.home j .agent hj
        have hab : a = b := by simpa [ha] using hb
        subst hab
        exact ⟨_, rfl, by simp [Agent.addToOwnership, hm]⟩
  · cases h

theorem updateJobOwner_some {new previous : Owner}
    (h : s.updateJobOwner j new previous = some t) :
    s.owner j = some previous ∧ t = s.setOwner j new ∨ s.owner j = some new ∧ t = s := by
  unfold State.updateJobOwner at h
  split at h
  · next hp => exact .inl ⟨hp, (Option.some.inj h).symm⟩
  · split at h
    · next hn => exact .inr ⟨hn.2, (Option.some.inj h).symm⟩
    · cases h

/-- Whatever the update does, it does to owners. -/
theorem updateJobOwner_eq {new previous : Owner}
    (h : s.updateJobOwner j new previous = some t) : t = { s with owner := t.owner } := by
  cases updateJobOwner_some h with
  | inl hmove => rw [hmove.2]; rfl
  | inr hsame => rw [hsame.2]

theorem updateJobOwner_none {new previous : Owner}
    (h : s.updateJobOwner j new previous = none) :
    s.owner j ≠ some previous ∧ (j.isRetrieve = false → s.owner j ≠ some new) := by
  unfold State.updateJobOwner at h
  split at h
  · cases h
  · next hp =>
    split at h
    · cases h
    · next hn => exact ⟨hp, fun hr ho => hn ⟨hr, ho⟩⟩

section
variable {k : Holder} {candidates jobs toUpdate failed : List Job}

theorem perm_erase_append (hj : j ∈ toUpdate) :
    (requestsOf (toUpdate ++ failed)).Perm
      (j.request :: requestsOf (toUpdate.erase j ++ failed)) :=
  ((List.perm_cons_erase hj).append_right failed).map Job.request

theorem mem_of_not_mem_erase {c : Job} (h : c ∉ toUpdate.erase j) : c = j ∨ c ∉ toUpdate := by
  by_cases he : c = j
  · exact .inl he
  · exact .inr fun hc => h ((List.mem_erase_of_ne he).mpr hc)

theorem Popping.noneOwned (hp : Popping s k q candidates toUpdate failed) (hj : j ∈ toUpdate) :
    NoneOwned s j.request :=
  hp.notOwned _ (mem_requestsOf (List.mem_append_left _ hj))

theorem Popping.take (hp : Popping s k q candidates toUpdate failed) (hj : j ∈ toUpdate) :
    Popping (s.setOwner j .agent) k q candidates (toUpdate.erase j) failed := by
  have hnodup := (perm_erase_append hj).nodup_iff.mp hp.nodup
  have hrest : ∀ r ∈ requestsOf (toUpdate.erase j ++ failed), r ∈ requestsOf (toUpdate ++ failed) :=
    fun r hr => (perm_erase_append hj).mem_iff.mpr (List.mem_cons_of_mem _ hr)
  constructor
  · exact hp.lock
  · exact fun c hc => hp.toUpdate_sub c (List.mem_of_mem_erase hc)
  · exact hp.failed_sub
  · exact hp.unique
  · exact (List.nodup_cons.mp hnodup).2
  · intro c hc hn
    by_cases he : c = j
    · simp [State.setOwner, he]
    · have hn : c ∉ toUpdate := (mem_of_not_mem_erase hn).resolve_left he
      simpa [State.setOwner, he] using hp.updated c hc hn
  · intro r hr c hc he
    by_cases hcj : c = j
    · subst hcj
      exact (List.nodup_cons.mp hnodup).1 (he ▸ hr)
    · exact hp.notOwned r (hrest r hr) c (by simpa [State.setOwner, hcj] using hc) he
  · exact fun r hr => hp.listed r (requestsOf_subset (fun c => List.mem_of_mem_erase) r hr)

/-- The job turns out not to belong to the queue. -/
theorem Popping.fail (hp : Popping s k q candidates toUpdate failed) (hj : j ∈ toUpdate)
    (hq : s.owner j ≠ some (.queue q)) :
    Popping s k q candidates (toUpdate.erase j) (j :: failed) := by
  have hperm : (requestsOf (toUpdate ++ failed)).Perm
      (requestsOf (toUpdate.erase j ++ j :: failed)) := by
    refine (perm_erase_append hj).trans ?_
    rw [requestsOf_append, requestsOf_append]
    exact List.perm_middle.symm
  constructor
  · exact hp.lock
  · exact fun c hc => hp.toUpdate_sub c (List.mem_of_mem_erase hc)
  · intro c hc
    cases List.mem_cons.mp hc with
    | inl he => exact he ▸ hp.toUpdate_sub j hj
    | inr hc => exact hp.failed_sub c hc
  · exact hp.unique
  · exact hperm.nodup_iff.mp hp.nodup
  · intro c hc hn
    cases mem_of_not_mem_erase hn with
    | inl he => exact he ▸ hq
    | inr hn => exact hp.updated c hc hn
  · exact fun r hr => hp.notOwned r (hperm.mem_iff.mpr hr)
  · exact fun r hr => hp.listed r (requestsOf_subset (fun c => List.mem_of_mem_erase) r hr)

/-- A batch goes on, whether the update moves the job or finds it moved. -/
theorem Switching.succeed (hs : Switching s k q jobs toUpdate failed) (hj : j ∈ toUpdate)
    (h : s.updateJobOwner j (.queue q) .agent = some t) :
    Switching t k q jobs (toUpdate.erase j) failed := by
  have hsub : ∀ c ∈ toUpdate.erase j, c ∈ jobs :=
    fun c hc => hs.toUpdate_sub c (List.mem_of_mem_erase hc)
  have hcases := updateJobOwner_some h
  have hkeep : ∀ c, c ≠ j → t.owner c = s.owner c := by
    intro c hc
    cases hcases with
    | inl hmove => simp [hmove.2, State.setOwner, hc]
    | inr hsame => rw [hsame.2]
  have hnew : t.owner j = some (.queue q) := by
    cases hcases with
    | inl hmove => simp [hmove.2, State.setOwner]
    | inr hsame => rw [hsame.2, hsame.1]
  have hrefs : t.references = s.references ∧ t.lock = s.lock := by
    rw [updateJobOwner_eq h]
    exact ⟨rfl, rfl⟩
  constructor
  · rw [hrefs.2]
    exact hs.lock
  · exact hsub
  · exact hs.failed_sub
  · rw [hrefs.1]
    exact hs.referenced
  · intro c hc
    unfold OnlyReference
    rw [hrefs.1]
    exact hs.unique c hc
  · intro c hc
    have hfailed := hs.failed_owner c hc
    -- a job that failed before is not the one that moves now
    have hcj : c ≠ j := by
      intro he
      subst he
      cases hcases with
      | inl hmove => exact hfailed.2 hmove.1
      | inr hsame => exact hfailed.1 hsame.1
    rw [hkeep c hcj]
    exact hfailed
  · intro c hc hn
    by_cases hcj : c = j
    · simp [hcj, hnew]
    · rw [hkeep c hcj]
      exact hs.updated c hc ((mem_of_not_mem_erase hn).resolve_left hcj)
  · intro c hc c' ho he
    by_cases hcj : c' = j
    · simp [hcj, hnew] at ho
    · rw [hkeep c' hcj] at ho
      exact hs.only c hc c' ho he

theorem Switching.fail (hs : Switching s k q jobs toUpdate failed) (hj : j ∈ toUpdate)
    (h : s.updateJobOwner j (.queue q) .agent = none)
    (hq : j.isRetrieve = true → s.owner j ≠ some (.queue q)) :
    Switching s k q jobs (toUpdate.erase j) (j :: failed) := by
  have hnone := updateJobOwner_none h
  constructor
  · exact hs.lock
  · exact fun c hc => hs.toUpdate_sub c (List.mem_of_mem_erase hc)
  · intro c hc
    cases List.mem_cons.mp hc with
    | inl he => exact he ▸ hs.toUpdate_sub j hj
    | inr hc => exact hs.failed_sub c hc
  · exact hs.referenced
  · exact hs.unique
  · intro c hc
    cases List.mem_cons.mp hc with
    | inl he =>
      subst he
      refine ⟨?_, hnone.1⟩
      cases hr : c.isRetrieve with
      | true => exact hq hr
      | false => exact hnone.2 hr
    | inr hc => exact hs.failed_owner c hc
  · intro c hc hn
    cases mem_of_not_mem_erase hn with
    | inl he => exact he ▸ hnone.1
    | inr hn => exact hs.updated c hc hn
  · exact hs.only

theorem Switching.frame_succeed (hs : Switching s k q jobs toUpdate failed)
    (h : s.updateJobOwner j (.queue q) .agent = some t) : Frame (· = k) [] [] s t := by
  cases updateJobOwner_some h with
  | inl hmove =>
    rw [hmove.2]
    refine Frame.setOwner (fun p l hp hl => ?_) fun hn => by cases hn
    cases hp
    exact Option.some.inj (hl.symm.trans hs.lock)
  | inr hsame =>
    rw [hsame.2]
    exact Frame.refl

end

theorem Switching.home_succeed {k : Holder} {jobs toUpdate failed : List Job}
    (hs : Switching s k q jobs toUpdate failed) (hj : j ∈ toUpdate) (hhome : OrphansNothing s)
    (h : s.updateJobOwner j (.queue q) .agent = some t) : OrphansNothing t := by
  cases updateJobOwner_some h with
  | inl hmove =>
    rw [hmove.2]
    exact hhome.setOwner (hs.referenced j (hs.toUpdate_sub j hj))
  | inr hsame => exact hsame.2 ▸ hhome

theorem updateJobOwner_exists {new previous : Owner}
    (h : s.updateJobOwner j new previous = some t) (c : Job) (hc : t.owner c ≠ none) :
    s.owner c ≠ none := by
  cases updateJobOwner_some h with
  | inl hmove =>
    by_cases he : c = j
    · simp [he, hmove.1]
    · simpa [hmove.2, State.setOwner, he] using hc
  | inr hsame => exact hsame.2 ▸ hc

theorem Ok.popUpdate (hok : Ok R s) (h : s.popUpdate i j = some t)
    (hp : Proper R s (.popUpdate i j)) : Ok R t := by
  unfold State.popUpdate at h
  split at h
  · next q candidates toUpdate failed hop =>
    have hpop : Popping s (.operation i) q candidates toUpdate failed := by
      simpa [hop, OperationOk] using hok.operation i
    simp only [Proper, hop] at hp
    split at h
    · next hg =>
      have hj := hg.1
      have hless : ∀ r ∈ requestsOf (toUpdate.erase j), r ∈ requestsOf toUpdate :=
        requestsOf_subset fun _ => List.mem_of_mem_erase
      have hnone := hpop.noneOwned hj
      split at h
      · next u hu =>
        cases h
        cases updateJobOwner_some hu with
        | inr hsame => exact absurd rfl (hnone j hsame.1)
        | inl hmove =>
          obtain ⟨hq, rfl⟩ := hmove
          have hpassed := hp hq
          have hframe : Frame (· = .operation i) [j.request] [] s
              ((s.setOwner j .agent).setOperation i
                (.popping q candidates (toUpdate.erase j) failed)) :=
            (Frame.setOwner (fun _ _ hn _ => by cases hn) fun _ => by simp).trans Frame.setOperation
          have hown : OperationOk (s.setOwner j .agent) i
              (.popping q candidates (toUpdate.erase j) failed) := hpop.take hj
          have hexists := updateJobOwner_exists hu
          refine hok.of_operation hframe rfl hown.setOperation ?_ (.inr ?_) ?_ (by simp) rfl rfl
            hexists ?_ ?_
          · exact fun r hr => .inl (by rw [hop]; exact hr)
          · simpa [hop, Operation.pending] using hless
          · simpa [hop, Operation.pending] using ⟨mem_requestsOf hj, hpassed⟩
          · refine hok.home.setOwner ?_
            exact (hpop.listed _ (mem_requestsOf hj)).resolve_left hpassed
          · intro c c' hc hc' he
            by_cases hcj : c = j
            · by_cases hcj' : c' = j
              · rw [hcj, hcj']
              · have ho : s.owner c' = some .agent := by
                  simpa [State.setOperation, State.setOwner, hcj'] using hc'
                exact absurd (hcj ▸ he.symm) (hnone c' ho)
            · have ho : s.owner c = some .agent := by
                simpa [State.setOperation, State.setOwner, hcj] using hc
              by_cases hcj' : c' = j
              · exact absurd (hcj' ▸ he) (hnone c ho)
              · exact hok.one c c' ho
                  (by simpa [State.setOperation, State.setOwner, hcj'] using hc') he
      · next hu =>
        cases h
        have hframe : Frame (· = .operation i) [] [] s
            (s.setOperation i (.popping q candidates (toUpdate.erase j) (j :: failed))) :=
          Frame.setOperation
        have hown : OperationOk s i (.popping q candidates (toUpdate.erase j) (j :: failed)) :=
          hpop.fail hj (updateJobOwner_none hu).1
        refine hok.of_operation hframe rfl hown.setOperation ?_ (.inr ?_)
          (by simp) (by simp) rfl rfl (fun _ hc => hc) hok.home hok.one
        · exact fun r hr => .inl (by rw [hop]; exact hr)
        · simpa [hop, Operation.pending] using hless
    · cases h
  · cases h

theorem Ok.popDereference (hok : Ok R s) (h : s.popDereference i = some t) : Ok R t := by
  unfold State.popDereference at h
  split at h
  · next q candidates failed hop =>
    have hpop : Popping s (.operation i) q candidates [] failed := by
      simpa [hop, OperationOk] using hok.operation i
    cases h
    have hmine : ∀ k, s.lock q = some k → k = .operation i :=
      fun k hk => Option.some.inj (hk.symm.trans hpop.lock)
    have hframe : Frame (· = .operation i) [] [] s
        (((s.removeReferences q candidates).setLock q none).setOperation i
          (if failed = [] then .idle else .unowning (requestsOf failed))) :=
      ((Frame.setReferences hmine).trans (Frame.setLock (by exact hmine))).trans Frame.setOperation
    refine hok.of_operation hframe rfl ?_ ?_ (.inr ?_) (by simp) (by simp) rfl rfl
      (fun _ hc => hc) ?_ (hframe.one hok.one)
    · split
      · trivial
      · exact fun r hr => hframe.noneOwned List.not_mem_nil (hpop.notOwned r hr)
    · intro r hr
      left
      rw [hop]
      split at hr
      · cases hr
      · exact hpop.requests_sub r hr
    · intro r hr
      split at hr
      · cases hr
      · cases hr
    · exact hok.home.removeReferences hpop.unique fun c hc => hpop.updated c hc List.not_mem_nil
  · cases h

theorem Ok.reference (hok : Ok R s) {elements : List Job} (h : s.reference i q elements = some t)
    (hp : Proper R s (.reference i q elements)) : Ok R t := by
  unfold State.reference at h
  split at h
  · next hg =>
    cases h
    have hfree : ∀ k, s.lock q = some k → k = .operation i := by simp [hg.2]
    have hframe : Frame (· = .operation i) [] [] s
        (((s.setReferences q (s.references q ++ elements)).setLock q
          (some (.operation i))).setOperation i (.referencing q elements elements [])) :=
      ((Frame.setReferences hfree).trans (Frame.setLock (by exact hfree))).trans Frame.setOperation
    refine hok.of_operation hframe rfl ?_ ?_ (.inr ?_) (by simp) (by simp) rfl rfl
      (fun _ hc => hc) ?_ (hframe.one hok.one)
    · constructor
      · simp [State.setOperation, State.setLock]
      · exact fun j hj => hj
      · simp
      · intro j hj
        simp [State.setOperation, State.setLock, State.setReferences, hj]
      · intro j hj c hc he
        obtain ⟨_, _, honly, hself⟩ := hp j hj
        have hc : c ∈ s.references q ++ elements := by
          simpa [State.setOperation, State.setLock, State.setReferences] using hc
        cases List.mem_append.mp hc with
        | inl hc => exact honly c hc he
        | inr hc => exact hself c hc he
      · simp
      · exact fun j hj hn => absurd hj hn
      · intro j hj c ho he
        have ho : s.owner c = some .agent := ho
        have hd := hok.dumped c (by simp [ho])
        exact (hp j hj).1 c (he ▸ hd) ho
    · intro r hr
      obtain ⟨j, hj, rfl⟩ := List.mem_map.mp hr
      exact .inr (hp j hj).2.1
    · exact fun r hr => absurd hr List.not_mem_nil
    · exact hok.home.setReferences fun j hj _ => List.mem_append_left _ hj
  · cases h

theorem Ok.referenceUpdate (hok : Ok R s) (h : s.referenceUpdate i j = some t)
    (hp : Proper R s (.referenceUpdate i j)) : Ok R t := by
  unfold State.referenceUpdate at h
  split at h
  · next q elements toUpdate failed hop =>
    have hsw : Switching s (.operation i) q elements toUpdate failed := by
      simpa [hop, OperationOk] using hok.operation i
    simp only [Proper, hop] at hp
    split at h
    · next hg =>
      split at h
      · next u hu =>
        cases h
        have heq := updateJobOwner_eq hu
        have hframe : Frame (· = .operation i) [] [] s
            (u.setOperation i (.referencing q elements (toUpdate.erase j) failed)) :=
          (hsw.frame_succeed hu).trans Frame.setOperation
        have hown : OperationOk u i (.referencing q elements (toUpdate.erase j) failed) :=
          hsw.succeed hg.1 hu
        have hexists := updateJobOwner_exists hu
        have hhome := hsw.home_succeed hg.1 hok.home hu
        refine hok.of_operation hframe ?_ hown.setOperation ?_ (.inr ?_) (by simp) (by simp) ?_
          ?_ hexists hhome (hframe.one hok.one)
        · rw [heq]
          rfl
        · exact fun r hr => .inl (by rw [hop]; exact hr)
        · exact fun r hr => absurd hr List.not_mem_nil
        · rw [heq]
          rfl
        · rw [heq]
          rfl
      · next hu =>
        cases h
        have hframe : Frame (· = .operation i) [] [] s
            (s.setOperation i (.referencing q elements (toUpdate.erase j) (j :: failed))) :=
          Frame.setOperation
        have hown : OperationOk s i (.referencing q elements (toUpdate.erase j) (j :: failed)) :=
          hsw.fail hg.1 hu hp
        refine hok.of_operation hframe rfl hown.setOperation ?_ (.inr ?_) (by simp) (by simp)
          rfl rfl (fun _ hc => hc) hok.home hok.one
        · exact fun r hr => .inl (by rw [hop]; exact hr)
        · exact fun r hr => absurd hr List.not_mem_nil
    · cases h
  · cases h

/-- Of a batch that is through, nothing is left to the agent. -/
theorem Switching.noneOwned {k : Holder} {jobs failed : List Job}
    (hs : Switching s k q jobs [] failed) (hj : j ∈ jobs) : NoneOwned s j.request := by
  intro c hc he
  have hcj := hs.only j hj c hc he
  exact hs.updated j hj List.not_mem_nil (hcj ▸ hc)

theorem Switching.home_end {k : Holder} {jobs toUpdate failed : List Job}
    (hs : Switching s k q jobs toUpdate failed) (hhome : OrphansNothing s) :
    OrphansNothing (s.removeReferences q failed) :=
  hhome.removeReferences (fun c hc => hs.unique c (hs.failed_sub c hc))
    fun c hc => (hs.failed_owner c hc).1

theorem Ok.referenceEnd (hok : Ok R s) (h : s.referenceEnd i = some t) : Ok R t := by
  unfold State.referenceEnd at h
  split at h
  · next q elements failed hop =>
    have hsw : Switching s (.operation i) q elements [] failed := by
      simpa [hop, OperationOk] using hok.operation i
    cases h
    have hmine : ∀ k, s.lock q = some k → k = .operation i :=
      fun k hk => Option.some.inj (hk.symm.trans hsw.lock)
    have hframe : Frame (· = .operation i) [] [] s
        (((s.removeReferences q failed).setLock q none).setOperation i
          (if failed ≠ [] ∧ transferedElements elements failed = [] then .idle
           else .unowning (transferedElements elements failed))) :=
      ((Frame.setReferences hmine).trans (Frame.setLock (by exact hmine))).trans Frame.setOperation
    have htrans : ∀ r ∈ transferedElements elements failed, r ∈ requestsOf elements :=
      fun r hr => List.mem_of_mem_filter hr
    refine hok.of_operation hframe rfl ?_ ?_ (.inr ?_) (by simp) (by simp) rfl rfl
      (fun _ hc => hc) (hsw.home_end hok.home) (hframe.one hok.one)
    · split
      · trivial
      · intro r hr
        obtain ⟨j, hj, rfl⟩ := List.mem_map.mp (htrans r hr)
        exact hframe.noneOwned List.not_mem_nil (hsw.noneOwned hj)
    · intro r hr
      left
      rw [hop]
      split at hr
      · cases hr
      · exact htrans r hr
    · intro r hr
      split at hr
      · cases hr
      · cases hr
  · cases h

theorem Ok.unown (hok : Ok R s) (h : s.unown i = some t) : Ok R t := by
  unfold State.unown at h
  split at h
  · next requests hop =>
    have hnone : ∀ r ∈ requests, NoneOwned s r := by
      simpa [hop, OperationOk] using hok.operation i
    cases queueAndExecuteAction_cases h with
    | inl he => exact he ▸ hok.endProcess
    | inr hrun =>
      obtain ⟨hidle, a, ha, rfl⟩ := hrun
      have heq : s.setAgent (some (a.removeFromOwnership requests)) =
          s.removeFromOwnership requests := by
        simp [State.removeFromOwnership, ha]
      rw [heq]
      have hframe : Frame (· = .operation i) [] requests s
          ((s.removeFromOwnership requests).setOperation i .idle) :=
        (Frame.removeFromOwnership fun r hr => .inr hr).trans Frame.setOperation
      refine hok.of_operation hframe rfl trivial ?_ (.inl hidle) (by simp) ?_ rfl rfl
        (fun _ hc => hc) (hok.home.removeFromOwnership hnone) hok.one
      · exact fun r hr => absurd hr List.not_mem_nil
      · rw [hop]
        exact fun r hr => hr
  · cases h

end Cta.ObjectStore.RunningAgent

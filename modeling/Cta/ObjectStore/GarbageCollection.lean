import Cta.ObjectStore.GarbageCollector

/-! When the collection of a dead agent gives every sorted retrieve request to its queue. -/
namespace Cta.ObjectStore.GarbageCollector
variable (queue : QueueId) (agent : Address)

theorem updateJobOwner_of_mem {r : Request} {c : Nat} {new : RequestOwner}
    (hc : c ∈ r.jobs.map RetrieveJob.copyNb) :
    r.updateJobOwner c new r.owner = .ok { r with owner := new } := by
  simp [Request.updateJobOwner, RetrieveRequest.updateJobOwner, Request.ownership, hc, Except.map]

theorem updateJobOwner_of_not_mem {r : Request} {c : Nat} {new prev : RequestOwner}
    (hc : c ∉ r.jobs.map RetrieveJob.copyNb) :
    r.updateJobOwner c new prev = .error .wrongPreviousOwner := by
  unfold Request.updateJobOwner RetrieveRequest.updateJobOwner Request.ownership
  split <;> simp [Except.map]

theorem updateJobOwner_of_ne {r : Request} {c : Nat} {new prev : RequestOwner}
    (h : r.owner ≠ prev) : r.updateJobOwner c new prev = .error .wrongPreviousOwner := by
  simp [Request.updateJobOwner, RetrieveRequest.updateJobOwner, Request.ownership, h, Except.map]

def copiesOf (a : Address) (js : List (Address × Nat)) : List Nat :=
  (js.filter (·.1 = a)).map Prod.snd

theorem updateOwners_other (objects : Address → Option Request) (js : List (Address × Nat))
    {a : Address} (ha : a ∉ js.map Prod.fst) :
    (updateOwners queue agent objects js).1 a = objects a ∧
      a ∉ (updateOwners queue agent objects js).2.map Prod.fst := by
  induction js generalizing objects with
  | nil => simp [updateOwners]
  | cons j js ih =>
    obtain ⟨b, c⟩ := j
    simp only [List.map_cons, List.mem_cons, not_or] at ha
    unfold updateOwners
    split
    · have h := ih (Function.update objects b (some ‹_›)) ha.2
      exact ⟨h.1.trans (by simp [ha.1]), h.2⟩
    · have h := ih objects ha.2
      exact ⟨h.1, by simpa [ha.1] using h.2⟩

theorem updateOwners_owned (objects : Address → Option Request) (js : List (Address × Nat))
    {a : Address} {r : Request} (hr : objects a = some r) (ho : r.owner = .queue queue) :
    (updateOwners queue agent objects js).1 a = some r ∧
      (a ∈ (updateOwners queue agent objects js).2.map Prod.fst ↔ a ∈ js.map Prod.fst) := by
  induction js generalizing objects with
  | nil => simp [updateOwners, hr]
  | cons j js ih =>
    obtain ⟨b, c⟩ := j
    by_cases hb : a = b
    · subst hb
      have he : r.updateJobOwner c (.queue queue) (.agent agent) = .error .wrongPreviousOwner :=
        updateJobOwner_of_ne (by simp [ho])
      simp only [updateOwners, hr, Option.elim_some, he, List.map_cons, List.mem_cons, true_or,
        and_true]
      exact (ih objects hr).1
    · unfold updateOwners
      split
      · have h := ih (Function.update objects b (some ‹_›)) (by simp [hb, hr])
        simpa [hb] using h
      · have h := ih objects hr
        simpa [hb] using h

/-- A request of the agent makes it to the queue exactly when there is one job for it, of a
copy that it has. -/
theorem updateOwners_agent (objects : Address → Option Request) (js : List (Address × Nat))
    {a : Address} {r : Request} (hr : objects a = some r) (ho : r.owner = .agent agent) :
    ((∃ x, (updateOwners queue agent objects js).1 a = some x ∧ x.owner = .queue queue) ∧
        a ∉ (updateOwners queue agent objects js).2.map Prod.fst) ↔
      ∃ c, copiesOf a js = [c] ∧ c ∈ r.jobs.map RetrieveJob.copyNb := by
  induction js generalizing objects with
  | nil => simp [updateOwners, hr, ho, copiesOf]
  | cons j js ih =>
    obtain ⟨b, c⟩ := j
    by_cases hb : b = a
    · subst hb
      have hcopies : copiesOf b ((b, c) :: js) = c :: copiesOf b js := by simp [copiesOf]
      by_cases hc : c ∈ r.jobs.map RetrieveJob.copyNb
      · -- the first job that fits moves the request to the queue, and any further one fails
        let r' : Request := { r with owner := .queue queue }
        have hok : r.updateJobOwner c (.queue queue) (.agent agent) = .ok r' :=
          ho ▸ updateJobOwner_of_mem hc
        have hr' : Function.update objects b (some r') b = some r' := by simp
        obtain ⟨hobj, hfailed⟩ := updateOwners_owned queue agent _ js hr' rfl
        have hnone : b ∉ js.map Prod.fst ↔ copiesOf b js = [] := by
          simp only [copiesOf, List.mem_map, not_exists, not_and, List.map_eq_nil_iff,
            List.filter_eq_nil_iff, decide_eq_true_eq]
        simp only [updateOwners, hr, Option.elim_some, hok, hobj, hfailed, hcopies, hnone]
        constructor
        · intro h
          exact ⟨c, by rw [h.2], hc⟩
        · rintro ⟨d, hd, -⟩
          exact ⟨⟨r', rfl, rfl⟩, (List.cons.inj hd).2⟩
      · have he : r.updateJobOwner c (.queue queue) (.agent agent) = .error .wrongPreviousOwner :=
          updateJobOwner_of_not_mem hc
        simp only [updateOwners, hr, Option.elim_some, he, hcopies, List.map_cons, List.mem_cons,
          true_or, not_true_eq_false, and_false, false_iff, not_exists, not_and]
        intro d hd
        rw [← (List.cons.inj hd).1]
        exact hc
    · have hcopies : copiesOf a ((b, c) :: js) = copiesOf a js := by simp [copiesOf, hb]
      rw [hcopies]
      unfold updateOwners
      split
      · exact ih _ (by simp [Ne.symm hb, hr])
      · have h := ih objects hr
        simpa [Ne.symm hb] using h

def Queued (w : World) (queue : QueueId) (a : Address) : Prop :=
  (∃ r, w.objects a = some r ∧ r.owner = .queue queue) ∧ a ∈ w.queues queue

def Agree (w w' : World) (a : Address) : Prop :=
  w'.objects a = w.objects a ∧ ∀ q, a ∈ w'.queues q ↔ a ∈ w.queues q

theorem Agree.queued {w w' : World} {queue : QueueId} {a : Address} (h : Agree w w' a) :
    Queued w' queue a ↔ Queued w queue a := by
  rw [Queued, Queued, h.1, h.2]

def Round.Valid (w : World) (r : Round) : Prop :=
  ∀ f ∈ r.batch, w.objects f.address = some f.request ∧ f.request.owner = .agent agent

/-- Some request of the batch is not referenced yet, and each has one tape file on the vid,
with a job for its copy. -/
def Round.Clean (w : World) (r : Round) : Prop :=
  (∃ f ∈ r.batch, f.address ∉ w.queues r.queue) ∧
    ∀ f ∈ r.batch, ∃ tf, f.request.tapeFiles.filter (·.vid = r.vid) = [tf] ∧
      tf.copyNb ∈ f.request.jobs.map RetrieveJob.copyNb

variable {queue agent} {w : World} {r : Round}

theorem jobsToAdd_address {a : Address} (ha : a ∉ r.batch.map Fetched.address) :
    a ∉ r.jobsToAdd.map Prod.fst := by
  intro h
  obtain ⟨j, hj, rfl⟩ := List.mem_map.mp h
  obtain ⟨f, hf, hj⟩ := List.mem_flatMap.mp hj
  obtain ⟨tf, -, rfl⟩ := List.mem_map.mp hj
  exact ha (List.mem_map_of_mem hf)

theorem copiesOf_flatMap_of_not_mem (g : Fetched → List Nat) {a : Address} {fs : List Fetched}
    (ha : a ∉ fs.map Fetched.address) :
    copiesOf a (fs.flatMap fun f => (g f).map (f.address, ·)) = [] := by
  simp only [copiesOf, List.map_eq_nil_iff, List.filter_eq_nil_iff, decide_eq_true_eq]
  rintro j hj rfl
  obtain ⟨f, hf, hj⟩ := List.mem_flatMap.mp hj
  obtain ⟨c, -, rfl⟩ := List.mem_map.mp hj
  exact ha (List.mem_map_of_mem hf)

theorem copiesOf_flatMap (g : Fetched → List Nat) {f : Fetched} {fs : List Fetched}
    (hnd : (fs.map Fetched.address).Nodup) (hf : f ∈ fs) :
    copiesOf f.address (fs.flatMap fun f => (g f).map (f.address, ·)) = g f := by
  induction fs with
  | nil => cases hf
  | cons e fs ih =>
    have happ : ∀ js js' : List (Address × Nat),
        copiesOf f.address (js ++ js') = copiesOf f.address js ++ copiesOf f.address js' := by
      simp [copiesOf]
    rw [List.map_cons, List.nodup_cons] at hnd
    rw [List.flatMap_cons, happ]
    cases List.mem_cons.mp hf with
    | inl he =>
      subst he
      rw [copiesOf_flatMap_of_not_mem g hnd.1]
      simp [copiesOf, List.filter_map, Function.comp_def]
    | inr hm =>
      have hne : e.address ≠ f.address := fun h => hnd.1 (h ▸ List.mem_map_of_mem hm)
      rw [ih hnd.2 hm]
      simp [copiesOf, List.filter_map, Function.comp_def, hne]

theorem copiesOf_jobsToAdd (hnd : (r.batch.map Fetched.address).Nodup) {f : Fetched}
    (hf : f ∈ r.batch) :
    copiesOf f.address r.jobsToAdd =
      (f.request.tapeFiles.filter (·.vid = r.vid)).map TapeFile.copyNb := by
  have h := copiesOf_flatMap
    (fun f => (f.request.tapeFiles.filter (·.vid = r.vid)).map TapeFile.copyNb) hnd hf
  simpa [Round.jobsToAdd, Function.comp_def] using h

theorem requeue_agree {a : Address} (ha : a ∉ r.batch.map Fetched.address) :
    Agree w (requeue agent w r) a := by
  have hjobs := jobsToAdd_address ha
  have hadded : a ∉ (jobsToReallyAdd (w.queues r.queue) r.jobsToAdd).map Prod.fst := by
    intro h
    obtain ⟨j, hj, rfl⟩ := List.mem_map.mp h
    exact hjobs (List.mem_map_of_mem (List.mem_of_mem_filter hj))
  obtain ⟨hobj, hfailed⟩ := updateOwners_other r.queue agent w.objects r.jobsToAdd hjobs
  by_cases hnil : jobsToReallyAdd (w.queues r.queue) r.jobsToAdd = []
  · refine ⟨by simp [requeue, hnil], fun q => ?_⟩
    by_cases hq : q = r.queue
    · subst hq
      simp [requeue, hnil]
    · simp [requeue, hnil]
  · refine ⟨by simp [requeue, hnil, hobj], fun q => ?_⟩
    by_cases hq : q = r.queue
    · subst hq
      simp only [requeue, hnil, if_false, Function.update_self, List.mem_filter, List.mem_append,
        hadded, or_false, decide_eq_true_eq]
      exact and_iff_left hfailed
    · simp [requeue, hnil, hq]

theorem mem_jobsToReallyAdd {references : List Address} {a : Address} (ha : a ∉ references)
    {js : List (Address × Nat)} (hc : copiesOf a js ≠ []) :
    a ∈ (jobsToReallyAdd references js).map Prod.fst := by
  obtain ⟨c, hc⟩ := List.exists_mem_of_ne_nil _ hc
  obtain ⟨j, hj, -⟩ := List.mem_map.mp hc
  rw [List.mem_filter, decide_eq_true_eq] at hj
  refine List.mem_map.mpr ⟨j, List.mem_filter.mpr ⟨hj.1, ?_⟩, hj.2⟩
  simpa [hj.2] using ha

/-- When the updates are run, a request of the batch ends in the queue if it has one tape
file on the vid, with a job. -/
theorem requeue_queued (hv : r.Valid agent w) (hnd : (r.batch.map Fetched.address).Nodup)
    {f : Fetched} (hf : f ∈ r.batch) :
    Queued (requeue agent w r) r.queue f.address ↔
      jobsToReallyAdd (w.queues r.queue) r.jobsToAdd ≠ [] ∧
        ∃ tf, f.request.tapeFiles.filter (·.vid = r.vid) = [tf] ∧
          tf.copyNb ∈ f.request.jobs.map RetrieveJob.copyNb := by
  obtain ⟨hobj, howner⟩ := hv f hf
  have hcopies := copiesOf_jobsToAdd hnd hf
  by_cases hnil : jobsToReallyAdd (w.queues r.queue) r.jobsToAdd = []
  · simp [Queued, requeue, hnil, hobj, howner]
  · have hmain := updateOwners_agent r.queue agent w.objects r.jobsToAdd hobj howner
    rw [hcopies] at hmain
    have hone : (∃ c, (f.request.tapeFiles.filter (·.vid = r.vid)).map TapeFile.copyNb = [c] ∧
          c ∈ f.request.jobs.map RetrieveJob.copyNb) ↔
        ∃ tf, f.request.tapeFiles.filter (·.vid = r.vid) = [tf] ∧
          tf.copyNb ∈ f.request.jobs.map RetrieveJob.copyNb := by
      simp only [List.map_eq_singleton_iff]
      grind
    rw [hone] at hmain
    simp only [Queued, requeue, hnil, if_false, Function.update_self, List.mem_filter,
      List.mem_append, decide_eq_true_eq, ne_eq, not_false_eq_true, true_and]
    constructor
    · intro h
      exact hmain.mp ⟨h.1, h.2.2⟩
    · intro h
      obtain ⟨howned, hfailed⟩ := hmain.mpr h
      refine ⟨howned, ?_, hfailed⟩
      by_cases hr : f.address ∈ w.queues r.queue
      · exact .inl hr
      · obtain ⟨tf, htf, -⟩ := h
        exact .inr (mem_jobsToReallyAdd hr (by simp [hcopies, htf]))

theorem requeue_all_queued (hv : r.Valid agent w) (hnd : (r.batch.map Fetched.address).Nodup)
    (hne : r.batch ≠ []) :
    (∀ f ∈ r.batch, Queued (requeue agent w r) r.queue f.address) ↔ r.Clean w := by
  constructor
  · intro h
    obtain ⟨e, he⟩ := List.exists_mem_of_ne_nil _ hne
    obtain ⟨hadded, -⟩ := (requeue_queued hv hnd he).mp (h e he)
    refine ⟨?_, fun f hf => ((requeue_queued hv hnd hf).mp (h f hf)).2⟩
    obtain ⟨j, hj⟩ := List.exists_mem_of_ne_nil _ hadded
    rw [jobsToReallyAdd, List.mem_filter, decide_eq_true_eq] at hj
    obtain ⟨f, hf, hjf⟩ := List.mem_flatMap.mp hj.1
    obtain ⟨tf, -, rfl⟩ := List.mem_map.mp hjf
    exact ⟨f, hf, hj.2⟩
  · rintro ⟨⟨e, he, hnew⟩, hone⟩ f hf
    refine (requeue_queued hv hnd hf).mpr ⟨fun hnil => ?_, hone f hf⟩
    obtain ⟨tf, htf, -⟩ := hone e he
    have hcopies : copiesOf e.address r.jobsToAdd ≠ [] := by simp [copiesOf_jobsToAdd hnd he, htf]
    have hm := mem_jobsToReallyAdd hnew hcopies
    simp [hnil] at hm

theorem foldl_agree (rs : List Round) (w : World) {a : Address}
    (ha : ∀ r ∈ rs, a ∉ r.batch.map Fetched.address) :
    Agree w (rs.foldl (requeue agent) w) a := by
  induction rs generalizing w with
  | nil => exact ⟨rfl, fun _ => Iff.rfl⟩
  | cons r rs ih =>
    have h1 : Agree w (requeue agent w r) a := requeue_agree (ha r List.mem_cons_self)
    have h2 := ih (requeue agent w r) fun r' hr' => ha r' (List.mem_cons_of_mem r hr')
    exact ⟨h2.1.trans h1.1, fun q => (h2.2 q).trans (h1.2 q)⟩

/-- Rounds over different requests succeed exactly when each of them is clean in the
beginning. -/
theorem foldl_requeue_queued (rs : List Round) (w : World)
    (hnd : (rs.flatMap fun r => r.batch.map Fetched.address).Nodup)
    (hv : ∀ r ∈ rs, r.Valid agent w) (hne : ∀ r ∈ rs, r.batch ≠ []) :
    (∀ r ∈ rs, ∀ f ∈ r.batch, Queued (rs.foldl (requeue agent) w) r.queue f.address) ↔
      ∀ r ∈ rs, r.Clean w := by
  induction rs generalizing w with
  | nil => simp
  | cons r rs ih =>
    rw [List.flatMap_cons, List.nodup_append] at hnd
    obtain ⟨hr, hrs, hdisj⟩ := hnd
    have hother : ∀ r' ∈ rs, ∀ f ∈ r'.batch, f.address ∉ r.batch.map Fetched.address := by
      intro r' hr' f hf hm
      exact hdisj _ hm _ (List.mem_flatMap.mpr ⟨r', hr', List.mem_map_of_mem hf⟩) rfl
    have hfirst : ∀ f ∈ r.batch, ∀ r' ∈ rs, f.address ∉ r'.batch.map Fetched.address := by
      intro f hf r' hr' hm
      exact hdisj _ (List.mem_map_of_mem hf) _ (List.mem_flatMap.mpr ⟨r', hr', hm⟩) rfl
    have hagree : ∀ r' ∈ rs, ∀ f ∈ r'.batch, Agree w (requeue agent w r) f.address :=
      fun r' hr' f hf => requeue_agree (hother r' hr' f hf)
    have hv' : ∀ r' ∈ rs, r'.Valid agent (requeue agent w r) := by
      intro r' hr' f hf
      rw [(hagree r' hr' f hf).1]
      exact hv r' (List.mem_cons_of_mem r hr') f hf
    have hclean : ∀ r' ∈ rs, (r'.Clean (requeue agent w r) ↔ r'.Clean w) := by
      intro r' hr'
      have hmem : ∀ f ∈ r'.batch, (f.address ∉ (requeue agent w r).queues r'.queue ↔
          f.address ∉ w.queues r'.queue) := fun f hf => not_congr ((hagree r' hr' f hf).2 _)
      unfold Round.Clean
      refine and_congr_left' (exists_congr fun f => and_congr_right fun hf => hmem f hf)
    have hrest := ih (requeue agent w r) hrs hv' fun r' hr' => hne r' (List.mem_cons_of_mem r hr')
    have hhead : (∀ f ∈ r.batch,
        Queued (rs.foldl (requeue agent) (requeue agent w r)) r.queue f.address) ↔ r.Clean w := by
      rw [← requeue_all_queued (hv r List.mem_cons_self) hr (hne r List.mem_cons_self)]
      exact forall₂_congr fun f hf => (foldl_agree rs _ (hfirst f hf)).queued
    rw [List.foldl_cons, List.forall_mem_cons, List.forall_mem_cons, hhead, hrest]
    exact and_congr_right' (forall₂_congr hclean)

variable {select : Finset String → Bool → Option String}

theorem batches_flatten (fs : List Fetched) : (batches fs).flatten = fs := by
  induction fs using batches.induct with
  | case1 => simp [batches]
  | case2 f fs ih =>
    rw [batches, List.flatten_cons, ih]
    exact List.take_append_drop 501 (f :: fs)

theorem ne_nil_of_mem_batches {fs b : List Fetched} (hb : b ∈ batches fs) : b ≠ [] := by
  induction fs using batches.induct with
  | case1 => simp [batches] at hb
  | case2 f fs ih =>
    rw [batches, List.mem_cons] at hb
    cases hb with
    | inl h => simp [h]
    | inr h => exact ih h

theorem mem_sortedRequests {k : Key} {f : Fetched} :
    (k, f) ∈ sortedRequests select agent w ↔ f.address ∈ w.ownership ∧
      w.objects f.address = some f.request ∧ f.request.owner = .agent agent ∧
      f.request.destination select = some k := by
  simp only [sortedRequests, fetchedObjects, List.mem_filterMap, Option.map_eq_some_iff,
    Option.ite_none_right_eq_some, Prod.mk.injEq]
  constructor
  · rintro ⟨g, ⟨a, ha, x, hx, rfl⟩, ho, k', hk, rfl, rfl⟩
    exact ⟨ha, hx, ho, hk⟩
  · rintro ⟨ha, hx, ho, hk⟩
    exact ⟨f, ⟨f.address, ha, f.request, hx, rfl⟩, ho, k, hk, rfl, rfl⟩

theorem sortedRequests_nodup (hnd : w.ownership.Nodup) :
    ((sortedRequests select agent w).map (·.2.address)).Nodup := by
  have hfetched : ((fetchedObjects w).map Fetched.address).Sublist w.ownership := by
    unfold fetchedObjects
    induction w.ownership with
    | nil => simp
    | cons a as ih =>
      cases hx : w.objects a with
      | none => simpa [List.filterMap_cons, hx] using ih.cons a
      | some x => simpa [List.filterMap_cons, hx] using ih.cons_cons a
  have hsorted : ((sortedRequests select agent w).map (·.2.address)).Sublist
      ((fetchedObjects w).map Fetched.address) := by
    unfold sortedRequests
    induction fetchedObjects w with
    | nil => simp
    | cons f fs ih =>
      rw [List.filterMap_cons]
      split
      · next h =>
        simpa using ih.cons _
      · next b h =>
        have hb : b.2 = f := by
          simp only [Option.ite_none_right_eq_some, Option.map_eq_some_iff] at h
          obtain ⟨-, k, -, rfl⟩ := h
          rfl
        simpa [hb] using ih.cons_cons f.address
  exact (hsorted.trans hfetched).nodup hnd

def requestsOf (select : Finset String → Bool → Option String) (agent : Address) (w : World)
    (k : Key) : List Fetched :=
  ((sortedRequests select agent w).filter (·.1 = k)).map Prod.snd

theorem mem_requestsOf {k : Key} {f : Fetched} :
    f ∈ requestsOf select agent w k ↔ (k, f) ∈ sortedRequests select agent w := by
  simp [requestsOf]

theorem mem_rounds {r : Round} : r ∈ rounds select agent w ↔
    ∃ k, r.queue = k.queue ∧ r.vid = k.vid ∧ r.batch ∈ batches (requestsOf select agent w k) := by
  simp only [rounds, List.mem_flatMap, List.mem_mergeSort, List.mem_dedup, List.mem_map]
  constructor
  · rintro ⟨k, -, b, hb, rfl⟩
    exact ⟨k, rfl, rfl, hb⟩
  · rintro ⟨k, hq, hv, hb⟩
    refine ⟨k, ?_, r.batch, hb, ?_⟩
    · obtain ⟨f, hf⟩ := List.exists_mem_of_ne_nil _ (ne_nil_of_mem_batches hb)
      have hm : f ∈ requestsOf select agent w k := by
        rw [← batches_flatten (requestsOf select agent w k)]
        exact List.mem_flatten_of_mem hb hf
      exact ⟨(k, f), mem_requestsOf.mp hm, rfl⟩
    · rw [← hq, ← hv]

theorem mem_round_batch {f : Fetched} {q : QueueId} :
    (∃ r ∈ rounds select agent w, r.queue = q ∧ f ∈ r.batch) ↔
      ∃ k : Key, k.queue = q ∧ (k, f) ∈ sortedRequests select agent w := by
  constructor
  · rintro ⟨r, hr, rfl, hf⟩
    obtain ⟨k, hq, -, hb⟩ := mem_rounds.mp hr
    refine ⟨k, hq.symm, mem_requestsOf.mp ?_⟩
    rw [← batches_flatten (requestsOf select agent w k)]
    exact List.mem_flatten_of_mem hb hf
  · rintro ⟨k, rfl, hf⟩
    have hm := mem_requestsOf.mpr hf
    rw [← batches_flatten (requestsOf select agent w k)] at hm
    obtain ⟨b, hb, hf⟩ := List.mem_flatten.mp hm
    exact ⟨⟨k.queue, k.vid, b⟩, mem_rounds.mpr ⟨k, rfl, rfl, hb⟩, rfl, hf⟩

theorem rounds_nodup (hnd : w.ownership.Nodup) :
    ((rounds select agent w).flatMap fun r => r.batch.map Fetched.address).Nodup := by
  have hkeys : (rounds select agent w).flatMap (fun r => r.batch.map Fetched.address) =
      (((sortedRequests select agent w).map Prod.fst).dedup.mergeSort Key.le).flatMap
        fun k => (requestsOf select agent w k).map Fetched.address := by
    unfold rounds
    rw [List.flatMap_assoc]
    apply List.flatMap_congr
    intro k _
    rw [List.flatMap_map]
    conv_rhs => rw [← batches_flatten (requestsOf select agent w k)]
    rw [List.map_flatten, ← List.flatMap_def]
    rfl
  have hsorted : ((sortedRequests select agent w).map (·.2.address)).Nodup :=
    sortedRequests_nodup hnd
  rw [hkeys, List.nodup_flatMap]
  constructor
  · intro k _
    have hsub : ((requestsOf select agent w k).map Fetched.address).Sublist
        ((sortedRequests select agent w).map (·.2.address)) := by
      rw [requestsOf, List.map_map]
      exact List.Sublist.map _ List.filter_sublist
    exact hsub.nodup hsorted
  · have hperm := List.mergeSort_perm ((sortedRequests select agent w).map Prod.fst).dedup Key.le
    refine (hperm.nodup_iff.mpr (List.nodup_dedup _)).imp ?_
    intro k l hkl a hk hl
    obtain ⟨f, hf, rfl⟩ := List.mem_map.mp hk
    obtain ⟨g, hg, he⟩ := List.mem_map.mp hl
    have hinj := List.inj_on_of_nodup_map hsorted (mem_requestsOf.mp hf) (mem_requestsOf.mp hg)
      he.symm
    exact hkl (congrArg Prod.fst hinj)

/-- The collection gives every sorted request to its queue exactly when every round is
clean. -/
theorem cleanupDeadAgent_queues_all_iff (select : Finset String → Bool → Option String)
    (agent : Address) (w : World) (hnd : w.ownership.Nodup) :
    (∀ k f, (k, f) ∈ sortedRequests select agent w →
        Queued (cleanupDeadAgent select agent w) k.queue f.address) ↔
      ∀ r ∈ rounds select agent w, r.Clean w := by
  have hvalid : ∀ r ∈ rounds select agent w, r.Valid agent (sortFetchedObjects agent w) := by
    intro r hr f hf
    obtain ⟨k, -, hk⟩ := mem_round_batch.mp ⟨r, hr, rfl, hf⟩
    obtain ⟨-, hobj, howner, -⟩ := mem_sortedRequests.mp hk
    exact ⟨hobj, howner⟩
  have hne : ∀ r ∈ rounds select agent w, r.batch ≠ [] := by
    intro r hr
    obtain ⟨k, -, -, hb⟩ := mem_rounds.mp hr
    exact ne_nil_of_mem_batches hb
  have hrun := foldl_requeue_queued (rounds select agent w) (sortFetchedObjects agent w)
    (rounds_nodup hnd) hvalid hne
  have hclean : (∀ r ∈ rounds select agent w, r.Clean (sortFetchedObjects agent w)) ↔
      ∀ r ∈ rounds select agent w, r.Clean w := Iff.rfl
  rw [← hclean, ← hrun]
  constructor
  · intro h r hr f hf
    obtain ⟨k, hq, hk⟩ := mem_round_batch.mp ⟨r, hr, rfl, hf⟩
    rw [← hq]
    exact h k f hk
  · intro h k f hk
    obtain ⟨r, hr, hq, hf⟩ := mem_round_batch.mpr ⟨k, rfl, hk⟩
    rw [← hq]
    exact h r hr f hf

def toTransfer : Request where
  owner := .agent "dead"
  jobs := [⟨1, .toTransfer⟩]
  tapeFiles := [⟨"V1", 1⟩]
  repackRequestAddress := ""
  forceDisabledTape := false
  tapeFiles_ne := by simp

def oneListed (references : List Address) : World where
  objects := fun a => if a = "a" then some toTransfer else none
  queues := fun q => if q = ("V1", .jobsToTransferForUser) then references else []
  ownership := ["a"]

def selectV1 (_ : Finset String) (_ : Bool) : Option String := some "V1"

theorem sortedRequests_oneListed (references : List Address) :
    sortedRequests selectV1 "dead" (oneListed references) =
      [(⟨"V1", .jobsToTransferForUser, "V1"⟩, ⟨"a", toTransfer⟩)] := by
  have hd : toTransfer.destination selectV1 = some ⟨"V1", .jobsToTransferForUser, "V1"⟩ := by
    simp [Request.destination, Request.candidateVids, toTransfer, selectV1]
  simp [sortedRequests, fetchedObjects, oneListed]
  rfl

theorem rounds_oneListed (references : List Address) :
    rounds selectV1 "dead" (oneListed references) =
      [⟨("V1", .jobsToTransferForUser), "V1", [⟨"a", toTransfer⟩]⟩] := by
  simp [rounds, sortedRequests_oneListed, batches, Key.queue]

theorem cleanupDeadAgent_queues_all_iff_oneListed :
    (oneListed []).ownership.Nodup ∧
      ((∀ k f, (k, f) ∈ sortedRequests selectV1 "dead" (oneListed []) →
          Queued (cleanupDeadAgent selectV1 "dead" (oneListed [])) k.queue f.address) ↔
        ∀ r ∈ rounds selectV1 "dead" (oneListed []), r.Clean (oneListed [])) :=
  ⟨by simp [oneListed], cleanupDeadAgent_queues_all_iff _ _ _ (by simp [oneListed])⟩

/-- The agent died between the reference and the change of owner: the only request of the
batch stays with the dead agent, which forgets it. -/
theorem cleanupDeadAgent_orphans :
    ¬ (∀ k f, (k, f) ∈ sortedRequests selectV1 "dead" (oneListed ["a"]) →
        Queued (cleanupDeadAgent selectV1 "dead" (oneListed ["a"])) k.queue f.address) ∧
      (cleanupDeadAgent selectV1 "dead" (oneListed ["a"])).objects "a" = some toTransfer ∧
      toTransfer.owner = .agent "dead" ∧
      "a" ∉ (cleanupDeadAgent selectV1 "dead" (oneListed ["a"])).ownership := by
  have hobj : (cleanupDeadAgent selectV1 "dead" (oneListed ["a"])).objects "a" =
      some toTransfer := by
    rw [cleanupDeadAgent, rounds_oneListed]
    simp [requeue, sortFetchedObjects, oneListed, Round.jobsToAdd, jobsToReallyAdd, toTransfer]
  refine ⟨fun h => ?_, hobj, rfl, ?_⟩
  · obtain ⟨⟨r, hr, ho⟩, -⟩ := h _ _ (by rw [sortedRequests_oneListed]; exact List.mem_cons_self)
    rw [hobj] at hr
    cases hr
    simp [toTransfer] at ho
  · rw [cleanupDeadAgent, rounds_oneListed]
    simp [requeue, sortFetchedObjects, oneListed, Round.jobsToAdd, jobsToReallyAdd, toTransfer]

end Cta.ObjectStore.GarbageCollector

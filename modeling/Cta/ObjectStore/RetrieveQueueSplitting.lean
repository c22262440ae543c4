import Cta.ObjectStore.RetrieveQueueProgress

/-! Splitting during an addition: the accesses that the code does not check go wrong
exactly when a shard is cut twice or a cut leaves it empty. -/
namespace Cta.ObjectStore.RetrieveQueue
open StoreError ValueCountMap Cta.Lib.Sequence Cta.Lib.PartedStore
open RetrieveQueueShard (Coherent kept gone)

theorem grows_shardSummary (s : RetrieveQueueShard) : Grows (shardSummary s) :=
  .bind (.observe _) fun _ => .fromExcept _

theorem grows_fetchShard (a : ShardAddress) : Grows (fetchShard a) :=
  .bind (.lookupPart a) fun _ => .fromOption _ _

theorem grows_rebuildShard (a : ShardAddress) (found : Option RetrieveQueueShard)
    (t : RebuildTotals) : Grows (rebuildShard a found t) := by
  refine .bind .getMemory fun p => ?_
  cases found with
  | none => exact .bind (.setMemory _) fun _ => .pure _
  | some s =>
    refine .bind (.fromExcept _) fun p => .bind (.fromOption _ _) fun shards =>
      .bind (.setMemory _) fun _ => .bind (grows_shardSummary s) fun summary => ?_
    exact .ite (.bind (grows_fetchShard a) fun _ => .bind (.putPart _ _) fun _ => .pure _) (.pure _)

theorem grows_rebuildShards (l : List (ShardAddress × Option RetrieveQueueShard))
    (t : RebuildTotals) : Grows (rebuildShards l t) := by
  induction l generalizing t with
  | nil => exact .pure _
  | cons x l ih => exact .bind (grows_rebuildShard x.1 x.2 t) fun t' => ih t'

theorem grows_rebuild : Grows rebuild :=
  .bind .getMemory fun _ => .bind (.setMemory _) fun _ =>
    .bind (.mapM (fun _ => .bind (.lookupPart _) fun _ => .pure _) _) fun _ =>
      .bind (grows_rebuildShards _ _) fun _ => .bind .getMemory fun _ => .setMemory _

theorem grows_commit : Grows commit :=
  .bind .getMemory fun _ => .bind (.fromExcept _) fun _ =>
    .ite (.bind grows_rebuild fun _ => .commitRoot) .commitRoot

theorem grows_mutablePointer (i : Nat) (owner : ShardAddress) : Grows (mutablePointer i owner) :=
  .bind .getMemory fun _ => .bind (.observe _) fun _ => .fromOption _ _

theorem grows_setPointer (i : Nat) (q : RetrieveQueueShardPointer) : Grows (setPointer i q) :=
  .bind .getMemory fun _ => .setMemory _

theorem grows_updatePointer (i : Nat)
    (change : RetrieveQueueShardPointer → RetrieveQueueShardPointer) :
    Grows (updatePointer i change) :=
  .bind .getMemory fun _ => .setMemory _

theorem grows_fillShard (e : ShardForAddition) (u : ShardUpdate) : Grows (fillShard e u) :=
  .bind .getMemory fun _ => .bind (.fromExcept _) fun _ => .bind (.setMemory _) fun _ =>
    .bind (.fromOption _ _) fun _ => .pure _

theorem grows_recordShard (e : ShardForAddition) (u : ShardUpdate) : Grows (recordShard e u) :=
  .bind (grows_shardSummary _) fun _ => .bind (grows_updatePointer _ _) fun _ =>
    .bind .getMemory fun _ => .setMemory _

theorem grows_storeShard (e : ShardForAddition) (u : ShardUpdate) : Grows (storeShard e u) := by
  unfold storeShard
  refine .ite (.bind .commitRoot fun _ => ?_) (.bind grows_commit fun _ => ?_)
  all_goals
    refine .bind (.putPart _ _) fun _ => ?_
    cases u.splitFrom with
    | none => exact .pure _
    | some x => exact .putPart _ _

theorem grows_splitShard (plan : List ShardForAddition) (l : ShardForAddition)
    (a : ShardAddress) : Grows (splitShard plan l a) :=
  .bind (.fromOption _ _) fun _ => .bind (.fromOption _ _) fun _ =>
    .bind (grows_mutablePointer _ _) fun _ => .bind (grows_fetchShard _) fun _ =>
      .bind (.fromOption _ _) fun _ => .bind (grows_setPointer _ _) fun _ =>
        .bind (grows_setPointer _ _) fun _ => .pure _

theorem grows_createShard (plan : List ShardForAddition) (e : ShardForAddition) :
    Grows (createShard plan e) :=
  .bind .freshId fun _ => .bind .getMemory fun _ => .bind (.fromOption _ _) fun _ =>
    .bind (.setMemory _) fun _ => .bind (grows_mutablePointer _ _) fun _ =>
      .ite (grows_splitShard _ _ _) (.pure _)

theorem grows_openShard (e : ShardForAddition) : Grows (openShard e) :=
  .bind (.fromOption _ _) fun _ => .bind (grows_fetchShard _) fun _ =>
    .bind (grows_mutablePointer _ _) fun _ => .pure _

theorem grows_addToShard (plan : List ShardForAddition) (e : ShardForAddition) :
    Grows (addToShard plan e) := by
  have hrest : ∀ u, Grows (do
      let u ← fillShard e u
      recordShard e u
      storeShard e u : Op Unit) := fun u =>
    .bind (grows_fillShard e u) fun _ => .bind (grows_recordShard e _) fun _ => grows_storeShard e _
  exact .ite (.bind (grows_createShard plan e) hrest) (.bind (grows_openShard e) hrest)

theorem grows_executePlan (plan l : List ShardForAddition) : Grows (executePlan plan l) := by
  induction l with
  | nil => exact .pure _
  | cons e l ih => exact .bind (grows_addToShard plan e) fun _ => ih

/-- A cut leaves a stored job in the shard; or it takes them all, and the batch brings one. -/
def SourceKeeps (l e : ShardForAddition) (s : RetrieveQueueShard) : Prop :=
  (∃ x ∈ s.retrieveJobs, x.address ∉ movedAddresses l s) ∨
    e.jobsToAdd ≠ [] ∧ ∀ x ∈ s.retrieveJobs, l.minFseq ≤ x.fSeq ∧ x.fSeq ≤ l.maxFseq

def Group.Good (orig : ShardAddress → Option RetrieveQueueShard) (g : Group) : Prop :=
  match g.lowers with
  | [] => True
  | [l] => ∀ s, orig g.address = some s → SourceKeeps l g.source s
  | _ => False

structure Group.Planned (orig : ShardAddress → Option RetrieveQueueShard) (g : Group) : Prop where
  seeded : ∀ s, orig g.address = some s → g.Seeded s.retrieveJobs
  bounded : ∀ e ∈ g.shards, ∀ j ∈ e.jobsToAdd, j.fSeq < 2^64

theorem kept_nonempty_iff {s : RetrieveQueueShard} {as : List Address} :
    kept s as ≠ [] ↔ ∃ x ∈ s.retrieveJobs, x.address ∉ as := by
  simp [kept]

theorem moved_length_iff {l : ShardForAddition} {s : RetrieveQueueShard}
    (h : kept s (movedAddresses l s) = []) :
    (moved l s).length = (gone s (movedAddresses l s)).length ↔
      ∀ x ∈ s.retrieveJobs, l.minFseq ≤ x.fSeq ∧ x.fSeq ≤ l.maxFseq := by
  have hg := (RetrieveQueueShard.kept_gone_perm s (movedAddresses l s)).length_eq
  rw [h, List.append_nil] at hg
  rw [hg, moved, List.length_filter_eq_length_iff]
  simp

section
variable {orig : ShardAddress → Option RetrieveQueueShard} {w : Queue}
  {ps qs : List RetrieveQueueShardPointer} {q : RetrieveQueueShardPointer} {g : Group}
  {rest : List Group} {plan tl : List ShardForAddition}

/-- A second cut: the index of the split source is too high when the first is made. -/
theorem Progress.double_cut (h : Progress orig w ps (q :: qs) (g :: rest)) {l : ShardForAddition}
    (hl : CutOff g.address l) {k : Nat}
    (hfind : plan.find? (fun sfa => sfa.address = some g.address) =
      some { g.source with shardIndex := ps.length + (k + 2) }) :
    ∃ x ∈ (finalWorld (executePlan plan ({ l with shardIndex := ps.length } :: tl) w)).log,
      ¬ Access.Safe x := by
  let l' : ShardForAddition := { l with shardIndex := ps.length }
  let found := ((ps ++ ⟨w.nextId, 0, 0, 0, 0⟩ :: q :: qs)[ps.length + (k + 2)]?).map
    (·.address)
  have hother := h.head_fresh
  have hfound : found ≠ some g.address := by
    intro he
    obtain ⟨y, hy, hya⟩ := Option.map_eq_some_iff.mp he
    rw [List.getElem?_append_right (by omega)] at hy
    have hk : ps.length + (k + 2) - ps.length = k + 2 := by omega
    rw [hk] at hy
    have hmem : y ∈ qs := List.mem_of_getElem? (by simpa using hy)
    exact hother y (by simp [hmem]) (hya.trans h.head_address.symm)
  refine ⟨.pointer g.address found, ?_, hfound⟩
  have hcreate := moveDown_pointer h.pointers ⟨w.nextId, 0, 0, 0, 0⟩
  -- the wrong pointer is in the trace once the split source is looked up
  have hlookup : ∀ w1 : Queue, w1.memory.retrieveQueueShards =
      ps ++ ⟨w.nextId, 0, 0, 0, 0⟩ :: q :: qs →
      Observes (mutablePointer (ps.length + (k + 2)) g.address) w1 (.pointer g.address found) := by
    intro w1 hw1
    refine .bind_right (getMemory_apply w1) (.bind_left ?_ fun _ => .fromOption _ _)
    simp [Observes, finalWorld, hw1, found]
  have hsplit : ∀ w1 : Queue, w1.memory.retrieveQueueShards =
      ps ++ ⟨w.nextId, 0, 0, 0, 0⟩ :: q :: qs →
      Observes (splitShard plan l' w.nextId) w1 (.pointer g.address found) := by
    intro w1 hw1
    refine .bind_right (a := g.address) (v := w1) (by simp [l', hl.splitSource]) ?_
    refine .bind_right (a := { g.source with shardIndex := ps.length + (k + 2) }) (v := w1)
      (by simp [hfind]) ?_
    refine .bind_left (hlookup w1 hw1) fun _ => ?_
    exact .bind (grows_fetchShard _) fun _ => .bind (.fromOption _ _) fun _ =>
      .bind (grows_setPointer _ _) fun _ => .bind (grows_setPointer _ _) fun _ => .pure _
  have hobs : Observes (createShard plan l') w (.pointer g.address found) := by
    refine .bind_right (freshId_apply w) (.bind_right (getMemory_apply _)
      (.bind_right (a := ps ++ ⟨w.nextId, 0, 0, 0, 0⟩ :: q :: qs)
        (v := { w with nextId := w.nextId + 1 }) (by simp [l', hcreate])
        (.bind_right (setMemory_apply _ _) ?_)))
    refine .bind_right (a := ⟨w.nextId, 0, 0, 0, 0⟩) (v := { w with
      nextId := w.nextId + 1
      memory := { w.memory with
        retrieveQueueShards := ps ++ ⟨w.nextId, 0, 0, 0, 0⟩ :: q :: qs }
      log := w.log ++ [.pointer w.nextId (some w.nextId)] }) (by simp [mutablePointer, l']) ?_
    rw [if_pos (show l'.fromSplit = true from hl.fromSplit)]
    exact hsplit _ rfl
  have hadd : Observes (addToShard plan l') w (.pointer g.address found) := by
    rw [addToShard, if_pos (show l'.newShard = true from hl.newShard)]
    exact .bind_left hobs fun u => .bind (grows_fillShard _ u) fun _ =>
      .bind (grows_recordShard _ _) fun _ => grows_storeShard _ _
  exact Observes.bind_left hadd fun _ => grows_executePlan plan tl

theorem Group.good_cases (hg : g.Good orig) : g.lowers = [] ∨
    ∃ l, g.lowers = [l] ∧ ∀ s, orig g.address = some s → SourceKeeps l g.source s := by
  unfold Group.Good at hg
  match hl : g.lowers with
  | [] => exact .inl rfl
  | [l] => exact .inr ⟨l, rfl, by simpa [hl] using hg⟩
  | _ :: _ :: _ => simp [hl] at hg

theorem Group.bad_cases (hg : ¬ g.Good orig) : (∃ l l' ls, g.lowers = l :: l' :: ls) ∨
    ∃ l s, g.lowers = [l] ∧ orig g.address = some s ∧ ¬ SourceKeeps l g.source s := by
  unfold Group.Good at hg
  match hl : g.lowers with
  | [] => simp [hl] at hg
  | [l] =>
    rw [hl] at hg
    push Not at hg
    obtain ⟨s, hs, hk⟩ := hg
    exact .inr ⟨l, s, rfl, hs, hk⟩
  | l :: l' :: ls => exact .inl ⟨l, l', ls, rfl⟩

theorem Group.Planned.hasJob {l : ShardForAddition} (hp : g.Planned orig) (hl : g.lowers = [l]) :
    ∀ s, orig g.address = some s → HasJob s.retrieveJobs l := by
  intro s hs
  have := hp.seeded s hs
  unfold Group.Seeded at this
  rwa [hl] at this

theorem Progress.good_group (h : Progress orig w ps (q :: qs) (g :: rest)) (hg : g.Good orig)
    (hp : g.Planned orig)
    (hfind : plan.find? (fun sfa => sfa.address = some g.address) =
      some { g.source with shardIndex := ps.length + g.lowers.length }) :
    ∃ w' ps' qs' events,
      executePlan plan (numberFrom ps.length g.shards ++ tl) w = executePlan plan tl w' ∧
      Progress orig w' ps' qs' rest ∧ ps'.length = ps.length + g.shards.length ∧
      w'.log = w.log ++ events ∧ ∀ x ∈ events, Access.Safe x := by
  have hsrc : ∀ j ∈ g.source.jobsToAdd, j.fSeq < 2^64 :=
    hp.bounded g.source (by simp [Group.shards])
  rcases Group.good_cases hg with hl | ⟨l, hl, hkeeps⟩
  · obtain ⟨s, s', w', -, hs', hrun, hprog, -, -, hlog, -, -⟩ := h.plain plan hsrc
    refine ⟨w', _, qs, _, ?_, hprog, by simp [Group.shards, hl], hlog, ?_⟩
    · simp only [Group.shards, hl, List.nil_append, numberFrom, List.cons_append]
      exact executePlan_cons hrun
    · simp [Access.Safe, List.length_pos_iff, hs'.nonempty]
  · have hcut := g.isCutOff l (by simp [hl])
    have hbl := hp.bounded l (by simp [Group.shards, hl])
    rw [hl] at hfind
    obtain ⟨s, r, w1, ho, hsound, hcount, hbytes, hrun, c⟩ :=
      h.cut hcut hfind (hp.hasJob hl) hbl
    obtain ⟨s', hperm, hc', -, hok⟩ := c.source h hsound hcount hbytes plan
    have hkept : ∀ x ∈ kept s (movedAddresses l s), x ∈ s.retrieveJobs :=
      fun x hx => List.mem_of_mem_filter hx
    have hne : g.source.jobsToAdd ≠ [] ∨ kept s (movedAddresses l s) ≠ [] := by
      rcases hkeeps s ho with hk | ⟨hk, -⟩
      · exact .inr (kept_nonempty_iff.mpr hk)
      · exact .inl hk
    have hs' : Sound s' := sound_of_perm hc' hperm hkept hsound.bounded hsrc hne
    obtain ⟨w2, hrun2, f⟩ := hok hs'
    have hplan : ∀ w3, addToShard plan { g.source with shardIndex := ps.length + 1 } w1 =
      .ok () w3 →
        executePlan plan (numberFrom ps.length g.shards ++ tl) w = executePlan plan tl w3 := by
      intro w3 h3
      simp only [Group.shards, hl, List.cons_append, List.nil_append, numberFrom]
      rw [executePlan_cons hrun, executePlan_cons h3]
    have hr0 := List.length_pos_iff.mpr c.sound.nonempty
    have hs0 := List.length_pos_iff.mpr hs'.nonempty
    by_cases hlen : (moved l s).length = (gone s (movedAddresses l s)).length
    · obtain ⟨hst, hprog⟩ := f.store h c.sound hs' hlen
      refine ⟨_, _, qs, _, hplan _ (hrun2.trans hst), hprog, by simp [Group.shards, hl], f.log, ?_⟩
      simp [Access.Safe, hr0, hs0]
    · have hkne : kept s (movedAddresses l s) ≠ [] := by
        rcases hkeeps s ho with hk | ⟨-, hk⟩
        · exact kept_nonempty_iff.mpr hk
        · intro hnil
          exact hlen ((moved_length_iff hnil).mpr hk)
      have ht : Sound (trimmed l s) := by
        refine ⟨trimmed_coherent l hsound.coherent, by rwa [trimmed_jobs], ?_⟩
        rw [trimmed_jobs]
        exact fun x hx => hsound.bounded x (hkept x hx)
      obtain ⟨w3, ps', qs', hst, hprog, hlen', events, hlog, hsafe⟩ :=
        f.store_rebuilt h c.sound hs' ht hlen
      rw [f.log, List.append_assoc] at hlog
      refine ⟨w3, ps', qs', _, hplan _ (hrun2.trans hst), hprog, by simp [hlen', Group.shards, hl],
        hlog, List.forall_mem_append.mpr ⟨?_, hsafe⟩⟩
      simp [Access.Safe, hr0, hs0]

theorem Progress.bad_group (h : Progress orig w ps (q :: qs) (g :: rest)) (hg : ¬ g.Good orig)
    (hp : g.Planned orig)
    (hfind : plan.find? (fun sfa => sfa.address = some g.address) =
      some { g.source with shardIndex := ps.length + g.lowers.length }) :
    ∃ x ∈ (finalWorld (executePlan plan (numberFrom ps.length g.shards ++ tl) w)).log,
      ¬ Access.Safe x := by
  rcases Group.bad_cases hg with ⟨l, l', ls, hl⟩ | ⟨l, s, hl, ho, hkeeps⟩
  · rw [hl] at hfind
    have hcut := g.isCutOff l (by simp [hl])
    simp only [Group.shards, hl, List.cons_append, numberFrom]
    exact h.double_cut hcut (k := ls.length) hfind
  · have hcut := g.isCutOff l (by simp [hl])
    have hbl := hp.bounded l (by simp [Group.shards, hl])
    rw [hl] at hfind
    obtain ⟨s1, r, w1, ho1, hsound, hcount, hbytes, hrun, c⟩ :=
      h.cut hcut hfind (hp.hasJob hl) hbl
    obtain rfl : s = s1 := Option.some.inj (ho.symm.trans ho1)
    obtain ⟨s', hperm, hc', hempty, hok⟩ := c.source h hsound hcount hbytes plan
    obtain ⟨hk1, hk2⟩ := not_or.mp hkeeps
    have hnil : kept s (movedAddresses l s) = [] := by
      by_contra hne
      exact hk1 (kept_nonempty_iff.mp hne)
    refine ⟨.summary 0, ?_, by simp [Access.Safe]⟩
    have hplan : executePlan plan (numberFrom ps.length g.shards ++ tl) w =
        executePlan plan ({ g.source with shardIndex := ps.length + 1 } :: tl) w1 := by
      simp only [Group.shards, hl, List.cons_append, List.nil_append, numberFrom]
      exact executePlan_cons hrun
    rw [hplan]
    refine Observes.bind_left ?_ fun _ => grows_executePlan plan tl
    by_cases hjobs : g.source.jobsToAdd = []
    · -- nothing is left and nothing comes
      have hs' : s'.retrieveJobs = [] := by
        rw [hjobs, hnil] at hperm
        simpa using hperm
      obtain ⟨w2, hrun2, hlog⟩ := hempty hs'
      simp [Observes, hrun2, finalWorld, hlog]
    · -- jobs were lost: the rebuild reads the shard that was emptied
      have hs' : Sound s' := sound_of_perm hc' hperm
        (fun x hx => List.mem_of_mem_filter hx) hsound.bounded
        (hp.bounded g.source (by simp [Group.shards])) (.inl hjobs)
      obtain ⟨w2, hrun2, f⟩ := hok hs'
      have hlen : (moved l s).length ≠ (gone s (movedAddresses l s)).length := by
        intro hlen
        exact hk2 ⟨hjobs, (moved_length_iff hnil).mp hlen⟩
      obtain ⟨hnew, hold, -⟩ := f.lookup_new h
      have hnd := f.nodup h
      rw [f.pointers] at hnd
      obtain ⟨w3, events, hreb, hlog⟩ := rebuild_empty f.pointers hnd (by
          intro x hx
          have hx' : x ∈ ps ∨ x = pointerTo w.nextId r := by simpa using hx
          rcases hx' with hx' | rfl
          · obtain ⟨t, h1, h2⟩ := h.done x hx'
            exact ⟨t, by rw [(f.lookup h (by simp [hx'])).1, h1], h2⟩
          · exact ⟨r, hnew, c.sound⟩) hold (by rw [trimmed_jobs, hnil])
      unfold Observes
      rw [hrun2, bind_apply]
      simp [commit, f.check_fails hlen, hreb, finalWorld, hlog]

/-- The groups of a plan, carried out from the left: all safe when all are good, and an
unsafe access at the first that is not. -/
theorem Progress.execute {gs : List Group} (h : Progress orig w ps qs gs)
    (hp : ∀ g ∈ gs, g.Planned orig)
    (hfind : ∀ gpre g gpost, gs = gpre ++ g :: gpost →
      plan.find? (fun sfa => sfa.address = some g.address) = some { g.source with
        shardIndex := ps.length + (gpre.flatMap Group.shards).length + g.lowers.length })
    (hsafe : ∀ x ∈ w.log, Access.Safe x) :
    (∀ x ∈ (finalWorld (executePlan plan (numberFrom ps.length (gs.flatMap Group.shards)) w)).log,
      Access.Safe x) ↔ ∀ g ∈ gs, g.Good orig := by
  induction gs generalizing w ps qs with
  | nil => simpa [executePlan, numberFrom, finalWorld] using hsafe
  | cons g gs ih =>
    obtain ⟨q, qs, rfl⟩ : ∃ q qs', qs = q :: qs' := by
      cases qs with
      | nil => simpa using h.addresses
      | cons q qs => exact ⟨q, qs, rfl⟩
    have hfg := hfind [] g gs rfl
    rw [List.flatMap_nil, List.length_nil, Nat.add_zero] at hfg
    rw [List.flatMap_cons, numberFrom_append]
    by_cases hg : g.Good orig
    · obtain ⟨w', ps', qs', events, hrun, hprog, hlen, hlog, hsafe'⟩ :=
        h.good_group hg
          (hp g List.mem_cons_self) hfg
      rw [hrun, ← hlen, ih hprog (fun x hx => hp x (List.mem_cons_of_mem g hx))]
      · simp [hg]
      · intro gpre x gpost hgs
        have hi : ps.length + ((g :: gpre).flatMap Group.shards).length + x.lowers.length =
            ps'.length + (gpre.flatMap Group.shards).length + x.lowers.length := by
          rw [hlen, List.flatMap_cons, List.length_append]
          omega
        rw [hfind (g :: gpre) x gpost (by simp [hgs]), hi]
      · rw [hlog]
        exact List.forall_mem_append.mpr ⟨hsafe, hsafe'⟩
    · obtain ⟨x, hx, hns⟩ := h.bad_group hg (hp g List.mem_cons_self) hfg
      constructor
      · intro hall
        exact absurd (hall x hx) hns
      · intro hall
        exact absurd (hall g List.mem_cons_self) hg

end

/-- A coherent queue: the pointers follow each other and each describes its own shard,
which is sound, and the code's own check passes. -/
structure CoherentQueue (w : Queue) : Prop where
  checked : checkMapsAndShardsCoherency w.memory = .ok true
  activity : ∃ k, w.memory.activityMap.total = .ok k
  nodup : (w.memory.retrieveQueueShards.map (·.address)).Nodup
  fresh : ∀ q ∈ w.memory.retrieveQueueShards, q.address < w.nextId
  matching : ∀ q ∈ w.memory.retrieveQueueShards,
    ∃ s, w.stored.parts q.address = some s ∧ Sound s ∧ q = pointerTo q.address s
  sorted : w.memory.retrieveQueueShards.Pairwise fun a b => a.maxFseq < b.minFseq

/-- No shard is split twice, and every shard that is split keeps a job. -/
def SplitsSafely (w : Queue) (jobsToAdd : List JobToAdd) : Prop :=
  ((splits w.memory jobsToAdd).map (·.address)).Nodup ∧
    ∀ plan, planJobs w.memory jobsToAdd = some plan → ∀ l ∈ plan, ∀ e ∈ plan, ∀ a s,
      l.splitSource = some a → e.address = some a → w.stored.parts a = some s → SourceKeeps l e s

theorem CoherentQueue.ranges {w : Queue} (h : CoherentQueue w) :
    RangesOrdered w.memory.retrieveQueueShards := by
  refine ⟨h.sorted, fun q hq => ?_⟩
  obtain ⟨s, -, hs, he⟩ := h.matching q hq
  obtain ⟨hall, ⟨x, hx, hmin⟩, ⟨y, hy, hmax⟩⟩ := hs.limits q.address
  rw [he]
  exact ⟨hmax ▸ (hall y hy).1, hmax ▸ hs.bounded y hy⟩

theorem CoherentQueue.progress {w : Queue} (h : CoherentQueue w) {gs : List Group}
    (hgs : gs.map Group.address = w.memory.retrieveQueueShards.map (·.address)) :
    Progress w.stored.parts w [] w.memory.retrieveQueueShards gs where
  pointers := rfl
  addresses := hgs.symm
  nodup := h.nodup
  fresh := h.fresh
  done := by simp
  todo := by
    intro q hq
    obtain ⟨s, hs, hsound, he⟩ := h.matching q hq
    exact ⟨s, hs, hs, hsound, congrArg (·.shardJobsCount) he, congrArg (·.shardBytesCount) he⟩
  consistent := consistent_of_check h.checked h.activity

theorem Group.mem_planned {g : Group} {j : JobToAdd} :
    j ∈ g.planned ↔ ∃ e ∈ g.shards, j ∈ e.jobsToAdd := List.mem_flatMap

theorem Group.Step.planned {m : Nat} {j : JobToAdd} {g g' : Group}
    {orig : ShardAddress → Option RetrieveQueueShard} (h : Step m j g g') (hj : j.fSeq < 2^64)
    (hg : g.Planned orig) : g'.Planned orig where
  seeded := by
    intro s hs
    exact h.seeded hj (hg.seeded s (h.address_eq ▸ hs))
  bounded := by
    intro e he i hi
    rcases List.mem_cons.mp (h.planned_perm.mem_iff.mp (Group.mem_planned.mpr ⟨e, he, hi⟩)) with
      rfl | hi'
    · exact hj
    · obtain ⟨e', he', hi'⟩ := Group.mem_planned.mp hi'
      exact hg.bounded e' he' i hi'

theorem CoherentQueue.plan {w : Queue} (h : CoherentQueue w) {jobsToAdd : List JobToAdd}
    (hj : ∀ j ∈ jobsToAdd, j.fSeq < 2^64) (hne : w.memory.retrieveQueueShards ≠ []) :
    ∃ gs : List Group, planJobs w.memory jobsToAdd = some (gs.flatMap Group.shards) ∧
      gs.map Group.address = w.memory.retrieveQueueShards.map (·.address) ∧
      (∀ g ∈ gs, g.Planned w.stored.parts) ∧
      (((splits w.memory jobsToAdd).map (·.address)).Nodup ↔
        ∀ g ∈ gs, g.lowers.length ≤ 1) := by
  have hstart : ∀ g ∈ w.memory.retrieveQueueShards.map groupOf, g.Planned w.stored.parts := by
    intro g hg
    obtain ⟨q, hq, rfl⟩ := List.mem_map.mp hg
    obtain ⟨s, hs, hsound, he⟩ := h.matching q hq
    obtain ⟨-, ⟨x, hx, hmin⟩, -⟩ := hsound.limits q.address
    refine ⟨fun s' hs' => ?_, by simp [groupOf, Group.shards, ofPointer]⟩
    obtain rfl : s = s' := Option.some.inj (hs.symm.trans hs')
    obtain ⟨hb1, hb2⟩ := h.ranges.bounded q hq
    exact ⟨hb1, hb2, .inl ⟨x, hx, by rw [hmin]; exact congrArg (·.minFseq) he.symm⟩⟩
  obtain ⟨gs, h1, h2, h3, -, h5⟩ := plan_steps (m := w.memory.maxShardSize)
    (P := fun g => g.Planned w.stored.parts)
    (fun j hj' g g' hstep hg => hstep.planned (hj j hj') hg) (by simpa using hne) hstart
  have haddr : gs.map Group.address = w.memory.retrieveQueueShards.map (·.address) := by
    rw [h2, List.map_map]
    rfl
  refine ⟨gs, ?_, haddr, h3, ?_⟩
  · rw [planJobs, initialPlan_groups h.ranges, h1]
  · rw [← nodup_splitAddresses (haddr ▸ h.nodup), h5.nodup_iff, splitAddresses_groupOf,
      List.nil_append, splits, initialPlan_groups h.ranges]

theorem good_iff {orig : ShardAddress → Option RetrieveQueueShard} {gs : List Group}
    (hn : (gs.map Group.address).Nodup) :
    (∀ g ∈ gs, g.Good orig) ↔ (∀ g ∈ gs, g.lowers.length ≤ 1) ∧
      ∀ l ∈ gs.flatMap Group.shards, ∀ e ∈ gs.flatMap Group.shards, ∀ a s,
        l.splitSource = some a → e.address = some a → orig a = some s → SourceKeeps l e s := by
  rw [cuts_iff hn, ← forall₂_and]
  refine forall₂_congr fun g _ => ?_
  unfold Group.Good
  rcases g.lowers with _ | ⟨l, _ | ⟨l', ls⟩⟩ <;> simp

/-- Every access of an addition to a coherent queue is safe exactly when no existing
shard is split twice and every shard that is split keeps a job. -/
theorem addJobsAndCommit_safe_iff {w : Queue} (h : CoherentQueue w) (hlog : w.log = [])
    {jobsToAdd : List JobToAdd} (hj : ∀ j ∈ jobsToAdd, j.fSeq < 2^64) :
    (∀ x ∈ (finalWorld (addJobsAndCommit jobsToAdd w)).log, Access.Safe x) ↔
      SplitsSafely w jobsToAdd := by
  cases jobsToAdd with
  | nil =>
    have hplan : planJobs w.memory [] = some (initialPlan w.memory) := rfl
    constructor
    · intro _
      refine ⟨by simp [splits, splitsFrom], ?_⟩
      intro plan hp l hl e _ a s hla
      obtain rfl : initialPlan w.memory = plan := Option.some.inj (hplan.symm.trans hp)
      simp [initialPlan_splitSource h.ranges l hl] at hla
    · intro _
      simp [addJobsAndCommit, finalWorld, hlog]
  | cons j js =>
    by_cases hnil : w.memory.retrieveQueueShards = []
    · obtain ⟨e, hp, hjobs, hnew, hf, hsrc, hsplits⟩ := planJobs_empty hnil j js
      obtain ⟨s, p, w', hs, -, hrun, -, -, -, hlog', -⟩ :=
        (consistent_of_check h.checked h.activity).first_shard hnil
        (e := { e with shardIndex := 0 }) hnew hf rfl (by simp [hjobs])
        (by simpa only [hjobs] using hj) (numberFrom 0 [e])
      constructor
      · intro _
        refine ⟨by simp [hsplits], ?_⟩
        intro plan hplan l hl e' _ a t hla
        obtain rfl : [e] = plan := Option.some.inj (hp.symm.trans hplan)
        rw [List.mem_singleton.mp hl, hsrc] at hla
        simp at hla
      · intro _
        have hexec : executePlan (numberFrom 0 [e]) (numberFrom 0 [e]) w = .ok () w' :=
          executePlan_cons hrun
        rw [addJobsAndCommit_apply (by simp) hp, hexec]
        simp [finalWorld, hlog', hlog, Access.Safe, List.length_pos_iff, hs.nonempty]
    · obtain ⟨gs, hp, haddr, hplanned, hnodup⟩ := h.plan hj hnil
      have hn : (gs.map Group.address).Nodup := haddr ▸ h.nodup
      rw [addJobsAndCommit_apply (by simp) hp]
      have hexec := (h.progress haddr).execute hplanned (find_source hn) (by simp [hlog])
      rw [List.length_nil] at hexec
      rw [hexec, good_iff hn, SplitsSafely, hnodup]
      refine and_congr_right fun _ => ⟨fun hk plan hplan => ?_, fun hk => hk _ hp⟩
      obtain rfl : gs.flatMap Group.shards = plan := Option.some.inj (hp.symm.trans hplan)
      exact hk

def sampleJob (fSeq : Nat) (address : Address) : JobToAdd where
  copyNb := 1
  fSeq := fSeq
  retrieveRequestAddress := address
  fileSize := 10
  policy := { name := "policy" }
  startTime := 5

def fullShard : RetrieveQueueShard :=
  ⟨[(sampleJob 7 "a").toPointer, (sampleJob 7 "b").toPointer], 20⟩

def fullQueue : Queue :=
  let p : RetrieveQueue :=
    { retrieveQueueShards := [⟨0, 2, 20, 7, 7⟩]
      priorityMap := [⟨0, 2⟩]
      minRetrieveRequestAgeMap := [⟨0, 2⟩]
      mountPolicyNameMap := [⟨"policy", 2⟩]
      activityMap := []
      retrieveJobsTotalSize := 20
      retrieveJobsCount := 2
      oldestJobCreationTime := 5
      youngestJobCreationTime := 5
      maxShardSize := 2 }
  ⟨p, ⟨p, Function.update (fun _ => none) 0 (some fullShard)⟩, [], 1, []⟩

theorem coherent_fullQueue : CoherentQueue fullQueue where
  checked := by decide
  activity := ⟨0, rfl⟩
  nodup := by decide
  fresh := by decide
  matching := by
    intro q hq
    obtain rfl : q = ⟨0, 2, 20, 7, 7⟩ := by simpa [fullQueue] using hq
    refine ⟨fullShard, rfl, ⟨⟨?_, by decide⟩, by decide, by decide⟩, by decide⟩
    simp [Cta.Lib.SortedByKey.SortedBy, fullShard, sampleJob, JobToAdd.toPointer]
  sorted := by decide

/-- One more job of that fSeq empties the split shard; two jobs after it split the shard
twice and the pointer of the source is looked for past the end. -/
theorem addJobsAndCommit_unsafe_fullQueue :
    CoherentQueue fullQueue ∧ 1 ≤ fullQueue.memory.maxShardSize ∧
      (∃ x ∈ (finalWorld (addJobsAndCommit [sampleJob 7 "c"] fullQueue)).log, ¬ Access.Safe x) ∧
      Access.pointer 0 none ∈
        (finalWorld (addJobsAndCommit [sampleJob 8 "c", sampleJob 9 "d"] fullQueue)).log :=
  ⟨coherent_fullQueue, by decide, by decide +kernel, by decide +kernel⟩

theorem addJobsAndCommit_safe_iff_fullQueue :
    (∀ x ∈ (finalWorld (addJobsAndCommit [sampleJob 8 "c"] fullQueue)).log, Access.Safe x) ↔
      SplitsSafely fullQueue [sampleJob 8 "c"] :=
  addJobsAndCommit_safe_iff coherent_fullQueue rfl (by decide)

end Cta.ObjectStore.RetrieveQueue

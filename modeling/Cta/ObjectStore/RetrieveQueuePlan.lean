import Cta.ObjectStore.RetrieveQueue

/-! What planning an addition does to the list of shards. The planned shards come in
groups: the shards cut off an existing one, then the existing one itself. -/
namespace Cta.ObjectStore.RetrieveQueue
open StoreError Cta.Lib.Sequence

/-- The shard that placing a job splits, as it is planned at that moment. -/
def splitBy (maxShardSize : Nat) (j : JobToAdd) (shards : List ShardForAddition) :
    Option ShardForAddition := do
  let i ← landing j shards
  let sfa ← shards[i]?
  if mustSplit maxShardSize sfa then some sfa else none

def splitsFrom (maxShardSize : Nat) :
    List ShardForAddition → List JobToAdd → List ShardForAddition
  | _, [] => []
  | shards, j :: js =>
    (splitBy maxShardSize j shards).toList ++
      splitsFrom maxShardSize ((placeOrCreate maxShardSize shards j).getD []) js

def splits (p : RetrieveQueue) (jobsToAdd : List JobToAdd) : List ShardForAddition :=
  splitsFrom p.maxShardSize (initialPlan p) jobsToAdd

/-- The entry where a job lands stands after shards that end below the job, and the job
does not reach the shard that follows. -/
theorem landing_spec (j : JobToAdd) {shards : List ShardForAddition} (hne : shards ≠ []) :
    ∃ pre e post, shards = pre ++ e :: post ∧ landing j shards = some pre.length ∧
      (∀ a ∈ pre, a.maxFseq < j.fSeq) ∧
      (j.fSeq ≤ e.maxFseq ∨ j.fSeq < e.minFseq ∨ ∀ b ∈ post.head?, j.fSeq < b.minFseq) := by
  induction shards with
  | nil => exact absurd rfl hne
  | cons sfa rest ih =>
    by_cases h1 : j.fSeq < sfa.minFseq
    · exact ⟨[], sfa, rest, rfl, by simp [landing, h1], by simp, .inr (.inl h1)⟩
    by_cases h2 : j.fSeq ≤ sfa.maxFseq
    · exact ⟨[], sfa, rest, rfl, by simp [landing, h2, Nat.not_lt.mp h1], by simp, .inl h2⟩
    have hmax : sfa.maxFseq < j.fSeq := Nat.not_le.mp h2
    cases rest with
    | nil => exact ⟨[], sfa, [], rfl, by simp [landing, h1, h2, hmax], by simp, by simp⟩
    | cons next rest =>
      by_cases h3 : j.fSeq < next.minFseq
      · by_cases h4 : sfa.jobsCount < next.jobsCount
        · refine ⟨[], sfa, next :: rest, rfl, ?_, by simp, by simp [h3]⟩
          simp [landing, h1, h2, hmax, h3, h4]
        · refine ⟨[sfa], next, rest, rfl, ?_, by simp [hmax], .inr (.inl h3)⟩
          simp [landing, h1, h2, hmax, h3, h4]
      · obtain ⟨pre, e, post, hs, hl, hp, hf⟩ := ih (by simp)
        refine ⟨sfa :: pre, e, post, by simp [hs], ?_, ?_, hf⟩
        · rw [landing, if_neg h1, if_neg (by simp [h2])]
          simp only [hmax, h3, and_false, if_false, hl, Option.map_some, List.length_cons]
        · intro a ha
          rcases List.mem_cons.mp ha with rfl | ha
          · exact hmax
          · exact hp a ha

theorem placeJob_at (m : Nat) {j : JobToAdd} {pre post : List ShardForAddition}
    {e : ShardForAddition} (hl : landing j (pre ++ e :: post) = some pre.length) :
    placeOrCreate m (pre ++ e :: post) j =
        some (pre ++ addJobToShardAndMaybeSplit m j e ++ post) ∧
      splitBy m j (pre ++ e :: post) = if mustSplit m e then some e else none := by
  constructor
  · rw [placeOrCreate, if_neg (by simp), placeJob, hl]
    simp
  · simp [splitBy, hl]

theorem placeJob_spec (m : Nat) (j : JobToAdd) {shards : List ShardForAddition}
    (hne : shards ≠ []) :
    ∃ pre e post, shards = pre ++ e :: post ∧
      placeOrCreate m shards j = some (pre ++ addJobToShardAndMaybeSplit m j e ++ post) ∧
      splitBy m j shards = (if mustSplit m e then some e else none) ∧
      (∀ a ∈ pre, a.maxFseq < j.fSeq) ∧
      (j.fSeq ≤ e.maxFseq ∨ j.fSeq < e.minFseq ∨ ∀ b ∈ post.head?, j.fSeq < b.minFseq) := by
  obtain ⟨pre, e, post, rfl, hl, hp, hf⟩ := landing_spec j hne
  obtain ⟨hplace, hsplit⟩ := placeJob_at m hl
  exact ⟨pre, e, post, rfl, hplace, hsplit, hp, hf⟩

structure Source (a : ShardAddress) (e : ShardForAddition) : Prop where
  newShard : e.newShard = false
  fromSplit : e.fromSplit = false
  splitSource : e.splitSource = none
  address : e.address = some a

structure CutOff (a : ShardAddress) (l : ShardForAddition) : Prop where
  newShard : l.newShard = true
  fromSplit : l.fromSplit = true
  splitSource : l.splitSource = some a
  address : l.address = none

/-- The planned shards that come from one existing shard. -/
structure Group where
  address : ShardAddress
  lowers : List ShardForAddition
  source : ShardForAddition
  isSource : Source address source
  isCutOff : ∀ l ∈ lowers, CutOff address l

def Group.shards (g : Group) : List ShardForAddition := g.lowers ++ [g.source]

theorem Source.push {a : ShardAddress} {e : ShardForAddition} (h : Source a e) (j : JobToAdd) :
    Source a (e.push j) := ⟨h.newShard, h.fromSplit, h.splitSource, h.address⟩

theorem CutOff.push {a : ShardAddress} {l : ShardForAddition} (h : CutOff a l) (j : JobToAdd) :
    CutOff a (l.push j) := ⟨h.newShard, h.fromSplit, h.splitSource, h.address⟩

theorem Source.upperHalf {a : ShardAddress} {e : ShardForAddition} (h : Source a e) :
    Source a e.upperHalf := ⟨h.newShard, h.fromSplit, h.splitSource, h.address⟩

theorem Source.lowerHalf {a : ShardAddress} {e : ShardForAddition} (h : Source a e) :
    CutOff a e.lowerHalf := ⟨rfl, rfl, h.address, rfl⟩

/-- What placing a job does to the group it lands in. -/
inductive Group.Step (m : Nat) (j : JobToAdd) : Group → Group → Prop where
  | lower {g g' : Group} (pre : List ShardForAddition) (l : ShardForAddition)
      (post : List ShardForAddition) (ha : g'.address = g.address)
      (hg : g.lowers = pre ++ l :: post) (hl : g'.lowers = pre ++ l.push j :: post)
      (hs : g'.source = g.source)
      (hfit : j.fSeq ≤ l.maxFseq ∨ j.fSeq < l.minFseq ∨
        ∀ b ∈ (post ++ [g.source]).head?, j.fSeq < b.minFseq) : Step m j g g'
  | source {g g' : Group} (ha : g'.address = g.address) (hm : mustSplit m g.source = false)
      (hl : g'.lowers = g.lowers) (hs : g'.source = g.source.push j) : Step m j g g'
  | splitUp {g g' : Group} (ha : g'.address = g.address) (hm : mustSplit m g.source = true)
      (hj : g.source.upperHalf.minFseq ≤ j.fSeq) (hl : g'.lowers = g.lowers ++ [g.source.lowerHalf])
      (hs : g'.source = g.source.upperHalf.push j) : Step m j g g'
  | splitDown {g g' : Group} (ha : g'.address = g.address) (hm : mustSplit m g.source = true)
      (hj : j.fSeq < g.source.upperHalf.minFseq)
      (hl : g'.lowers = g.lowers ++ [g.source.lowerHalf.push j])
      (hs : g'.source = g.source.upperHalf) : Step m j g g'

def Group.Step.Splits (m : Nat) (g g' : Group) (s : Option ShardForAddition) : Prop :=
  s = none ∧ g'.lowers.length = g.lowers.length ∨
    s = some g.source ∧ mustSplit m g.source = true ∧ g'.lowers.length = g.lowers.length + 1

theorem place_step (m : Nat) (j : JobToAdd) {gs : List Group} (hne : gs ≠ []) :
    ∃ gpre g gpost g', gs = gpre ++ g :: gpost ∧ Group.Step m j g g' ∧
      placeOrCreate m (gs.flatMap Group.shards) j =
        some ((gpre ++ g' :: gpost).flatMap Group.shards) ∧
      Group.Step.Splits m g g' (splitBy m j (gs.flatMap Group.shards)) := by
  have hplan : gs.flatMap Group.shards ≠ [] := by
    cases gs with
    | nil => exact absurd rfl hne
    | cons g gs => simp [Group.shards]
  obtain ⟨pre, e, post, hs, hplace, hsplit, -, hfit⟩ := placeJob_spec m j hplan
  obtain ⟨gpre, g, gpost, u, v, rfl, hg, rfl, rfl⟩ := exists_block hs
  rw [hplace, hsplit]
  rcases List.eq_nil_or_concat' v with rfl | ⟨v, b, rfl⟩
  · -- the job lands on the existing shard of the group
    obtain ⟨rfl, he⟩ := List.append_inj' hg rfl
    obtain rfl : g.source = e := by simpa using he
    by_cases hm : mustSplit m g.source = true
    · by_cases hj : g.source.upperHalf.minFseq ≤ j.fSeq
      · refine ⟨gpre, g, gpost, ⟨g.address, g.lowers ++ [g.source.lowerHalf],
          g.source.upperHalf.push j, g.isSource.upperHalf.push j, ?_⟩, rfl,
          .splitUp rfl hm hj rfl rfl, ?_, .inr ⟨by simp [hm], hm, by simp⟩⟩
        · intro l hl
          rcases List.mem_append.mp hl with hl | hl
          · exact g.isCutOff l hl
          · simpa [List.mem_singleton.mp hl] using g.isSource.lowerHalf
        · simp [addJobToShardAndMaybeSplit, hm, hj, Group.shards]
      · refine ⟨gpre, g, gpost, ⟨g.address, g.lowers ++ [g.source.lowerHalf.push j],
          g.source.upperHalf, g.isSource.upperHalf, ?_⟩, rfl,
          .splitDown rfl hm (Nat.not_le.mp hj) rfl rfl, ?_, .inr ⟨by simp [hm], hm, by simp⟩⟩
        · intro l hl
          rcases List.mem_append.mp hl with hl | hl
          · exact g.isCutOff l hl
          · simpa [List.mem_singleton.mp hl] using g.isSource.lowerHalf.push j
        · simp [addJobToShardAndMaybeSplit, hm, hj, Group.shards]
    · have hm' : mustSplit m g.source = false := by simpa using hm
      refine ⟨gpre, g, gpost, ⟨g.address, g.lowers, g.source.push j, g.isSource.push j,
        g.isCutOff⟩, rfl, .source rfl hm' rfl rfl, ?_, .inl ⟨by simp [hm'], rfl⟩⟩
      simp [addJobToShardAndMaybeSplit, hm', Group.shards]
  · -- the job lands on a new shard, which is never split
    have hg' : g.lowers ++ [g.source] = (u ++ e :: v) ++ [b] := by
      simpa [Group.shards] using hg
    obtain ⟨hlow, hb⟩ := List.append_inj' hg' rfl
    obtain rfl : g.source = b := by simpa using hb
    have he := g.isCutOff e (by simp [hlow])
    have hm : mustSplit m e = false := by simp [mustSplit, he.newShard]
    refine ⟨gpre, g, gpost, ⟨g.address, u ++ e.push j :: v, g.source, g.isSource, ?_⟩, rfl,
      .lower u e v rfl hlow rfl rfl ?_, ?_, .inl ⟨by simp [hm], by simp [hlow]⟩⟩
    · intro l hl
      have hmem : l ∈ u ∨ l = e.push j ∨ l ∈ v := by simpa using hl
      rcases hmem with hmem | rfl | hmem
      · exact g.isCutOff l (by simp [hlow, hmem])
      · exact he.push j
      · exact g.isCutOff l (by simp [hlow, hmem])
    · refine hfit.imp_right (Or.imp_right fun h b hb => h b ?_)
      cases v <;> simpa using hb
    · simp [addJobToShardAndMaybeSplit, hm, Group.shards]

def Group.planned (g : Group) : List JobToAdd := g.shards.flatMap (·.jobsToAdd)

theorem push_jobsToAdd (e : ShardForAddition) (j : JobToAdd) :
    (e.push j).jobsToAdd = e.jobsToAdd ++ [j] := rfl

theorem halves_perm {e : ShardForAddition} :
    (e.lowerHalf.jobsToAdd ++ e.upperHalf.jobsToAdd).Perm e.jobsToAdd := by
  have h := List.filter_append_perm (fun j : JobToAdd => decide (j.fSeq ≤ e.cut)) e.jobsToAdd
  have hu : e.upperHalf.jobsToAdd = e.jobsToAdd.filter fun j => !decide (j.fSeq ≤ e.cut) := by
    refine List.filter_congr fun j _ => ?_
    rw [← decide_not, decide_eq_decide]
    exact Nat.not_le.symm
  rwa [hu]

theorem Group.Step.planned_perm {m : Nat} {j : JobToAdd} {g g' : Group} (h : Step m j g g') :
    g'.planned.Perm (j :: g.planned) := by
  cases h with
  | lower pre l post ha hg hl hs hfit =>
    simp only [planned, shards, hg, hl, hs, List.flatMap_append, List.flatMap_cons,
      push_jobsToAdd]
    simp only [List.append_assoc, List.singleton_append]
    exact (List.Perm.append_left _ List.perm_middle).trans List.perm_middle
  | source ha hm hl hs =>
    simp only [planned, shards, hl, hs, List.flatMap_append, List.flatMap_cons, List.flatMap_nil,
      push_jobsToAdd, List.append_nil, ← List.append_assoc]
    exact List.perm_append_singleton _ _
  | splitUp ha hm hj hl hs =>
    simp only [planned, shards, hl, hs, List.flatMap_append, List.flatMap_cons, List.flatMap_nil,
      push_jobsToAdd, List.append_nil, List.append_assoc]
    rw [← List.append_assoc _ _ [j], ← List.append_assoc]
    exact (List.perm_append_singleton _ _).trans ((halves_perm.append_left _).cons j)
  | splitDown ha hm hj hl hs =>
    simp only [planned, shards, hl, hs, List.flatMap_append, List.flatMap_cons, List.flatMap_nil,
      push_jobsToAdd, List.append_nil, List.append_assoc, List.singleton_append]
    refine (List.Perm.append_left _ List.perm_middle).trans (List.perm_middle.trans ?_)
    exact (halves_perm.append_left _).cons j

theorem Group.Step.address_eq {m : Nat} {j : JobToAdd} {g g' : Group} (h : Step m j g g') :
    g'.address = g.address := by
  cases h <;> assumption

/-- The existing shards that were split, as often as they were. -/
def splitAddresses (gs : List Group) : List (Option ShardAddress) :=
  gs.flatMap fun g => List.replicate g.lowers.length (some g.address)

theorem Group.Step.Splits.addresses {m : Nat} {g g' : Group} {s : Option ShardForAddition}
    (h : Step.Splits m g g' s) (ha : g'.address = g.address) (gpre gpost : List Group) :
    (splitAddresses (gpre ++ g' :: gpost)).Perm
      (splitAddresses (gpre ++ g :: gpost) ++ s.toList.map (·.address)) := by
  rcases h with ⟨rfl, hlen⟩ | ⟨rfl, -, hlen⟩
  · simp [splitAddresses, ha, hlen]
  · simp only [splitAddresses, List.flatMap_append, List.flatMap_cons, ha, hlen,
      Option.toList_some, List.map_cons, List.map_nil, g.isSource.address,
      List.replicate_succ, List.cons_append]
    exact List.perm_middle.trans (List.perm_append_singleton _ _).symm

/-- A batch planned on non-empty groups makes steps in them: what every step keeps
holds in the final plan, all jobs are planned and all splits are accounted for. -/
theorem plan_steps {m : Nat} {P : Group → Prop} {js : List JobToAdd}
    (hP : ∀ j ∈ js, ∀ g g', Group.Step m j g g' → P g → P g') {gs : List Group} (hne : gs ≠ [])
    (hgs : ∀ g ∈ gs, P g) :
    ∃ gs', js.foldlM (placeOrCreate m) (gs.flatMap Group.shards) =
        some (gs'.flatMap Group.shards) ∧
      gs'.map Group.address = gs.map Group.address ∧ (∀ g ∈ gs', P g) ∧
      (gs'.flatMap Group.planned).Perm (js ++ gs.flatMap Group.planned) ∧
      (splitAddresses gs').Perm (splitAddresses gs ++
        (splitsFrom m (gs.flatMap Group.shards) js).map (·.address)) := by
  induction js generalizing gs with
  | nil =>
    exact ⟨gs, rfl, rfl, hgs, List.Perm.refl _, by simp [splitsFrom]⟩
  | cons j js ih =>
    obtain ⟨gpre, g, gpost, g', rfl, hstep, hplace, hsplits⟩ := place_step m j hne
    have hgs' : ∀ x ∈ gpre ++ g' :: gpost, P x := by
      intro x hx
      have hx' : x ∈ gpre ∨ x = g' ∨ x ∈ gpost := by simpa using hx
      rcases hx' with hx' | rfl | hx'
      · exact hgs x (by simp [hx'])
      · exact hP j List.mem_cons_self g x hstep (hgs g (by simp))
      · exact hgs x (by simp [hx'])
    obtain ⟨gs', h1, h2, h3, h4, h5⟩ := ih (fun i hi => hP i (List.mem_cons_of_mem j hi))
      (by simp) hgs'
    refine ⟨gs', ?_, ?_, h3, ?_, ?_⟩
    · rw [List.foldlM_cons, hplace]
      exact h1
    · simpa [hstep.address_eq] using h2
    · refine h4.trans ?_
      have hg : ((gpre ++ g' :: gpost).flatMap Group.planned).Perm
          (j :: (gpre ++ g :: gpost).flatMap Group.planned) := by
        simp only [List.flatMap_append, List.flatMap_cons]
        refine (List.Perm.append_left _ (hstep.planned_perm.append_right _)).trans ?_
        rw [List.cons_append]
        exact List.perm_middle
      exact (hg.append_left js).trans List.perm_middle
    · refine h5.trans ?_
      rw [splitsFrom, hplace, Option.getD_some, List.map_append, ← List.append_assoc]
      exact (hsplits.addresses hstep.address_eq gpre gpost).append_right _

theorem nodup_splitAddresses {gs : List Group} (hn : (gs.map Group.address).Nodup) :
    (splitAddresses gs).Nodup ↔ ∀ g ∈ gs, g.lowers.length ≤ 1 := by
  rw [splitAddresses, List.nodup_flatMap]
  constructor
  · intro h g hg
    exact List.nodup_replicate.mp (h.1 g hg)
  · intro h
    refine ⟨fun g hg => List.nodup_replicate.mpr (h g hg), ?_⟩
    refine (List.pairwise_map.mp hn).imp ?_
    intro g g' hne x hx hx'
    have h1 := List.eq_of_mem_replicate hx
    have h2 := List.eq_of_mem_replicate hx'
    exact hne (Option.some.inj (h1.symm.trans h2))

/-- Pointers whose ranges follow each other without overlap. -/
structure RangesOrdered (qs : List RetrieveQueueShardPointer) : Prop where
  strict : qs.Pairwise fun a b => a.maxFseq < b.minFseq
  bounded : ∀ q ∈ qs, q.minFseq ≤ q.maxFseq ∧ q.maxFseq < 2^64

def groupOf (q : RetrieveQueueShardPointer) : Group where
  address := q.address
  lowers := []
  source := ofPointer q
  isSource := ⟨rfl, rfl, rfl, rfl⟩
  isCutOff := by simp

theorem orderLimits_ofPointer {qs : List RetrieveQueueShardPointer} (h : RangesOrdered qs)
    {highest : Nat} (hh : ∀ q ∈ qs.head?, highest ≤ q.minFseq) :
    orderLimits highest (qs.map ofPointer) = qs.map ofPointer := by
  induction qs generalizing highest with
  | nil => rfl
  | cons q qs ih =>
    obtain ⟨hq, hqs⟩ := List.pairwise_cons.mp h.strict
    obtain ⟨hle, hlt⟩ := h.bounded q List.mem_cons_self
    have hmin : max highest q.minFseq = q.minFseq := Nat.max_eq_right (hh q rfl)
    have hmax : max q.minFseq q.maxFseq = q.maxFseq := Nat.max_eq_right hle
    have hrest : ∀ r ∈ qs.head?, (q.maxFseq + 1) % 2^64 ≤ r.minFseq := by
      intro r hr
      have := hq r (List.mem_of_mem_head? hr)
      exact Nat.le_trans (Nat.mod_le _ _) this
    have htail := ih ⟨hqs, fun r hr => h.bounded r (List.mem_cons_of_mem q hr)⟩ hrest
    simp only [List.map_cons, orderLimits, ofPointer, hmin, hmax]
    exact congrArg _ htail

theorem initialPlan_groups {p : RetrieveQueue} (h : RangesOrdered p.retrieveQueueShards) :
    initialPlan p = (p.retrieveQueueShards.map groupOf).flatMap Group.shards := by
  rw [initialPlan, orderLimits_ofPointer h (by simp), List.flatMap_map]
  induction p.retrieveQueueShards with
  | nil => rfl
  | cons q qs ih => simp [Group.shards, groupOf, ih]

theorem initialPlan_splitSource {p : RetrieveQueue} (h : RangesOrdered p.retrieveQueueShards) :
    ∀ l ∈ initialPlan p, l.splitSource = none := by
  rw [initialPlan, orderLimits_ofPointer h (by simp)]
  simp [ofPointer]

theorem splitAddresses_groupOf (qs : List RetrieveQueueShardPointer) :
    splitAddresses (qs.map groupOf) = [] := by
  simp [splitAddresses, groupOf]

theorem planned_groupOf (qs : List RetrieveQueueShardPointer) :
    (qs.map groupOf).flatMap Group.planned = [] := by
  simp [Group.planned, Group.shards, groupOf, ofPointer]

theorem plan_empty (m : Nat) (j : JobToAdd) (js : List JobToAdd) :
    ∃ e, (j :: js).foldlM (placeOrCreate m) [] = some [e] ∧ e.jobsToAdd = j :: js ∧
      e.newShard = true ∧ e.fromSplit = false ∧ e.splitSource = none ∧
      splitsFrom m [] (j :: js) = [] := by
  have main : ∀ (js : List JobToAdd) (e : ShardForAddition), e.newShard = true →
      ∃ e', js.foldlM (placeOrCreate m) [e] = some [e'] ∧
        e'.jobsToAdd = e.jobsToAdd ++ js ∧ e'.newShard = true ∧ e'.fromSplit = e.fromSplit ∧
        e'.splitSource = e.splitSource ∧ splitsFrom m [e] js = [] := by
    intro js
    induction js with
    | nil => intro e hn; exact ⟨e, rfl, by simp, hn, rfl, rfl, rfl⟩
    | cons j js ih =>
      intro e hn
      obtain ⟨pre, x, post, hs, hplace, hsplit, -⟩ := placeJob_spec m j (List.cons_ne_nil e [])
      obtain ⟨rfl, rfl, rfl⟩ : pre = [] ∧ x = e ∧ post = [] := by
        cases pre with
        | nil => simpa [eq_comm] using hs
        | cons y pre => simp at hs
      obtain ⟨e', h1, h2, h3, h4, h5, h6⟩ := ih (x.push j) hn
      have hm : mustSplit m x = false := by simp [mustSplit, hn]
      have hplace' : placeOrCreate m [x] j = some [x.push j] := by
        rw [hplace]
        simp [addJobToShardAndMaybeSplit, hm]
      refine ⟨e', ?_, by simpa [push_jobsToAdd] using h2, h3, h4, h5, ?_⟩
      · rw [List.foldlM_cons, hplace']
        exact h1
      · rw [splitsFrom, hsplit, hplace', Option.getD_some, h6]
        simp [hm]
  obtain ⟨e, h1, h2, h3, h4, h5, h6⟩ := main js (initialShard j) rfl
  refine ⟨e, by simpa [List.foldlM_cons, placeOrCreate] using h1, by simpa [initialShard] using h2,
    h3, h4, h5, ?_⟩
  simpa [splitsFrom, splitBy, landing, placeOrCreate] using h6

theorem ShardForAddition.cut_eq {e : ShardForAddition} (h : e.minFseq ≤ e.maxFseq)
    (hm : e.maxFseq < 2^64) : e.cut = e.minFseq + (e.maxFseq - e.minFseq) / 2 := by
  rw [ShardForAddition.cut, sub64_of_le h]
  exact Nat.mod_eq_of_lt (by omega)

theorem ShardForAddition.min_le_cut {e : ShardForAddition} (h : e.minFseq ≤ e.maxFseq)
    (hm : e.maxFseq < 2^64) : e.minFseq ≤ e.cut ∧ e.cut ≤ e.maxFseq := by
  rw [ShardForAddition.cut_eq h hm]
  omega

@[simp] theorem ShardForAddition.push_minFseq (e : ShardForAddition) (j : JobToAdd) :
    (e.push j).minFseq = min j.fSeq e.minFseq := by
  simp only [ShardForAddition.push, updateShardLimits]
  split <;> omega

@[simp] theorem ShardForAddition.push_maxFseq (e : ShardForAddition) (j : JobToAdd) :
    (e.push j).maxFseq = max j.fSeq e.maxFseq := by
  simp only [ShardForAddition.push, updateShardLimits]
  split <;> omega

@[simp] theorem ShardForAddition.lowerHalf_minFseq (e : ShardForAddition) :
    e.lowerHalf.minFseq = e.minFseq := rfl

@[simp] theorem ShardForAddition.lowerHalf_maxFseq (e : ShardForAddition) :
    e.lowerHalf.maxFseq = e.cut := rfl

@[simp] theorem ShardForAddition.upperHalf_maxFseq (e : ShardForAddition) :
    e.upperHalf.maxFseq = e.maxFseq := rfl

theorem ShardForAddition.cut_lt {e : ShardForAddition} (h : e.minFseq ≤ e.maxFseq)
    (hm : e.maxFseq < 2^64) (hlt : e.minFseq < 2^64 - 1) : e.cut < 2^64 - 1 := by
  rw [ShardForAddition.cut_eq h hm]
  omega

theorem ShardForAddition.upperHalf_minFseq_of_cut {e : ShardForAddition} (h : e.cut < 2^64 - 1) :
    e.upperHalf.minFseq = e.cut + 1 :=
  Nat.mod_eq_of_lt (by omega)

theorem ShardForAddition.upperHalf_minFseq {e : ShardForAddition} (h : e.minFseq ≤ e.maxFseq)
    (hm : e.maxFseq < 2^64 - 1) : e.upperHalf.minFseq = e.cut + 1 :=
  upperHalf_minFseq_of_cut (cut_lt h (by omega) (by omega))

/-- The planned shard holds a job: planned, or stored in its range. -/
def HasJob (stored : List RetrieveJobPointer) (l : ShardForAddition) : Prop :=
  l.jobsToAdd ≠ [] ∨ ∃ x ∈ stored, l.minFseq ≤ x.fSeq ∧ x.fSeq ≤ l.maxFseq

/-- An uncut group starts at a job of its own; the first cut leaves a job below it. -/
def Group.Seeded (stored : List RetrieveJobPointer) (g : Group) : Prop :=
  match g.lowers with
  | [] => g.source.minFseq ≤ g.source.maxFseq ∧ g.source.maxFseq < 2^64 ∧
      ((∃ x ∈ stored, x.fSeq = g.source.minFseq) ∨
        ∃ x ∈ g.source.jobsToAdd, x.fSeq = g.source.minFseq)
  | [l] => HasJob stored l
  | _ => True

theorem HasJob.push {stored : List RetrieveJobPointer} {l : ShardForAddition}
    (h : HasJob stored l) (j : JobToAdd) : HasJob stored (l.push j) := by
  rcases h with h | ⟨x, hx, h1, h2⟩
  · exact .inl (by simp [push_jobsToAdd])
  · refine .inr ⟨x, hx, ?_, ?_⟩
    · rw [ShardForAddition.push_minFseq]; omega
    · rw [ShardForAddition.push_maxFseq]; omega

theorem HasJob.lowerHalf {stored : List RetrieveJobPointer} {e : ShardForAddition}
    (hle : e.minFseq ≤ e.maxFseq) (hlt : e.maxFseq < 2^64)
    (h : (∃ x ∈ stored, x.fSeq = e.minFseq) ∨ ∃ x ∈ e.jobsToAdd, x.fSeq = e.minFseq) :
    HasJob stored e.lowerHalf := by
  obtain ⟨hcut, -⟩ := ShardForAddition.min_le_cut hle hlt
  rcases h with ⟨x, hx, hf⟩ | ⟨x, hx, hf⟩
  · exact .inr ⟨x, hx, Nat.le_of_eq hf.symm, by simpa [ShardForAddition.lowerHalf, hf] using hcut⟩
  · refine .inl (List.ne_nil_of_mem (a := x) ?_)
    simpa [ShardForAddition.lowerHalf, hf] using ⟨hx, hcut⟩

theorem Group.Step.seeded {m : Nat} {j : JobToAdd} {g g' : Group} {stored : List RetrieveJobPointer}
    (h : Step m j g g') (hj : j.fSeq < 2^64) (hg : g.Seeded stored) : g'.Seeded stored := by
  cases h with
  | lower pre l post ha hl hl' hs hfit =>
    unfold Group.Seeded at hg ⊢
    rw [hl] at hg
    rw [hl']
    match pre, post with
    | [], [] => exact HasJob.push hg j
    | [], _ :: _ => trivial
    | _ :: pre, _ => cases pre <;> trivial
  | source ha hm hl hs =>
    unfold Group.Seeded at hg ⊢
    rw [hl, hs]
    match hlow : g.lowers with
    | [] =>
      rw [hlow] at hg
      obtain ⟨h1, h2, h3⟩ := hg
      refine ⟨?_, ?_, ?_⟩
      · simp only [ShardForAddition.push_minFseq, ShardForAddition.push_maxFseq]; omega
      · simp only [ShardForAddition.push_maxFseq]; omega
      · by_cases hlt : j.fSeq < g.source.minFseq
        · refine .inr ⟨j, by simp [push_jobsToAdd], ?_⟩
          rw [ShardForAddition.push_minFseq]; omega
        · rw [ShardForAddition.push_minFseq, Nat.min_eq_right (Nat.not_lt.mp hlt)]
          exact h3.imp_right fun ⟨x, hx, hf⟩ => ⟨x, by simp [push_jobsToAdd, hx], hf⟩
    | [l] => simpa [hlow] using hg
    | _ :: _ :: _ => trivial
  | splitUp ha hm hj hl hs =>
    unfold Group.Seeded at hg ⊢
    rw [hl]
    match hlow : g.lowers with
    | [] =>
      rw [hlow] at hg
      exact HasJob.lowerHalf hg.1 hg.2.1 hg.2.2
    | [l] => trivial
    | _ :: _ :: _ => trivial
  | splitDown ha hm hj hl hs =>
    unfold Group.Seeded at hg ⊢
    rw [hl]
    match hlow : g.lowers with
    | [] =>
      rw [hlow] at hg
      exact (HasJob.lowerHalf hg.1 hg.2.1 hg.2.2).push j
    | [l] => trivial
    | _ :: _ :: _ => trivial

structure Separated (shards : List ShardForAddition) : Prop where
  strict : shards.Pairwise fun a b => a.maxFseq < b.minFseq
  bounded : ∀ e ∈ shards, e.minFseq ≤ e.maxFseq + 1 ∧ e.minFseq < 2^64 ∧ e.maxFseq < 2^64

structure Ordered (shards : List ShardForAddition) : Prop where
  strict : shards.Pairwise fun a b => a.maxFseq < b.minFseq
  bounded : ∀ e ∈ shards, e.minFseq ≤ e.maxFseq + 1 ∧ e.maxFseq < 2^64 - 1

theorem Ordered.separated {shards : List ShardForAddition} (h : Ordered shards) :
    Separated shards := by
  refine ⟨h.strict, fun e he => ?_⟩
  have := h.bounded e he
  omega

theorem Separated.below_all {f : Nat} {post : List ShardForAddition} (h : Separated post)
    (hf : ∀ b ∈ post.head?, f < b.minFseq) : ∀ b ∈ post, f < b.minFseq := by
  cases post with
  | nil => simp
  | cons c post =>
    intro b hb
    have hc : f < c.minFseq := hf c rfl
    rcases List.mem_cons.mp hb with rfl | hb
    · exact hc
    · have h1 := (List.pairwise_cons.mp h.strict).1 b hb
      have h2 := h.bounded c List.mem_cons_self
      omega

section
variable {f : Nat} {pre es post : List ShardForAddition} {e : ShardForAddition}

theorem Separated.replace (h : Separated (pre ++ e :: post)) (hpre : ∀ a ∈ pre, a.maxFseq < f)
    (hfit : f ≤ e.maxFseq ∨ f < e.minFseq ∨ ∀ b ∈ post.head?, f < b.minFseq)
    (hes : Separated es)
    (hin : ∀ x ∈ es, min f e.minFseq ≤ x.minFseq ∧ x.maxFseq ≤ max f e.maxFseq) :
    Separated (pre ++ es ++ post) := by
  obtain ⟨h1, h2, h3⟩ := List.pairwise_append.mp h.strict
  obtain ⟨h4, h5⟩ := List.pairwise_cons.mp h2
  have hbe := h.bounded e (by simp)
  have hbpost : ∀ b ∈ post, b.minFseq ≤ b.maxFseq + 1 ∧ b.minFseq < 2^64 ∧ b.maxFseq < 2^64 :=
    fun b hb => h.bounded b (by simp [hb])
  have hpost : ∀ b ∈ post, max f e.maxFseq < b.minFseq := by
    intro b hb
    have := h4 b hb
    rcases hfit with hf | hf | hf
    · omega
    · omega
    · have := Separated.below_all ⟨h5, hbpost⟩ hf b hb
      omega
  refine ⟨?_, ?_⟩
  · rw [List.append_assoc]
    refine List.pairwise_append.mpr ⟨h1, List.pairwise_append.mpr ⟨hes.strict, h5, ?_⟩, ?_⟩
    · intro x hx b hb
      have := (hin x hx).2
      have := hpost b hb
      omega
    · intro a ha x hx
      rcases List.mem_append.mp hx with hx | hx
      · have := (hin x hx).1
        have := hpre a ha
        have := h3 a ha e List.mem_cons_self
        omega
      · exact h3 a ha x (List.mem_cons_of_mem e hx)
  · intro x hx
    have hx' : (x ∈ pre ∨ x ∈ es) ∨ x ∈ post := by simpa [or_assoc] using hx
    rcases hx' with (hx' | hx') | hx'
    · exact h.bounded x (by simp [hx'])
    · exact hes.bounded x hx'
    · exact hbpost x hx'

theorem Ordered.replace (h : Ordered (pre ++ e :: post)) (hpre : ∀ a ∈ pre, a.maxFseq < f)
    (hfit : f ≤ e.maxFseq ∨ f < e.minFseq ∨ ∀ b ∈ post.head?, f < b.minFseq) (hes : Ordered es)
    (hin : ∀ x ∈ es, min f e.minFseq ≤ x.minFseq ∧ x.maxFseq ≤ max f e.maxFseq) :
    Ordered (pre ++ es ++ post) := by
  have hsep := h.separated.replace hpre hfit hes.separated hin
  refine ⟨hsep.strict, fun x hx => ⟨(hsep.bounded x hx).1, ?_⟩⟩
  have hx' : (x ∈ pre ∨ x ∈ es) ∨ x ∈ post := by simpa [or_assoc] using hx
  rcases hx' with (hx' | hx') | hx'
  · exact (h.bounded x (by simp [hx'])).2
  · exact (hes.bounded x hx').2
  · exact (h.bounded x (by simp [hx'])).2

end

section
variable {m : Nat} {j : JobToAdd} {e : ShardForAddition}

theorem Separated.halves (hle : e.minFseq ≤ e.maxFseq) (hm : e.maxFseq < 2^64)
    (hlt : e.minFseq < 2^64 - 1) :
    Separated [e.lowerHalf, e.upperHalf] ∧ ∀ x ∈ [e.lowerHalf, e.upperHalf],
      e.minFseq ≤ x.minFseq ∧ x.maxFseq ≤ e.maxFseq := by
  obtain ⟨h1, h2⟩ := ShardForAddition.min_le_cut hle hm
  have hcut := ShardForAddition.cut_lt hle hm hlt
  have hu := ShardForAddition.upperHalf_minFseq_of_cut hcut
  refine ⟨⟨?_, ?_⟩, ?_⟩ <;> simp [hu] <;> omega

theorem Separated.addJob
    (he : e.minFseq ≤ e.maxFseq + 1 ∧ e.minFseq < 2^64 ∧ e.maxFseq < 2^64) (hj : j.fSeq < 2^64)
    (hs : mustSplit m e = true → e.minFseq ≤ e.maxFseq ∧ e.minFseq < 2^64 - 1) :
    Separated (addJobToShardAndMaybeSplit m j e) ∧
      ∀ x ∈ addJobToShardAndMaybeSplit m j e,
        min j.fSeq e.minFseq ≤ x.minFseq ∧ x.maxFseq ≤ max j.fSeq e.maxFseq := by
  by_cases hm : mustSplit m e = true
  · obtain ⟨hle, hlt⟩ := hs hm
    obtain ⟨h1, h2⟩ := ShardForAddition.min_le_cut hle he.2.2
    have hcut := ShardForAddition.cut_lt hle he.2.2 hlt
    have hu := ShardForAddition.upperHalf_minFseq_of_cut hcut
    by_cases hj' : e.upperHalf.minFseq ≤ j.fSeq
    · simp only [addJobToShardAndMaybeSplit, hm, if_true, if_pos hj']
      refine ⟨⟨?_, ?_⟩, ?_⟩ <;> simp [hu] at hj' ⊢ <;> omega
    · simp only [addJobToShardAndMaybeSplit, hm, if_true, if_neg hj']
      refine ⟨⟨?_, ?_⟩, ?_⟩ <;> simp [hu] at hj' ⊢ <;> omega
  · have hm' : mustSplit m e = false := by simpa using hm
    simp only [addJobToShardAndMaybeSplit, hm']
    refine ⟨⟨by simp, ?_⟩, ?_⟩ <;> simp <;> omega

theorem Ordered.addJob (he : e.minFseq ≤ e.maxFseq + 1 ∧ e.maxFseq < 2^64 - 1)
    (hj : j.fSeq < 2^64 - 1) (hs : mustSplit m e = true → e.minFseq ≤ e.maxFseq) :
    Ordered (addJobToShardAndMaybeSplit m j e) ∧
      ∀ x ∈ addJobToShardAndMaybeSplit m j e,
        min j.fSeq e.minFseq ≤ x.minFseq ∧ x.maxFseq ≤ max j.fSeq e.maxFseq := by
  obtain ⟨hsep, hin⟩ := Separated.addJob (m := m) (e := e) (j := j) (by omega) (by omega)
    fun hm => ⟨hs hm, by have := hs hm; omega⟩
  refine ⟨⟨hsep.strict, fun x hx => ⟨(hsep.bounded x hx).1, ?_⟩⟩, hin⟩
  have := (hin x hx).2
  omega

end

theorem Ordered.plan {m : Nat} {js : List JobToAdd} {shards shards' : List ShardForAddition}
    (h : Ordered shards) (hne : shards ≠ []) (hj : ∀ j ∈ js, j.fSeq < 2^64 - 1)
    (hs : ∀ e ∈ splitsFrom m shards js, e.minFseq ≤ e.maxFseq)
    (hp : js.foldlM (placeOrCreate m) shards = some shards') : Ordered shards' := by
  induction js generalizing shards with
  | nil => simpa [← Option.some.inj hp] using h
  | cons j js ih =>
    obtain ⟨pre, e, post, rfl, hplace, hsplit, hpre, hfit⟩ := placeJob_spec m j hne
    have hcut : mustSplit m e = true → e.minFseq ≤ e.maxFseq := by
      intro hm
      exact hs e (by rw [splitsFrom, hsplit]; simp [hm])
    obtain ⟨hes, hin⟩ := Ordered.addJob (h.bounded e (by simp)) (hj j List.mem_cons_self) hcut
    have hne' : pre ++ addJobToShardAndMaybeSplit m j e ++ post ≠ [] := by
      unfold addJobToShardAndMaybeSplit
      split_ifs <;> simp
    rw [List.foldlM_cons, hplace] at hp
    refine ih (h.replace hpre hfit hes hin) hne'
      (fun i hi => hj i (List.mem_cons_of_mem j hi)) ?_ hp
    intro x hx
    refine hs x ?_
    rw [splitsFrom, hplace]
    exact List.mem_append_right _ hx

def Group.Spans (g : Group) : Prop := g.lowers = [] → g.source.minFseq ≤ g.source.maxFseq

theorem Group.Step.spans {m : Nat} {j : JobToAdd} {g g' : Group} (h : Step m j g g')
    (hg : g.Spans) : g'.Spans := by
  intro hnil
  cases h with
  | lower pre l post ha hg' hl hs hfit => simp [hl] at hnil
  | source ha hm hl hs =>
    have := hg (hl ▸ hnil)
    rw [hs, ShardForAddition.push_minFseq, ShardForAddition.push_maxFseq]
    omega
  | splitUp ha hm hj hl hs => simp [hl] at hnil
  | splitDown ha hm hj hl hs => simp [hl] at hnil

theorem splitsFrom_spans {m : Nat} {js : List JobToAdd} {gs : List Group} (hne : gs ≠ [])
    (hgs : ∀ g ∈ gs, g.Spans)
    (honce : (splitAddresses gs ++
      (splitsFrom m (gs.flatMap Group.shards) js).map (·.address)).Nodup) :
    ∀ e ∈ splitsFrom m (gs.flatMap Group.shards) js, e.minFseq ≤ e.maxFseq := by
  induction js generalizing gs with
  | nil => simp [splitsFrom]
  | cons j js ih =>
    obtain ⟨gpre, g, gpost, g', rfl, hstep, hplace, hsplits⟩ := place_step m j hne
    have haddr := hsplits.addresses hstep.address_eq gpre gpost
    rw [splitsFrom, hplace, Option.getD_some, List.map_append, ← List.append_assoc] at honce
    have honce' := ((haddr.append_right _).nodup_iff).mpr honce
    have hgs' : ∀ x ∈ gpre ++ g' :: gpost, x.Spans := by
      intro x hx
      have hx' : x ∈ gpre ∨ x = g' ∨ x ∈ gpost := by simpa using hx
      rcases hx' with hx' | rfl | hx'
      · exact hgs x (by simp [hx'])
      · exact hstep.spans (hgs g (by simp))
      · exact hgs x (by simp [hx'])
    intro e he
    rw [splitsFrom, hplace, Option.getD_some, List.mem_append] at he
    rcases he with he | he
    · rcases hsplits with ⟨hs, -⟩ | ⟨hs, -, -⟩
      · rw [hs] at he
        simp at he
      · rw [hs] at he
        obtain rfl : e = g.source := by simpa using he
        refine hgs g (by simp) ?_
        by_contra hcut
        -- the shard was cut before, so that its address is listed already
        have hmem : some g.address ∈ splitAddresses (gpre ++ g :: gpost) := by
          refine List.mem_flatMap.mpr ⟨g, by simp, List.mem_replicate.mpr ⟨?_, rfl⟩⟩
          simpa using hcut
        have hdisjoint := List.disjoint_of_nodup_append (List.nodup_append.mp honce).1
        rw [hs] at hdisjoint
        exact hdisjoint hmem (by simp [g.isSource.address])
    · exact ih (by simp) hgs' honce' e he

/-- What holds of every cut of a plan and the shard that is cut holds group by group. -/
theorem cuts_iff {K : ShardForAddition → ShardForAddition → RetrieveQueueShard → Prop}
    {orig : ShardAddress → Option RetrieveQueueShard} {gs : List Group}
    (hn : (gs.map Group.address).Nodup) :
    (∀ l ∈ gs.flatMap Group.shards, ∀ e ∈ gs.flatMap Group.shards, ∀ a s,
        l.splitSource = some a → e.address = some a → orig a = some s → K l e s) ↔
      ∀ g ∈ gs, ∀ l ∈ g.lowers, ∀ s, orig g.address = some s → K l g.source s := by
  constructor
  · intro hall g hg l hl s hs
    exact hall l (List.mem_flatMap.mpr ⟨g, hg, List.mem_append_left _ hl⟩) g.source
      (List.mem_flatMap.mpr ⟨g, hg, by simp [Group.shards]⟩) g.address s
      (g.isCutOff l hl).splitSource g.isSource.address hs
  · intro hall l hl e he a s hla hea hs
    obtain ⟨g, hg, hlg⟩ := List.mem_flatMap.mp hl
    obtain ⟨g', hg', heg⟩ := List.mem_flatMap.mp he
    have hlow : l ∈ g.lowers := by
      rcases List.mem_append.mp hlg with hlg | hlg
      · exact hlg
      · rw [List.mem_singleton.mp hlg, g.isSource.splitSource] at hla
        simp at hla
    have hsrc : e = g'.source := by
      rcases List.mem_append.mp heg with heg | heg
      · rw [(g'.isCutOff e heg).address] at hea
        simp at hea
      · exact List.mem_singleton.mp heg
    have hga : g.address = a :=
      Option.some.inj ((g.isCutOff l hlow).splitSource.symm.trans hla)
    have hga' : g'.address = a := by
      rw [hsrc, g'.isSource.address] at hea
      exact Option.some.inj hea
    obtain rfl : g = g' := List.inj_on_of_nodup_map hn hg hg' (hga.trans hga'.symm)
    rw [hsrc]
    exact hall g hg l hlow s (hga ▸ hs)

def PlannedInRange (e : ShardForAddition) : Prop :=
  ∀ j ∈ e.jobsToAdd, e.minFseq ≤ j.fSeq ∧ j.fSeq ≤ e.maxFseq

/-- Stored and planned jobs lie within the ranges of the group: those up to the cut in
the lower half, the others in the shard that was cut. -/
def Group.Fits (stored : List RetrieveJobPointer) (g : Group) : Prop :=
  match g.lowers with
  | [] => g.source.minFseq ≤ g.source.maxFseq ∧ g.source.maxFseq < 2^64 - 1 ∧
      PlannedInRange g.source ∧
      ∀ x ∈ stored, g.source.minFseq ≤ x.fSeq ∧ x.fSeq ≤ g.source.maxFseq
  | [l] => PlannedInRange l ∧ PlannedInRange g.source ∧ l.minFseq ≤ l.maxFseq + 1 ∧
      ∀ x ∈ stored, (x.fSeq ≤ l.maxFseq → l.minFseq ≤ x.fSeq) ∧
        (l.maxFseq < x.fSeq → g.source.minFseq ≤ x.fSeq ∧ x.fSeq ≤ g.source.maxFseq)
  | _ => True

theorem PlannedInRange.push {e : ShardForAddition} (h : PlannedInRange e) (j : JobToAdd) :
    PlannedInRange (e.push j) := by
  intro i hi
  rw [push_jobsToAdd, List.mem_append, List.mem_singleton] at hi
  rw [ShardForAddition.push_minFseq, ShardForAddition.push_maxFseq]
  rcases hi with hi | rfl
  · have := h i hi
    omega
  · omega

theorem PlannedInRange.lowerHalf {e : ShardForAddition} (h : PlannedInRange e) :
    PlannedInRange e.lowerHalf := by
  intro i hi
  obtain ⟨hi, hc⟩ := List.mem_filter.mp hi
  exact ⟨(h i hi).1, of_decide_eq_true hc⟩

theorem PlannedInRange.upperHalf {e : ShardForAddition} (h : PlannedInRange e)
    (hu : e.upperHalf.minFseq = e.cut + 1) : PlannedInRange e.upperHalf := by
  intro i hi
  obtain ⟨hi, hc⟩ := List.mem_filter.mp hi
  rw [hu]
  exact ⟨of_decide_eq_true hc, (h i hi).2⟩

theorem Group.Step.fits {m : Nat} {j : JobToAdd} {g g' : Group} {stored : List RetrieveJobPointer}
    (h : Step m j g g') (hj : j.fSeq < 2^64 - 1) (hg : g.Fits stored) : g'.Fits stored := by
  cases h with
  | lower pre l post ha hl hl' hs hfit =>
    unfold Group.Fits at hg ⊢
    rw [hl] at hg
    rw [hl', hs]
    match pre, post with
    | [], [] =>
      obtain ⟨h1, h2, h3, h4⟩ := hg
      refine ⟨h1.push j, h2, ?_, ?_⟩
      · simp only [ShardForAddition.push_minFseq, ShardForAddition.push_maxFseq]; omega
      · intro x hx
        obtain ⟨h5, h6⟩ := h4 x hx
        simp only [ShardForAddition.push_minFseq, ShardForAddition.push_maxFseq]
        -- the job does not reach the shard that was cut, so the limit above stays
        have hmax : j.fSeq ≤ l.maxFseq ∨ j.fSeq < g.source.minFseq := by
          rcases hfit with hf | hf | hf
          · exact .inl hf
          · exact .inl (by omega)
          · exact .inr (hf _ (by simp))
        constructor
        · intro hle
          by_cases hx' : x.fSeq ≤ l.maxFseq
          · have := h5 hx'
            omega
          · have := h6 (by omega)
            omega
        · intro hlt
          exact h6 (by omega)
    | [], _ :: _ => trivial
    | _ :: pre, _ => cases pre <;> trivial
  | source ha hm hl hs =>
    unfold Group.Fits at hg ⊢
    rw [hl, hs]
    match hlow : g.lowers with
    | [] =>
      rw [hlow] at hg
      obtain ⟨h1, h2, h3, h4⟩ := hg
      simp only [ShardForAddition.push_minFseq, ShardForAddition.push_maxFseq]
      refine ⟨by omega, by omega, h3.push j, fun x hx => ?_⟩
      have := h4 x hx
      omega
    | [l] =>
      rw [hlow] at hg
      obtain ⟨h1, h2, h3, h4⟩ := hg
      simp only [ShardForAddition.push_minFseq, ShardForAddition.push_maxFseq]
      refine ⟨h1, h2.push j, h3, fun x hx => ⟨(h4 x hx).1, fun hlt => ?_⟩⟩
      have := (h4 x hx).2 hlt
      omega
    | _ :: _ :: _ => trivial
  | splitUp ha hm hj hl hs =>
    unfold Group.Fits at hg ⊢
    rw [hl, hs]
    match hlow : g.lowers with
    | [] =>
      rw [hlow] at hg
      obtain ⟨h1, h2, h3, h4⟩ := hg
      have hc := ShardForAddition.min_le_cut h1 (by omega)
      have hu := ShardForAddition.upperHalf_minFseq h1 h2
      refine ⟨h3.lowerHalf, (h3.upperHalf hu).push j, ?_, fun x hx => ?_⟩
      · simp only [ShardForAddition.lowerHalf_minFseq, ShardForAddition.lowerHalf_maxFseq]; omega
      · have := h4 x hx
        simp only [ShardForAddition.lowerHalf_minFseq, ShardForAddition.lowerHalf_maxFseq,
          ShardForAddition.push_minFseq, ShardForAddition.push_maxFseq, hu,
          ShardForAddition.upperHalf_maxFseq]
        omega
    | [l] => trivial
    | _ :: _ :: _ => trivial
  | splitDown ha hm hj hl hs =>
    unfold Group.Fits at hg ⊢
    rw [hl, hs]
    match hlow : g.lowers with
    | [] =>
      rw [hlow] at hg
      obtain ⟨h1, h2, h3, h4⟩ := hg
      have hc := ShardForAddition.min_le_cut h1 (by omega)
      have hu := ShardForAddition.upperHalf_minFseq h1 h2
      refine ⟨h3.lowerHalf.push j, h3.upperHalf hu, ?_, fun x hx => ?_⟩
      · simp only [ShardForAddition.lowerHalf_minFseq, ShardForAddition.lowerHalf_maxFseq,
          ShardForAddition.push_minFseq, ShardForAddition.push_maxFseq]
        omega
      · have := h4 x hx
        simp only [ShardForAddition.lowerHalf_minFseq, ShardForAddition.lowerHalf_maxFseq,
          ShardForAddition.push_minFseq, ShardForAddition.push_maxFseq, hu,
          ShardForAddition.upperHalf_maxFseq] at hj ⊢
        omega
    | [l] => trivial
    | _ :: _ :: _ => trivial

end Cta.ObjectStore.RetrieveQueue

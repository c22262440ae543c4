import Cta.ObjectStore.PopNextBatch

/-! The rounds of agents that pop batches from one container, and what all of them keep. -/
namespace Cta.ObjectStore.PopNextBatch
open Cta.Lib.Runs

section
variable {Obj : Type} (K : JobOwners Obj) (copyNb : Address → Nat)

structure Frame (g : Address) (s t : State Obj) : Prop where
  phase : ∀ h, h ≠ g → t.phase h = s.phase h
  batches : ∀ h, h ≠ g → t.batches h = s.batches h
  ownership : ∀ h, h ≠ g → t.ownership h = s.ownership h
  tried : ∀ h, h ≠ g → t.tried h = s.tried h
  lock : ∀ h, h ≠ g → s.lock = some h → t.lock = some h ∧ t.references = s.references ∧
    ∀ a, t.owner K copyNb a = s.owner K copyNb a
  owner : ∀ a, t.owner K copyNb a = s.owner K copyNb a ∨
    s.owner K copyNb a = some .container ∧ t.owner K copyNb a = some (.agent g)
  references : t.references.Sublist s.references
  taken : ∀ a ∈ s.references, a ∉ t.references → (g, a) ∈ t.dereferencedBy
  kept : s.dereferencedBy ⊆ t.dereferencedBy

variable {K copyNb} {s t : State Obj} {g h : Address}

theorem Frame.owner_other (f : Frame K copyNb g s t) (hg : h ≠ g) {a : Address} :
    t.owner K copyNb a = some (.agent h) ↔ s.owner K copyNb a = some (.agent h) := by
  cases f.owner a with
  | inl he => rw [he]
  | inr he =>
    rw [he.1, he.2]
    simp [hg.symm]

theorem Frame.settled (f : Frame K copyNb g s t) (hg : h ≠ g) {a : Address}
    {r : Option SwitchFailure} (hs : Settled K copyNb s h a r) : Settled K copyNb t h a r := by
  obtain ⟨h1, h2, h3⟩ := hs
  refine ⟨fun hr => (f.owner_other hg).mpr (h1 hr), fun hr he => h2 hr ((f.owner_other hg).mp he),
    fun hr he => ?_⟩
  cases f.owner a with
  | inl hsame => exact h3 hr (hsame.symm.trans he)
  | inr hnew => exact h3 hr hnew.1

theorem Frame.inPhase (f : Frame K copyNb g s t) (hg : h ≠ g)
    (hp : InPhase K copyNb s h (s.phase h)) : InPhase K copyNb t h (t.phase h) := by
  rw [f.phase h hg]
  cases hph : s.phase h with
  | idle => trivial
  | ready ret => trivial
  | crashed => trivial
  | selected ret candidates =>
    rw [hph] at hp
    obtain ⟨hl, hr, -⟩ := f.lock h hg hp.1
    exact ⟨hl, by rw [hr]; exact hp.2⟩
  | switching ret candidates results =>
    rw [hph] at hp
    obtain ⟨h1, h2, h3, h4, h5, h6, h7⟩ := hp
    obtain ⟨hl, hr, ho⟩ := f.lock h hg h1
    refine ⟨hl, by rw [hr]; exact h2, by rw [f.ownership h hg]; exact h3, h4, h5,
      fun x hx => f.settled hg (h6 x hx), fun a ha hn => ?_⟩
    rw [ho a]
    exact h7 a ha hn
  | dereferenced ret candidates results =>
    rw [hph] at hp
    obtain ⟨h1, h2, h3, h4, h5⟩ := hp
    refine ⟨h1, h2, fun x hx => f.settled hg (h3 x hx),
      fun a ha hr => h4 a ha (f.references.subset hr), fun a ha hn => ?_⟩
    cases h5 a ha hn with
    | inl hr =>
      by_cases ht : a ∈ t.references
      · exact .inl ht
      · exact .inr ⟨g, hg.symm, f.taken a hr ht⟩
    | inr hr =>
      obtain ⟨k, hk, hm⟩ := hr
      exact .inr ⟨k, hk, f.kept hm⟩

/-- A candidate stays dropped, as long as the agent lists only references anew. -/
theorem Frame.dropped (f : Frame K copyNb g s t) {a : Address}
    (ho : ∀ b ∈ t.ownership h, b ∈ s.ownership h ∨ b ∈ s.references)
    (hd : Dropped K copyNb s h a) : Dropped K copyNb t h a := by
  obtain ⟨h1, h2, h3⟩ := hd
  refine ⟨fun hr => h1 (f.references.subset hr), fun hm => ?_, fun he => ?_⟩
  · cases ho a hm with
    | inl hm => exact h2 hm
    | inr hm => exact h1 hm
  · cases f.owner a with
    | inl hsame => exact h3 (hsame.symm.trans he)
    | inr hnew => exact h3 hnew.1

theorem Frame.tried_other (f : Frame K copyNb g s t) (hg : h ≠ g) (ht : Tried K copyNb s h) :
    Tried K copyNb t h := by
  intro a ha hc
  rw [f.tried h hg] at ha
  rw [f.phase h hg] at hc
  have hpop : t.popped h = s.popped h := by
    rw [State.popped, State.popped, f.batches h hg, f.phase h hg]
  rw [hpop, f.phase h hg]
  cases ht a ha hc with
  | inl hm => exact .inl hm
  | inr hm =>
    cases hm with
    | inl hd => exact .inr (.inl (f.dropped (fun b hb => .inl (f.ownership h hg ▸ hb)) hd))
    | inr hl =>
      obtain ⟨hidle, hno, hr⟩ := hl
      refine .inr (.inr ⟨hidle, by rw [f.ownership h hg]; exact hno, ?_⟩)
      cases hr with
      | inl hr =>
        by_cases htr : a ∈ t.references
        · exact .inl htr
        · exact .inr ⟨g, hg.symm, f.taken a hr htr⟩
      | inr hr =>
        obtain ⟨k, hk, hm⟩ := hr
        exact .inr ⟨k, hk, f.kept hm⟩

theorem Frame.tried_self (f : Frame K copyNb g s t) (ht : Tried K copyNb s g)
    (hc : s.phase g ≠ .crashed) (hidle : s.phase g ≠ .idle)
    (ho : ∀ b ∈ t.ownership g, b ∈ s.ownership g ∨ b ∈ s.references)
    (hpop : s.popped g ⊆ t.popped g) {a : Address} (ha : a ∈ s.tried g) :
    a ∈ t.popped g ∨ Dropped K copyNb t g a := by
  cases ht a ha hc with
  | inl hm => exact .inl (hpop hm)
  | inr hm =>
    cases hm with
    | inl hd => exact .inr (f.dropped ho hd)
    | inr hl => exact absurd hl.1 hidle

theorem Frame.inv (f : Frame K copyNb g s t) (hi : Inv K copyNb s)
    (hq : ∀ a, t.owner K copyNb a = some .container → a ∈ t.references)
    (hl : ∀ a, t.owner K copyNb a = some (.agent g) → a ∈ t.ownership g)
    (hs : ∀ a ∈ t.references, t.owner K copyNb a = some (.agent g) → MayHold (t.phase g) a)
    (hp : InPhase K copyNb t g (t.phase g))
    (hpop : ∀ a ∈ t.popped g, t.owner K copyNb a = some (.agent g) ∧ a ∉ t.references)
    (ht : Tried K copyNb t g) : Inv K copyNb t where
  nodup := f.references.nodup hi.nodup
  queued := hq
  listed := by
    intro a h ha
    by_cases hg : h = g
    · subst hg
      exact hl a ha
    · rw [f.ownership h hg]
      exact hi.listed a h ((f.owner_other hg).mp ha)
  stale := by
    intro a h hr ha
    by_cases hg : h = g
    · subst hg
      exact hs a hr ha
    · rw [f.phase h hg]
      exact hi.stale a h (f.references.subset hr) ((f.owner_other hg).mp ha)
  inPhase := by
    intro h
    by_cases hg : h = g
    · subst hg
      exact hp
    · exact f.inPhase hg (hi.inPhase h)
  popped := by
    intro h a ha
    by_cases hg : h = g
    · subst hg
      exact hpop a ha
    · rw [State.popped, f.batches h hg, f.phase h hg] at ha
      obtain ⟨ho, hr⟩ := hi.popped h a ha
      exact ⟨(f.owner_other hg).mpr ho, fun hm => hr (f.references.subset hm)⟩
  tried := by
    intro h
    by_cases hg : h = g
    · subst hg
      exact ht
    · exact f.tried_other hg (hi.tried h)

theorem Frame.local (hphase : ∀ h, h ≠ g → t.phase h = s.phase h)
    (hbatches : ∀ h, h ≠ g → t.batches h = s.batches h)
    (hownership : ∀ h, h ≠ g → t.ownership h = s.ownership h)
    (htried : ∀ h, h ≠ g → t.tried h = s.tried h)
    (hlock : ∀ h, h ≠ g → s.lock = some h → t.lock = some h) (ho : t.objects = s.objects)
    (hr : t.references = s.references) (hd : t.dereferencedBy = s.dereferencedBy) :
    Frame K copyNb g s t where
  phase := hphase
  batches := hbatches
  ownership := hownership
  tried := htried
  lock := fun h hg hl => ⟨hlock h hg hl, hr, fun a => by rw [State.owner, State.owner, ho]⟩
  owner := fun a => .inl (by rw [State.owner, State.owner, ho])
  references := by rw [hr]
  taken := fun a ha hn => absurd (hr ▸ ha) hn
  kept := by rw [hd]; exact List.Subset.refl _

theorem owner_congr (ho : t.objects = s.objects) (a : Address) :
    t.owner K copyNb a = s.owner K copyNb a := by
  rw [State.owner, State.owner, ho]

/-- A step that only moves an agent to a phase with no obligation of its own. -/
theorem inv_of_local (hi : Inv K copyNb s) (f : Frame K copyNb g s t) (ho : t.objects = s.objects)
    (hr : t.references = s.references) (hown : s.ownership g ⊆ t.ownership g)
    (hhold : ∀ a, MayHold (s.phase g) a → MayHold (t.phase g) a)
    (hp : InPhase K copyNb t g (t.phase g)) (hpop : ∀ a ∈ t.popped g, a ∈ s.popped g)
    (ht : Tried K copyNb t g) : Inv K copyNb t := by
  apply f.inv hi
  · intro a ha
    rw [owner_congr ho] at ha
    rw [hr]
    exact hi.queued a ha
  · intro a ha
    rw [owner_congr ho] at ha
    exact hown (hi.listed a g ha)
  · intro a hm ha
    rw [owner_congr ho] at ha
    rw [hr] at hm
    exact hhold a (hi.stale a g hm ha)
  · exact hp
  · intro a ha
    rw [owner_congr ho, hr]
    exact hi.popped g a (hpop a ha)
  · exact ht

theorem not_mayHold {p : Phase} {a : Address} (hc : p ≠ .crashed)
    (hs : ∀ ret candidates results, p ≠ .switching ret candidates results) : ¬ MayHold p a := by
  intro h
  cases h with
  | inl h => exact hc h
  | inr h =>
    obtain ⟨ret, candidates, results, h, -⟩ := h
    exact hs _ _ _ h

theorem inv_start (hi : Inv K copyNb s) (hp : s.phase g = .idle) :
    Inv K copyNb { s.setPhase g (.ready []) with tried := Function.update s.tried g [] } := by
  have f : Frame K copyNb g s
      { s.setPhase g (.ready []) with tried := Function.update s.tried g [] } := by
    apply Frame.local <;> simp +contextual [State.setPhase]
  apply inv_of_local hi f rfl rfl (Finset.Subset.refl _)
  · intro a h
    rw [hp] at h
    exact absurd h (not_mayHold (by simp) (by simp))
  · simp [State.setPhase, InPhase]
  · simp [State.popped, State.setPhase, hp, Phase.ret]
  · simp [Tried]

theorem inv_return {ret : List Address} (hi : Inv K copyNb s) (hp : s.phase g = .ready ret) :
    Inv K copyNb (s.return g ret) := by
  have f : Frame K copyNb g s (s.return g ret) := by
    apply Frame.local <;> simp +contextual [State.return, State.setPhase]
  apply inv_of_local hi f rfl rfl (Finset.Subset.refl _)
  · intro a h
    rw [hp] at h
    exact absurd h (not_mayHold (by simp) (by simp))
  · simp [State.return, State.setPhase, InPhase]
  · simp [State.popped, State.return, State.setPhase, hp, Phase.ret]
  · intro a ha _
    have hpop : s.popped g ⊆ (s.return g ret).popped g := by
      simp [State.popped, State.return, State.setPhase, hp, Phase.ret]
    cases f.tried_self (hi.tried g) (by simp [hp]) (by simp [hp]) (fun _ hb => .inl hb) hpop ha with
    | inl hm => exact .inl hm
    | inr hm => exact .inr (.inl hm)

theorem inv_crash (hi : Inv K copyNb s) :
    Inv K copyNb { s.setPhase g .crashed with lock := if s.lock = some g then none else s.lock } := by
  have f : Frame K copyNb g s
      { s.setPhase g .crashed with lock := if s.lock = some g then none else s.lock } := by
    apply Frame.local <;> simp +contextual [State.setPhase]
  apply inv_of_local hi f rfl rfl (Finset.Subset.refl _)
  · intro a _
    simp [State.setPhase, MayHold]
  · simp [State.setPhase, InPhase]
  · intro a ha
    simp only [State.popped, State.setPhase, Function.update_self, Phase.ret, List.append_nil] at ha
    exact List.mem_append_left _ ha
  · intro a _ hc
    simp [State.setPhase] at hc

theorem Frame.tried_step (f : Frame K copyNb g s t) (hi : Inv K copyNb s)
    (hc : s.phase g ≠ .crashed)
    (hidle : s.phase g ≠ .idle) (he : t.tried g = s.tried g)
    (ho : ∀ b ∈ t.ownership g, b ∈ s.ownership g ∨ b ∈ s.references)
    (hb : t.batches g = s.batches g) (hret : (t.phase g).ret = (s.phase g).ret) :
    Tried K copyNb t g := by
  intro a ha _
  rw [he] at ha
  have hpop : s.popped g ⊆ t.popped g := by
    rw [State.popped, State.popped, hb, hret]
    exact List.Subset.refl _
  cases f.tried_self (hi.tried g) hc hidle ho hpop ha with
  | inl hm => exact .inl hm
  | inr hm => exact .inr (.inl hm)

theorem inv_select {ret candidates : List Address} (hi : Inv K copyNb s)
    (hp : s.phase g = .ready ret) (hl : s.lock = none) (hc : candidates.Sublist s.references) :
    Inv K copyNb { s.setPhase g (.selected ret candidates) with lock := some g } := by
  have f : Frame K copyNb g s { s.setPhase g (.selected ret candidates) with lock := some g } := by
    apply Frame.local <;> simp +contextual [State.setPhase, hl]
  apply inv_of_local hi f rfl rfl (Finset.Subset.refl _)
  · intro a h
    rw [hp] at h
    exact absurd h (not_mayHold (by simp) (by simp))
  · simp only [State.setPhase, Function.update_self, InPhase, true_and]
    exact hc.subset
  · simp [State.popped, State.setPhase, hp, Phase.ret]
  · apply f.tried_step hi <;> simp +contextual [State.setPhase, hp, Phase.ret]

theorem inv_addBatchToOwnership {ret candidates : List Address} (hi : Inv K copyNb s)
    (hp : s.phase g = .selected ret candidates) :
    Inv K copyNb { s.setPhase g (.switching ret candidates []) with
      ownership := Function.update s.ownership g (s.ownership g ∪ candidates.toFinset) } := by
  have hin := hi.inPhase g
  rw [hp] at hin
  have f : Frame K copyNb g s { s.setPhase g (.switching ret candidates []) with
      ownership := Function.update s.ownership g (s.ownership g ∪ candidates.toFinset) } := by
    apply Frame.local <;> simp +contextual [State.setPhase]
  -- a candidate that the agent owned would have been dereferenced in an earlier round
  have hnew : ∀ a ∈ candidates, s.owner K copyNb a ≠ some (.agent g) := by
    intro a ha ho
    have h := hi.stale a g (hin.2 ha) ho
    rw [hp] at h
    exact not_mayHold (by simp) (by simp) h
  apply inv_of_local hi f rfl rfl
  · simp
  · intro a h
    rw [hp] at h
    exact absurd h (not_mayHold (by simp) (by simp))
  · simp only [State.setPhase, Function.update_self]
    refine ⟨hin.1, hin.2, ?_, by simp, by simp, by simp, fun a ha _ => hnew a ha⟩
    intro a ha
    simp [ha]
  · simp [State.popped, State.setPhase, hp, Phase.ret]
  · apply f.tried_step hi (by simp [hp]) (by simp [hp]) rfl ?_ rfl
    · simp [State.setPhase, hp, Phase.ret]
    · intro b hb
      simp only [Function.update_self, Finset.mem_union, List.mem_toFinset] at hb
      exact hb.imp id fun hb => hin.2 hb

/-- After the switch of one candidate its owner is the agent, or the owner it had. -/
theorem owner_switched {a : Address} {r : Option SwitchFailure} {x : Option Obj}
    (hsw : Switched K (copyNb a) (.agent g) .container (s.objects a) r x)
    (hn : s.owner K copyNb a ≠ some (.agent g)) (b : Address) :
    b = a ∧ Succeeded r ∧ s.owner K copyNb a = some .container ∧
        (s.update a x).owner K copyNb a = some (.agent g) ∨
      (b = a → ¬ Succeeded r) ∧ (s.update a x).owner K copyNb b = s.owner K copyNb b := by
  by_cases hb : b = a
  · subst hb
    by_cases hr : Succeeded r
    · obtain ⟨hs, ht⟩ := hsw.owner_of_succeeded hr
      have hc : s.owner K copyNb b = some .container := by
        cases hs with
        | inl hs => exact hs
        | inr hs => exact absurd hs hn
      exact .inl ⟨rfl, hr, hc, by simpa [State.update, State.owner] using ht⟩
    · have hx := hsw.unchanged hr
      exact .inr ⟨fun _ => hr, by simp [State.update, State.owner, hx]⟩
  · exact .inr ⟨fun h => absurd h hb, by simp [State.update, State.owner, hb]⟩

theorem settled_switched {a : Address} {r : Option SwitchFailure} {x : Option Obj}
    (hsw : Switched K (copyNb a) (.agent g) .container (s.objects a) r x)
    (hinformed : Informed K copyNb s a r) (hn : s.owner K copyNb a ≠ some (.agent g)) :
    Settled K copyNb (s.update a x) g a r := by
  cases owner_switched hsw hn a with
  | inl h =>
    obtain ⟨-, hr, -, ho⟩ := h
    refine ⟨fun _ => ho, fun hns => absurd hr hns, fun _ => by simp [ho]⟩
  | inr h =>
    have hns := h.1 rfl
    refine ⟨fun hr => absurd hr hns, fun _ => by rw [h.2]; exact hn, fun hr => ?_⟩
    rw [h.2]
    rcases hr with hr | hr
    · exact hinformed hr
    · exact hsw.not_owned hr

theorem frame_switched {a : Address} {r : Option SwitchFailure} {x : Option Obj} {p : Phase}
    (hlock : s.lock = some g)
    (hsw : Switched K (copyNb a) (.agent g) .container (s.objects a) r x)
    (hn : s.owner K copyNb a ≠ some (.agent g)) :
    Frame K copyNb g s ((s.update a x).setPhase g p) where
  phase := fun h hg => by simp [State.setPhase, State.update, hg]
  batches := fun _ _ => rfl
  ownership := fun _ _ => rfl
  tried := fun _ _ => rfl
  lock := fun h hg hl => absurd (Option.some.inj (hl.symm.trans hlock)) hg
  owner := by
    intro b
    cases owner_switched hsw hn b with
    | inl h =>
      obtain ⟨rfl, -, h1, h2⟩ := h
      exact .inr ⟨h1, h2⟩
    | inr h => exact .inl h.2
  references := List.Sublist.refl _
  taken := fun _ hb hb' => absurd hb hb'
  kept := List.Subset.refl _

theorem inPhase_switched {ret candidates : List Address} {results : Results} {a : Address}
    {r : Option SwitchFailure} {x : Option Obj} {p : Phase}
    (hin : InPhase K copyNb s g (.switching ret candidates results)) (ha : a ∈ candidates)
    (hn : a ∉ results.map Prod.fst)
    (hsw : Switched K (copyNb a) (.agent g) .container (s.objects a) r x)
    (hinformed : Informed K copyNb s a r) :
    InPhase K copyNb ((s.update a x).setPhase g p) g
      (.switching ret candidates (results ++ [(a, r)])) := by
  obtain ⟨hlock, href, hlist, hres, hnd, hset, hrest⟩ := hin
  have hna := hrest a ha hn
  refine ⟨hlock, href, hlist, ?_, ?_, ?_, ?_⟩
  · intro y hy
    cases List.mem_append.mp hy with
    | inl hy => exact hres y hy
    | inr hy =>
      rw [List.mem_singleton.mp hy]
      exact ha
  · rw [List.map_append, List.map_singleton, ← List.concat_eq_append]
    exact hnd.concat hn
  · intro y hy
    cases List.mem_append.mp hy with
    | inl hy =>
      have hne : y.1 ≠ a := fun he => hn (he ▸ List.mem_map_of_mem hy)
      cases owner_switched hsw hna y.1 with
      | inl h => exact absurd h.1 hne
      | inr h =>
        have hs := hset y hy
        rw [Settled, ← h.2] at hs
        exact hs
    | inr hy =>
      rw [List.mem_singleton.mp hy]
      exact settled_switched hsw hinformed hna
  · intro b hb hbn
    simp only [List.map_append, List.map_cons, List.map_nil, List.mem_append, List.mem_singleton,
      not_or] at hbn
    cases owner_switched hsw hna b with
    | inl h => exact absurd h.1 hbn.2
    | inr h =>
      intro he
      exact hrest b hb hbn.1 (h.2.symm.trans he)

theorem inv_switchOwner {ret candidates : List Address} {results : Results} {a : Address}
    {r : Option SwitchFailure} {x : Option Obj} (hi : Inv K copyNb s)
    (hp : s.phase g = .switching ret candidates results) (ha : a ∈ candidates)
    (hn : a ∉ results.map Prod.fst)
    (hsw : Switched K (copyNb a) (.agent g) .container (s.objects a) r x)
    (hinformed : Informed K copyNb s a r) :
    Inv K copyNb
      ((s.update a x).setPhase g (.switching ret candidates (results ++ [(a, r)]))) := by
  have hin := hi.inPhase g
  rw [hp] at hin
  have hna := hin.2.2.2.2.2.2 a ha hn
  have ho := owner_switched hsw hna
  have f := frame_switched (p := .switching ret candidates (results ++ [(a, r)])) hin.1 hsw hna
  apply f.inv hi
  · intro b hb
    cases ho b with
    | inl h =>
      obtain ⟨rfl, -, -, h2⟩ := h
      have := hb.symm.trans h2
      simp at this
    | inr h => exact hi.queued b (h.2.symm.trans hb)
  · intro b hb
    cases ho b with
    | inl h =>
      obtain ⟨rfl, -⟩ := h
      exact hin.2.2.1 b ha
    | inr h => exact hi.listed b g (h.2.symm.trans hb)
  · intro b hb hg
    refine .inr ⟨ret, candidates, results ++ [(a, r)], by simp [State.setPhase], ?_⟩
    cases ho b with
    | inl h =>
      obtain ⟨rfl, -⟩ := h
      simp
    | inr h =>
      have hm := hi.stale b g hb (h.2.symm.trans hg)
      rw [hp] at hm
      simp only [MayHold, reduceCtorEq, false_or] at hm
      obtain ⟨_, _, _, he, hm⟩ := hm
      cases he
      simp only [List.map_append, List.mem_append]
      exact .inl hm
  · simp only [State.setPhase, Function.update_self]
    exact inPhase_switched hin ha hn hsw hinformed
  · intro b hb
    have hb' : b ∈ s.popped g := by
      simpa [State.popped, State.setPhase, State.update, hp, Phase.ret] using hb
    obtain ⟨h1, h2⟩ := hi.popped g b hb'
    exact ⟨(f.owner b).elim (fun h => h.trans h1) fun h => h.2, h2⟩
  · apply f.tried_step hi (by simp [hp]) (by simp [hp]) rfl (fun _ hb => .inl hb) rfl
    simp [State.setPhase, hp, Phase.ret]

theorem mem_results {candidates : List Address} {results : Results} {a : Address}
    (hall : ∀ a ∈ candidates, a ∈ results.map Prod.fst) (ha : a ∈ candidates) :
    ∃ r, (a, r) ∈ results := by
  obtain ⟨⟨b, r⟩, hr, rfl⟩ := List.mem_map.mp (hall a ha)
  exact ⟨r, hr⟩

theorem mem_toDereference_of_owner {candidates : List Address} {results : Results} {a : Address}
    (hset : ∀ x ∈ results, Settled K copyNb s g x.1 x.2) (ha : a ∈ candidates)
    (ho : s.owner K copyNb a = some (.agent g)) : a ∈ toDereference candidates results := by
  refine mem_toDereference.mpr ⟨ha, fun hr => ?_⟩
  exact (hset _ hr).2.1 (by simp [Succeeded]) ho

theorem owner_of_toDereference {candidates : List Address} {results : Results} {a : Address}
    (hall : ∀ a ∈ candidates, a ∈ results.map Prod.fst)
    (hset : ∀ x ∈ results, Settled K copyNb s g x.1 x.2)
    (ha : a ∈ toDereference candidates results) : s.owner K copyNb a ≠ some .container := by
  obtain ⟨hc, hno⟩ := mem_toDereference.mp ha
  obtain ⟨r, hr⟩ := mem_results hall hc
  obtain ⟨h1, h2, h3⟩ := hset _ hr
  by_cases hsucc : Succeeded r
  · simp [h1 hsucc]
  · cases r with
    | none => exact absurd (.inl rfl) hsucc
    | some e =>
      cases e with
      | noSuchObject => exact h3 (.inl rfl)
      | wrongPreviousOwner => exact h3 (.inr rfl)
      | couldNotUnlock => exact absurd (.inr rfl) hsucc
      | other => exact absurd hr hno

theorem inv_removeReferences {ret candidates : List Address} {results : Results}
    (hi : Inv K copyNb s) (hp : s.phase g = .switching ret candidates results)
    (hall : ∀ a ∈ candidates, a ∈ results.map Prod.fst) :
    Inv K copyNb { s.setPhase g (.dereferenced ret candidates results) with
      references := s.references.filter (· ∉ toDereference candidates results)
      lock := none
      dereferencedBy := s.dereferencedBy ++ (toDereference candidates results).map (g, ·) } := by
  have hin := hi.inPhase g
  rw [hp] at hin
  obtain ⟨hlock, href, hlist, hres, hnd, hset, -⟩ := hin
  have f : Frame K copyNb g s { s.setPhase g (.dereferenced ret candidates results) with
      references := s.references.filter (· ∉ toDereference candidates results)
      lock := none
      dereferencedBy := s.dereferencedBy ++ (toDereference candidates results).map (g, ·) } :=
    { phase := fun h hg => by simp [State.setPhase, hg]
      batches := fun _ _ => rfl
      ownership := fun _ _ => rfl
      tried := fun _ _ => rfl
      lock := fun h hg hl => absurd (Option.some.inj (hl.symm.trans hlock)) hg
      owner := fun _ => .inl rfl
      references := List.filter_sublist
      taken := fun a ha hn => by
        simp only [List.mem_filter, ha, decide_eq_true_eq, true_and, not_not] at hn
        simp [hn]
      kept := List.subset_append_left _ _ }
  apply f.inv hi
  · intro a ha
    refine List.mem_filter.mpr ⟨hi.queued a ha, ?_⟩
    rw [decide_eq_true_eq]
    exact fun hd => owner_of_toDereference hall hset hd ha
  · exact fun a ha => hi.listed a g ha
  · intro a hr ho
    rw [List.mem_filter, decide_eq_true_eq] at hr
    have hm := hi.stale a g hr.1 ho
    rw [hp] at hm
    simp only [MayHold, reduceCtorEq, false_or] at hm
    obtain ⟨_, _, _, he, hm⟩ := hm
    cases he
    obtain ⟨x, hx, rfl⟩ := List.mem_map.mp hm
    exact absurd (mem_toDereference_of_owner hset (hres x hx) ho) hr.2
  · simp only [State.setPhase, Function.update_self]
    refine ⟨hall, hnd, hset, ?_, ?_⟩
    · intro a ha
      simp [ha]
    · intro a ha hn
      exact .inl (List.mem_filter.mpr ⟨href ha, by simpa using hn⟩)
  · intro a ha
    have ha' : a ∈ s.popped g := by
      simpa [State.popped, State.setPhase, hp, Phase.ret] using ha
    obtain ⟨h1, h2⟩ := hi.popped g a ha'
    exact ⟨h1, fun hm => h2 (List.mem_of_mem_filter hm)⟩
  · apply f.tried_step hi (by simp [hp]) (by simp [hp]) rfl (fun _ hb => .inl hb) rfl
    simp [State.setPhase, hp, Phase.ret]

theorem endRound_objects (ret candidates : List Address) (results : Results) :
    (s.endRound g ret candidates results).objects = s.objects := by
  unfold State.endRound
  split <;> rfl

theorem endRound_references (ret candidates : List Address) (results : Results) :
    (s.endRound g ret candidates results).references = s.references := by
  unfold State.endRound
  split <;> rfl

theorem endRound_ownership (ret candidates : List Address) (results : Results) :
    (s.endRound g ret candidates results).ownership = Function.update s.ownership g
      (s.ownership g \ (decisions results).elementsToDereferenceFromAgent.toFinset) := by
  unfold State.endRound
  split <;> rfl

theorem endRound_popped {ret candidates : List Address} {results : Results}
    (hp : s.phase g = .dereferenced ret candidates results) :
    (s.endRound g ret candidates results).popped g =
      s.popped g ++ toReport candidates results := by
  unfold State.endRound
  split <;> simp [State.popped, State.return, State.setPhase, hp, Phase.ret]

theorem endRound_idle {ret candidates : List Address} {results : Results} {a : Address}
    (hr : (a, some .other) ∈ results) : (s.endRound g ret candidates results).phase g = .idle := by
  have hu : (decisions results).unexpectedException = true :=
    unexpectedException_of_other a _ {} (.inr (mem_failed.mpr hr))
  simp [State.endRound, hu, State.return, State.setPhase]

theorem frame_endRound (ret candidates : List Address) (results : Results) :
    Frame K copyNb g s (s.endRound g ret candidates results) := by
  unfold State.endRound
  split <;> apply Frame.local <;> simp +contextual [State.return, State.setPhase]

theorem result_unique {results : Results} (hnd : (results.map Prod.fst).Nodup) {a : Address}
    {r r' : Option SwitchFailure} (hr : (a, r) ∈ results) (hr' : (a, r') ∈ results) : r = r' :=
  congrArg Prod.snd (List.inj_on_of_nodup_map hnd hr hr' rfl)

/-- A candidate of the round that just ended is popped, dropped or left, by its outcome. -/
theorem candidate_endRound {ret candidates : List Address} {results : Results} {a : Address}
    (hin : InPhase K copyNb s g (.dereferenced ret candidates results)) (ha : a ∈ candidates) :
    a ∈ toReport candidates results ∨
      Dropped K copyNb (s.endRound g ret candidates results) g a ∨
      (s.endRound g ret candidates results).phase g = .idle ∧
        Left (s.endRound g ret candidates results) g a := by
  obtain ⟨hall, hnd, hset, hgone, hleft⟩ := hin
  obtain ⟨r, hr⟩ := mem_results hall ha
  by_cases hsucc : Succeeded r
  · exact .inl (mem_toReport.mpr ⟨ha, fun r' hr' => result_unique hnd hr hr' ▸ hsucc⟩)
  · right
    have hno : a ∉ (s.endRound g ret candidates results).ownership g := by
      rw [endRound_ownership, Function.update_self, Finset.mem_sdiff, List.mem_toFinset]
      exact fun hm => hm.2 (mem_toDereferenceFromAgent.mpr ⟨r, hr, hsucc⟩)
    by_cases ho : r = some .other
    · subst ho
      right
      refine ⟨endRound_idle hr, hno, ?_⟩
      have hd := hleft a ha fun hm => (mem_toDereference.mp hm).2 hr
      rw [endRound_references]
      unfold State.endRound
      split <;> exact hd
    · left
      have hd : a ∈ toDereference candidates results :=
        mem_toDereference.mpr ⟨ha, fun hr' => ho (result_unique hnd hr hr')⟩
      refine ⟨by rw [endRound_references]; exact hgone a hd, hno, ?_⟩
      rw [owner_congr (endRound_objects ret candidates results)]
      exact owner_of_toDereference hall hset hd

theorem tried_endRound {ret candidates : List Address} {results : Results}
    (hi : Inv K copyNb s) (hp : s.phase g = .dereferenced ret candidates results) :
    Tried K copyNb (s.endRound g ret candidates results) g := by
  have hin := hi.inPhase g
  rw [hp] at hin
  intro a ha _
  have ht : (s.endRound g ret candidates results).tried g = s.tried g ++ candidates := by
    unfold State.endRound
    split <;> simp [State.return, State.setPhase]
  rw [ht] at ha
  cases List.mem_append.mp ha with
  | inl ha =>
    have hpop : s.popped g ⊆ (s.endRound g ret candidates results).popped g := by
      rw [endRound_popped hp]
      exact List.subset_append_left _ _
    have hown : ∀ b ∈ (s.endRound g ret candidates results).ownership g,
        b ∈ s.ownership g ∨ b ∈ s.references := by
      intro b hb
      rw [endRound_ownership, Function.update_self, Finset.mem_sdiff] at hb
      exact .inl hb.1
    cases (frame_endRound ret candidates results).tried_self (hi.tried g) (by simp [hp])
      (by simp [hp]) hown hpop ha with
    | inl hm => exact .inl hm
    | inr hm => exact .inr (.inl hm)
  | inr ha =>
    cases candidate_endRound hin ha with
    | inl hm =>
      rw [endRound_popped hp]
      exact .inl (List.mem_append_right _ hm)
    | inr hm => exact .inr hm

theorem inv_endRound {ret candidates : List Address} {results : Results}
    (hi : Inv K copyNb s) (hp : s.phase g = .dereferenced ret candidates results) :
    Inv K copyNb (s.endRound g ret candidates results) := by
  have hin := hi.inPhase g
  rw [hp] at hin
  obtain ⟨hall, hnd, hset, hgone, -⟩ := hin
  have hown (a : Address) :
      (s.endRound g ret candidates results).owner K copyNb a = s.owner K copyNb a :=
    owner_congr (endRound_objects ret candidates results) a
  apply (frame_endRound ret candidates results).inv hi
  · intro a ha
    rw [hown] at ha
    rw [endRound_references]
    exact hi.queued a ha
  · intro a ha
    rw [hown] at ha
    rw [endRound_ownership, Function.update_self, Finset.mem_sdiff, List.mem_toFinset]
    refine ⟨hi.listed a g ha, fun hd => ?_⟩
    obtain ⟨r, hr, hns⟩ := mem_toDereferenceFromAgent.mp hd
    exact (hset _ hr).2.1 hns ha
  · intro a hr ho
    rw [hown] at ho
    rw [endRound_references] at hr
    have hm := hi.stale a g hr ho
    rw [hp] at hm
    exact absurd hm (not_mayHold (by simp) (by simp))
  · unfold State.endRound
    split <;> simp [State.return, State.setPhase, InPhase]
  · intro a ha
    rw [endRound_popped hp] at ha
    rw [hown, endRound_references]
    cases List.mem_append.mp ha with
    | inl ha => exact hi.popped g a ha
    | inr ha =>
      obtain ⟨hc, hsucc⟩ := mem_toReport.mp ha
      obtain ⟨r, hr⟩ := mem_results hall hc
      have ho := (hset _ hr).1 (hsucc r hr)
      exact ⟨ho, hgone a (mem_toDereference_of_owner hset hc ho)⟩
  · exact tried_endRound hi hp

theorem Step.inv (h : Step K copyNb (Informed K copyNb) s t) (hi : Inv K copyNb s) : Inv K copyNb t := by
  cases h with
  | start g hp => exact inv_start hi hp
  | select g ret candidates hp hl hc => exact inv_select hi hp hl hc
  | addBatchToOwnership g ret candidates hp => exact inv_addBatchToOwnership hi hp
  | switchOwner g ret candidates results a r x hp ha hn hsw hinformed =>
    exact inv_switchOwner hi hp ha hn hsw hinformed
  | removeReferences g ret candidates results hp hall => exact inv_removeReferences hi hp hall
  | removeBatchFromOwnership g ret candidates results hp => exact inv_endRound hi hp
  | finish g ret hp => exact inv_return hi hp
  | crash g => exact inv_crash hi

theorem reachable_inv (h : Reachable (Initial K copyNb) (Step K copyNb (Informed K copyNb)) s) :
    Inv K copyNb s :=
  h.invariant (fun _ h => h.inv) fun _ _ hi h => h.inv hi

/-- What holds whatever the agents did so far: a request has one owner, which knows of it;
no two agents returned it; and the candidates of a finished pop are accounted for. -/
structure NothingLost (K : JobOwners Obj) (copyNb : Address → Nat) (s : State Obj) : Prop where
  owned : ∀ a o, s.owner K copyNb a = some o → o = .container ∧ a ∈ s.references ∨
    ∃ g, o = .agent g ∧ a ∈ s.ownership g
  returnedOnce : ∀ g h a, a ∈ (s.batches g).flatten → a ∈ (s.batches h).flatten → g = h
  finished : ∀ g, s.phase g = .idle → ∀ a ∈ s.tried g,
    a ∈ (s.batches g).flatten ∧ s.owner K copyNb a = some (.agent g) ∧ a ∉ s.references ∨
    a ∉ s.references ∧ a ∉ s.ownership g ∧ s.owner K copyNb a ≠ some .container ∨
    a ∉ s.ownership g ∧ (a ∈ s.references ∨ ∃ h, h ≠ g ∧ (h, a) ∈ s.dereferencedBy)

/-- As long as no switch takes a request of the container for one that is not there, nothing is
lost. -/
theorem reachable_nothingLost
    (h : Reachable (Initial K copyNb) (Step K copyNb (Informed K copyNb)) s) :
    NothingLost K copyNb s := by
  have hi := reachable_inv h
  have hret : ∀ g, ∀ a ∈ (s.batches g).flatten,
      s.owner K copyNb a = some (.agent g) ∧ a ∉ s.references :=
    fun g a ha => hi.popped g a (List.mem_append_left _ ha)
  constructor
  · intro a o ho
    cases o with
    | container => exact .inl ⟨rfl, hi.queued a ho⟩
    | agent g => exact .inr ⟨g, rfl, hi.listed a g ho⟩
  · intro g h a hg hh
    have he := (hret g a hg).1.symm.trans (hret h a hh).1
    simpa using he
  · intro g hidle a ha
    cases hi.tried g a ha (by simp [hidle]) with
    | inl hm =>
      simp only [State.popped, hidle, Phase.ret, List.append_nil] at hm
      exact .inl ⟨hm, hret g a hm⟩
    | inr hm =>
      cases hm with
      | inl hd => exact .inr (.inl hd)
      | inr hl => exact .inr (.inr hl.2)

/-- One object, queued for its only copy, and agents that have not started. -/
def oneQueued (o : Obj) : State Obj where
  references := ["a"]
  objects := fun a => if a = "a" then some o else none
  ownership := fun _ => ∅
  lock := none
  phase := fun _ => .idle
  batches := fun _ => []
  tried := fun _ => []
  dereferencedBy := []

theorem initial_oneQueued {o : Obj} (h : K.ownerOf 1 o = some .container) :
    Initial K (fun _ => 1) (oneQueued o) := by
  refine ⟨by simp [oneQueued], ?_, fun _ => .inl rfl, fun _ => rfl, fun _ => rfl⟩
  intro a o' ho
  simp only [State.owner, oneQueued] at ho
  split at ho
  · next ha =>
    cases h.symm.trans ho
    exact .inl ⟨rfl, by simp [oneQueued, ha]⟩
  · cases ho

end

def queuedRequest : ArchiveRequest := ⟨[⟨1, .container, .toTransferForUser⟩]⟩

def poppedRequest : ArchiveRequest := ⟨[⟨1, .agent "first", .toTransferForUser⟩]⟩

/-- One agent pops the request while another one crashes. -/
theorem reachable_nothingLost_oneQueued :
    ∃ s, Reachable (Initial (archiveRequests none) fun _ => 1)
        (Step (archiveRequests none) (fun _ => 1) (Informed (archiveRequests none) fun _ => 1)) s ∧
      s.batches "first" = [["a"]] ∧ s.phase "second" = .crashed ∧
      NothingLost (archiveRequests none) (fun _ => 1) s := by
  have h0 : Reachable (Initial (archiveRequests none) fun _ => 1)
      (Step (archiveRequests none) (fun _ => 1) (Informed (archiveRequests none) fun _ => 1)) _ :=
    .init (initial_oneQueued (o := queuedRequest) rfl)
  have h1 := h0.step (.start "first" rfl)
  have h2 := h1.step (.select "first" [] ["a"] (by simp [State.setPhase]) rfl
    (List.Sublist.refl _))
  have h3 := h2.step (.addBatchToOwnership "first" [] ["a"] (by simp [State.setPhase]))
  have h4 := h3.step (.switchOwner "first" [] ["a"] [] "a" none (some poppedRequest)
    (by simp [State.setPhase]) (by simp) (by simp) (.done rfl) (fun h => by cases h))
  have h5 := h4.step (.crash "second")
  have h6 := h5.step (.removeReferences "first" [] ["a"] [("a", none)]
    (by simp [State.setPhase]) (by simp))
  have h7 := h6.step (.removeBatchFromOwnership "first" [] ["a"] [("a", none)]
    (by simp [State.setPhase]))
  have h8 := h7.step (.finish "first" ["a"] (by simp [State.setPhase, State.endRound, decisions,
    failedOwnershipSwitchElements, toReport]))
  refine ⟨_, h8, ?_, ?_, reachable_nothingLost h8⟩
  · simp [State.return, State.endRound, State.setPhase, State.update, decisions,
      failedOwnershipSwitchElements, oneQueued]
  · simp [State.return, State.endRound, State.setPhase, State.update, decisions,
      failedOwnershipSwitchElements]

/-- The request could not be read: it is taken off the queue that goes on owning it. -/
theorem unread_request_lost : ∃ s, Reachable (Initial retrieveRequests fun _ => 1)
    (Step retrieveRequests (fun _ => 1) fun _ _ _ => True) s ∧
      ¬NothingLost retrieveRequests (fun _ => 1) s := by
  have h0 : Reachable (Initial retrieveRequests fun _ => 1)
      (Step retrieveRequests (fun _ => 1) fun _ _ _ => True) _ :=
    .init (initial_oneQueued (o := ⟨.container, [1]⟩) rfl)
  have h1 := h0.step (.start "first" rfl)
  have h2 := h1.step (.select "first" [] ["a"] (by simp [State.setPhase]) rfl
    (List.Sublist.refl _))
  have h3 := h2.step (.addBatchToOwnership "first" [] ["a"] (by simp [State.setPhase]))
  have h4 := h3.step (.switchOwner "first" [] ["a"] [] "a" (some .noSuchObject)
    (some ⟨.container, [1]⟩) (by simp [State.setPhase]) (by simp) (by simp) (.unread _) trivial)
  have h5 := h4.step (.removeReferences "first" [] ["a"] [("a", some .noSuchObject)]
    (by simp [State.setPhase]) (by simp))
  refine ⟨_, h5, fun h => ?_⟩
  rcases h.owned "a" .container rfl with ⟨-, hqueued⟩ | ⟨g, hg, -⟩
  · exact absurd hqueued (by decide)
  · cases hg

end Cta.ObjectStore.PopNextBatch

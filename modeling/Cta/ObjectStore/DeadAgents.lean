import Cta.ObjectStore.AgentOwners

/-! Whoever owns a dead agent is itself known to the collectors. -/
namespace Cta.ObjectStore.CleanupDeadAgent
open Cta.Lib.Runs Cta.Lib.Chains Relation

theorem Inv.arrive {s : State} {c : AgentName} {k : Cleanup} (hs : Inv (s.setCleanup c .idle))
    (hk : ∀ x, k ≠ .added x) (hok : CleanupOk (s.setCleanup c k) c k) :
    Inv (s.setCleanup c k) := by
  have htwice : (s.setCleanup c .idle).setCleanup c k = s.setCleanup c k := by
    simp [State.setCleanup]
  rw [← htwice] at hok ⊢
  exact hs.setCleanup hk hok

theorem not_claimed_idle {s : State} {n c : AgentName} (h : s.lock n = some c) :
    ¬ (s.setCleanup c .idle).Claimed n := by
  rintro ⟨-, b, hb, hk⟩
  have hbc : c = b := Option.some.inj (h.symm.trans hb)
  subst hbc
  simp [State.setCleanup] at hk

theorem Inv.lockDead {s : State} (hs : Inv s) {c d : AgentName} (hidle : s.cleanup c = .idle)
    (hcd : c ≠ d) (hd : s.lock d = none) (hc : s.lock c = none)
    (hod : s.ownerOf d = some .agentRegister) (hmc : s.marked c = false) :
    Inv { (s.setLock d (some c)).setCleanup c (.added d) with
      lockedAt := Function.update s.lockedAt d (s.clock + 1), clock := s.clock + 1 } where
  listed := hs.listed
  registered := hs.registered
  free := hs.free
  owned := hs.owned
  cleanup b := by
    by_cases hb : b = c
    · subst hb
      simpa [State.setCleanup, State.setLock, CleanupOk] using ⟨hcd, hod⟩
    · have hlocked : Frame s (s.setLock d (some c)) := by
        refine ⟨rfl, fun x e _ hl _ => ⟨?_, rfl, id⟩, fun _ _ h => Or.inl h, fun _ h => ⟨h, id⟩⟩
        have hx : x ≠ d := by
          rintro rfl
          simp [hd] at hl
        simpa [State.setLock, hx] using hl
      have hok := (hs.cleanup b).of_frame hlocked
      simp only [State.setCleanup, Function.update_of_ne hb]
      change CleanupOk _ b (s.cleanup b) at hok
      change CleanupOk _ b (s.cleanup b)
      cases hbk : s.cleanup b with
      | relinquishing e x others =>
        rw [hbk] at hok
        refine ⟨hok.1, hok.2.1, ?_⟩
        -- the collector cannot be the dead one of another cleanup, its lock is free
        have hec : e ≠ c := by
          rintro rfl
          have hl := hs.cleanup b
          rw [hbk] at hl
          simp [hl.1.2.1] at hc
        simpa [State.setLock, hec] using hok.2.2
      | _ =>
        rw [hbk] at hok
        exact hok
  rank x y hxy hy := by
    have hxd : s.GoesTo x y → x ≠ d := by
      rintro (ho | hadded) rfl
      · simp [hod] at ho
      · have hok := hs.cleanup y
        rw [hadded] at hok
        have hlock := hok.2.1
        simp [hd] at hlock
    have hgoes : s.GoesTo x y ∨ (x = d ∧ y = c) := by
      cases hxy with
      | inl ho => exact Or.inl (Or.inl ho)
      | inr hadded =>
        by_cases hyc : y = c
        · subst hyc
          exact Or.inr ⟨by simpa [State.setCleanup, eq_comm] using hadded, rfl⟩
        · exact Or.inl (Or.inr (by simpa [State.setCleanup, State.setLock, hyc] using hadded))
    have hstopped : y ≠ d → s.Stopped y := fun hyd =>
      hy.imp_right fun hl => by simpa [State.setCleanup, State.setLock, hyd] using hl
    cases hgoes with
    | inl hgoes =>
      have hx := hxd hgoes
      by_cases hyd : y = d
      · simpa [hx, hyd] using Nat.lt_succ_of_le (hs.clock x)
      · simpa [hx, hyd] using hs.rank x y hgoes (hstopped hyd)
    | inr hdc =>
      obtain ⟨rfl, rfl⟩ := hdc
      cases hstopped hcd with
      | inl hm => simp [hmc] at hm
      | inr hl => exact absurd hc hl
  clock x := by
    by_cases hx : x = d
    · simp [hx]
    · simpa [hx] using Nat.le_succ_of_le (hs.clock x)

theorem Inv.addDead {s t : State} (hs : Inv s) {c d : AgentName} (h : s.addDead c d = some t) :
    Inv t := by
  unfold State.addDead at h
  split at h
  · next a ha =>
    split at h
    · next hg =>
      obtain ⟨hidle, hcd, hld, hod⟩ := hg
      obtain ⟨u, hu, rfl⟩ := Option.map_eq_some_iff.mp h
      have hsu : Inv u := hs.action hu fun x _ hx => mem_addOwned hx
      obtain ⟨ac, hac, hlc, hmc, rfl⟩ := queueAndExecuteAction_some hu
      exact hsu.lockDead hidle hcd hld hlc (by simp [hcd.symm, ownerOf_of ha, hod])
        (by simp [hmc])
    · cases h
  · cases h

def Cleanup.adding : Cleanup → Option AgentName
  | .added d => some d
  | _ => none

/-- The collector's own agent still lists the dead one, and nobody who collects the collector
has passed the dead one over. -/
def State.ProperTake (s : State) (c : AgentName) : Prop :=
  ∀ d ∈ (s.cleanup c).adding, .agent d ∈ s.ownedBy c ∧ s.Unread c d

instance (s : State) (c : AgentName) : Decidable (s.ProperTake c) :=
  inferInstanceAs (Decidable (∀ d ∈ (s.cleanup c).adding, _))

theorem Inv.takeDead {s t : State} (hs : Inv s) {c : AgentName} (hp : s.ProperTake c)
    (h : s.takeDead c = some t) : Inv t := by
  unfold State.takeDead at h
  split at h
  · next d hk =>
    split at h
    · next a ha =>
      cases h
      obtain ⟨hlists, hunread⟩ := hp d (by simp [hk, Cleanup.adding])
      have hok := hs.cleanup c
      rw [hk] at hok
      obtain ⟨hcd, hl, ho⟩ := hok
      have hgoes {x y : AgentName} (h : (s.setCleanup c .idle).GoesTo x y) : s.GoesTo x y := by
        refine h.imp_right fun hy => ?_
        by_cases hyc : y = c
        · simp [State.setCleanup, hyc] at hy
        · simpa [State.setCleanup, hyc] using hy
      have htaken := (hs.idle c).takeObject ha hcd (not_claimed_idle hl) hlists
        (fun b hb => ?_) (fun b others => ?_)
        (fun x hx => hs.rank x d (hgoes hx) (Or.inr (by simp [hl])))
        (fun hc => hs.rank d c (Or.inr hk) hc)
      · exact Inv.arrive (s := s.setObject d (some { a with
          owner := .agent c, beingGarbageCollected := true })) htaken (by simp)
          ⟨hcd, hl, by simp [State.ownerOf, State.setCleanup, State.setObject]⟩
      · by_cases hbc : b = c
        · simp [State.setCleanup, hbc, Cleanup.passedOver]
        · simpa [State.setCleanup, hbc] using hunread b hb
      · by_cases hbc : b = c
        · simp [State.setCleanup, hbc]
        · have hok := hs.cleanup b
          intro hb
          have hb' : s.cleanup b = .relinquishing c d others := by
            simpa [State.setCleanup, hbc] using hb
          rw [hb'] at hok
          exact hok.2.2 hk
    · cases h
  · cases h

theorem Inv.trackDead {s t : State} (hs : Inv s) {c : AgentName} (h : s.trackDead c = some t) :
    Inv t := by
  unfold State.trackDead at h
  split at h
  · next d hk =>
    split at h
    · next a ha =>
      split at h
      · cases h
        have hm := hs.cleanup c
        rw [hk] at hm
        obtain ⟨hcd, hl, ho⟩ := hm
        let u : State := { s with untrackedAgents := s.untrackedAgents.filter (· ≠ d) }
        have htracked : Inv (u.setCleanup c .idle) := by
          refine (hs.idle c).of_register rfl rfl rfl rfl rfl (fun x hx => (hs.listed x hx).1)
            (fun x hx hu => ?_) (fun x hx => ?_) (fun x hx => hx) fun x hx => ?_
          · refine List.mem_filter.mpr ⟨hu, ?_⟩
            have hxd : x ≠ d := by
              rintro rfl
              cases hx with
              | inl hx => exact absurd (ho.symm.trans hx) (by simp)
              | inr hx => exact not_claimed_idle hl hx
            simpa using hxd
          · have hxd : x ≠ d := by
              rintro rfl
              exact (hs.listed x (by simp [ho])).2.1.2 hx
            have hold := hs.registered x hx
            exact ⟨hold.1, List.mem_filter.mpr ⟨hold.2, by simpa using hxd⟩⟩
          · by_contra ho
            exact (hs.listed x ho).2.2 hx
        exact htracked.arrive (by simp) ⟨⟨hcd, hl, ho⟩, by simp⟩
      · cases h
    · cases h
  · cases h

theorem Inv.fetchOwned {s t : State} (hs : Inv s) {c e : AgentName}
    (h : s.fetchOwned c e = some t) : Inv t := by
  unfold State.fetchOwned at h
  split at h
  · next d toRead gone skipped others hk =>
    split at h
    · cases h
      have hok := hs.cleanup c
      rw [hk] at hok
      obtain ⟨hm, hpassed⟩ := hok
      cases ha : s.objects e with
      | none =>
        refine hs.setCleanup (by simp) ⟨hm, fun x hx => ?_⟩
        by_cases hxe : x = e
        · simp [hxe, State.ownerOf, State.setCleanup, ha]
        · exact hpassed x (by simpa [hxe] using hx)
      | some a =>
        by_cases ho : a.owner = .agent d
        · simp only [ho, if_true]
          exact hs.setCleanup (by simp) ⟨hm, hpassed⟩
        · simp only [ho, if_false]
          refine hs.setCleanup (by simp) ⟨hm, fun x hx => ?_⟩
          by_cases hxe : x = e
          · simp [hxe, State.ownerOf, State.setCleanup, ha, ho]
          · exact hpassed x (by simpa [hxe] using hx)
    · cases h
  · cases h

theorem Inv.skipFetch {s t : State} (hs : Inv s) {c e : AgentName}
    (h : s.skipFetch c e = some t) : Inv t := by
  unfold State.skipFetch at h
  split at h
  · next d toRead gone skipped others hk =>
    cases h
    have hok := hs.cleanup c
    rw [hk] at hok
    exact hs.setCleanup (by simp) hok
  · cases h

theorem Inv.filterDead {s : State} (hs : Inv s) {c d : AgentName} {gone : List Owned} {k : Cleanup}
    (hgone : ∀ x, .agent x ∈ gone → s.ownerOf x ≠ some (.agent d)) (hk : ∀ x, k ≠ .added x)
    (hok : CleanupOk (s.setCleanup c k) c k) :
    Inv ((s.setObject d ((s.objects d).map fun a => a.removeFromOwnership gone)).setCleanup c k) :=
  (hs.setCleanup hk hok).filterOwned gone hgone

theorem Inv.commitGone {s t : State} (hs : Inv s) {c : AgentName}
    (h : s.commitGone c = some t) : Inv t := by
  unfold State.commitGone at h
  split at h
  · next d gone skipped others hk =>
    cases h
    have hok := hs.cleanup c
    rw [hk] at hok
    refine hs.filterDead (fun x hx => hok.2 x ?_) (by simp) ⟨hok.1, fun e he => hok.2 e ?_⟩
    · simp at hx
      simp [hx]
    · simp [he]
  · cases h

theorem Inv.commitSkipped {s t : State} (hs : Inv s) {c : AgentName}
    (h : s.commitSkipped c = some t) : Inv t := by
  unfold State.commitSkipped at h
  split at h
  · next d skipped others hk =>
    cases h
    have hok := hs.cleanup c
    rw [hk] at hok
    exact hs.filterDead (fun x hx => hok.2 x (by simpa using hx)) (by simp) hok.1
  · cases h

theorem Inv.commitRequeued {s t : State} (hs : Inv s) {c : AgentName} {x : Nat}
    (h : s.commitRequeued c x = some t) : Inv t := by
  unfold State.commitRequeued at h
  split at h
  · next d others hk =>
    cases h
    have hok := hs.cleanup c
    rw [hk] at hok
    exact hs.filterDead (by simp) (by simp) hok
  · cases h

theorem Inv.relinquishOther {s t : State} (hs : Inv s) {c : AgentName}
    (h : s.relinquishOther c = some t) : Inv t := by
  unfold State.relinquishOther at h
  split at h
  · next d e others hk =>
    cases h
    have hok := hs.cleanup c
    rw [hk] at hok
    refine hs.filterDead (fun x hx => ?_) (by simp) hok.1
    have hxe : x = e := by simpa using hx
    exact hxe ▸ hok.2.1
  · cases h

theorem Inv.passOther {s t : State} (hs : Inv s) {c : AgentName} (h : s.passOther c = some t) :
    Inv t := by
  unfold State.passOther at h
  split at h
  · next d e others hk =>
    have hm := hs.cleanup c
    rw [hk] at hm
    have hdc : d ≠ c := hm.1.symm
    -- the dead agent's own process has no lock on the other one
    have hpass (ho : s.ownerOf e ≠ some (.agent d))
        (hfree : s.lock e = none ∨ s.ownerOf e = none) :
        Inv (s.setCleanup c (.relinquishing d e others)) := by
      refine hs.setCleanup (by simp) ⟨hm, ho, fun hadded => ?_⟩
      have hadded' : s.cleanup d = .added e := by
        simpa [State.setCleanup, hdc] using hadded
      have hok := hs.cleanup d
      rw [hadded'] at hok
      cases hfree with
      | inl hl => exact absurd (hok.2.1.symm.trans hl) (by simp)
      | inr ho => exact absurd (hok.2.2.symm.trans ho) (by simp)
    split at h
    · next a ha =>
      split at h
      · next hg =>
        cases h
        exact hpass (by simp [ownerOf_of ha, hg.2]) (Or.inl hg.1)
      · cases h
    · next ha =>
      cases h
      have hnone : s.ownerOf e = none := by simp [State.ownerOf, ha]
      exact hpass (by simp [hnone]) (Or.inr hnone)
  · cases h

theorem Inv.untrackOther {s t : State} (hs : Inv s) {c : AgentName}
    (h : s.untrackOther c = some t) : Inv t := by
  unfold State.untrackOther at h
  split at h
  · next d e others hk =>
    split at h
    · next a ha =>
      split at h
      · next hg =>
        cases h
        obtain ⟨hl, ho, -⟩ := hg
        have hm := hs.cleanup c
        rw [hk] at hm
        have hoe : s.ownerOf e = some (.agent d) := by rw [ownerOf_of ha, ho]
        obtain ⟨hde, hmarked, -⟩ := hs.owned e d hoe
        let u : State := { s with untrackedAgents :=
          if e ∈ s.untrackedAgents then s.untrackedAgents else s.untrackedAgents ++ [e] }
        have hmem {x : AgentName} (hx : x ∈ s.untrackedAgents) : x ∈ u.untrackedAgents := by
          simp only [u]
          split
          · exact hx
          · exact List.mem_append_left _ hx
        have huntracked : Inv u := by
          refine hs.of_register rfl rfl rfl rfl rfl (fun x hx => (hs.listed x hx).1)
            (fun x _ hu => hmem hu) (fun x hx => ?_) (fun x hx => hx) fun x hx => ?_
          · exact ⟨(hs.registered x hx).1, hmem (hs.registered x hx).2⟩
          · by_contra ho
            exact (hs.listed x ho).2.2 hx
        have hlocked : Inv (u.setLock e (some c)) := huntracked.lockMarked hl hmarked
        refine hlocked.setCleanup (by simp) ⟨⟨hm.1, ?_, hm.2.2⟩, ?_, hoe, ?_⟩
        · simpa [State.setCleanup, State.setLock, hde] using hm.2.1
        · simp [State.setCleanup, State.setLock]
        · by_cases he : e ∈ s.untrackedAgents
          · exact hmem he
          · simp [State.setCleanup, State.setLock, u, he]
      · cases h
    · cases h
  · cases h

theorem Inv.returnOther {s t : State} (hs : Inv s) {c : AgentName}
    (h : s.returnOther c = some t) : Inv t := by
  unfold State.returnOther at h
  split at h
  · next d e others hk =>
    split at h
    · next a ha =>
      cases h
      have hok := hs.cleanup c
      rw [hk] at hok
      obtain ⟨hm, hl, ho, hu⟩ := hok
      have hde := (hs.owned e d ho).1
      have hreturned := (hs.idle c).returnObject ha (not_claimed_idle hl) hu
      have hfree : ¬ ((s.setCleanup c .idle).setObject e
          (some { a with owner := .agentRegister })).Claimed e := by
        rintro ⟨-, b, hb, hkb⟩
        exact not_claimed_idle hl ⟨by simp [State.ownerOf, State.setCleanup, ha], b, hb, hkb⟩
      refine Inv.arrive (s := (s.setObject e (some { a with owner := .agentRegister })).setLock e none)
        (hreturned.unlock hfree) (by simp) ⟨⟨hm.1, ?_, ?_⟩, ?_, fun hadded => ?_⟩
      · simpa [State.setCleanup, State.setLock, State.setObject, hde] using hm.2.1
      · simpa [State.ownerOf, State.setCleanup, State.setLock, State.setObject, hde] using hm.2.2
      · simp [State.ownerOf, State.setCleanup, State.setLock, State.setObject]
      · have hadded' : s.cleanup d = .added e := by
          simpa [State.setCleanup, State.setLock, State.setObject, hm.1.symm] using hadded
        have hokd := hs.cleanup d
        rw [hadded'] at hokd
        exact hm.1 (Option.some.inj (hl.symm.trans hokd.2.1))
    · cases h
  · cases h

theorem Inv.removeDead {s t : State} (hs : Inv s) {c : AgentName} (h : s.removeDead c = some t) :
    Inv t := by
  unfold State.removeDead at h
  split at h
  · next d hk =>
    split at h
    · next a ha =>
      split at h
      · next hempty =>
        cases h
        have hm := hs.cleanup c
        rw [hk] at hm
        obtain ⟨-, hl, ho⟩ := hm
        have hpast := (hs.listed d (by simp [ho])).2.1
        have hremoved := (hs.idle c).removeObject (not_claimed_idle hl)
          (ownedBy_of (s := s.setCleanup c .idle) ha ▸ hempty)
        have hfree : ¬ ((s.setCleanup c .idle).setObject d none).Claimed d := by
          rintro ⟨hd, -⟩
          simp at hd
        exact Inv.arrive (s := (s.setObject d none).setLock d none) (hremoved.unlock hfree)
          (by simp) ⟨by simp [State.ownerOf, State.setCleanup, State.setLock, State.setObject], hpast⟩
      · cases h
    · cases h
  · cases h

theorem Inv.unregisterDead {s t : State} (hs : Inv s) {c : AgentName}
    (h : s.unregisterDead c = some t) : Inv t := by
  unfold State.unregisterDead at h
  split at h
  · next d hk =>
    cases h
    have hok := hs.cleanup c
    rw [hk] at hok
    exact (hs.removeAgent hok.1 hok.2.2).setCleanup (by simp) hok
  · cases h

theorem Inv.disownDead {s t : State} (hs : Inv s) {c : AgentName} (h : s.disownDead c = some t) :
    Inv t := by
  unfold State.disownDead at h
  split at h
  · next d hk =>
    obtain ⟨u, hu, rfl⟩ := Option.map_eq_some_iff.mp h
    have hok := hs.cleanup c
    rw [hk] at hok
    refine (hs.action hu fun x hx hmem => mem_removeOwned hmem ?_).idle c
    intro hxd
    have hxd' : x = d := by simpa using hxd
    rw [hxd', hok.1] at hx
    cases hx
  · cases h

def Event.taker : Event → Option AgentName
  | .takeDead c => some c
  | _ => none

/-- The only steps with a condition are those that make a collector the owner. -/
def Proper (s : State) (e : Event) : Prop :=
  ∀ c ∈ e.taker, s.ProperTake c

instance (s : State) (e : Event) : Decidable (Proper s e) :=
  inferInstanceAs (Decidable (∀ c ∈ e.taker, _))

theorem Inv.next {s t : State} (hs : Inv s) {e : Event} (hp : Proper s e)
    (h : next s e = some t) : Inv t := by
  cases e with
  | registerSelf n => exact hs.registerSelf h
  | insertSelf n => exact hs.insertSelf h
  | own n x => exact hs.action h fun y _ hy => mem_addOwned hy
  | disown n x => exact hs.action h fun y _ hy => mem_removeOwned hy (by simp)
  | removeSelf n => exact hs.removeSelf h
  | unregisterSelf n => exact hs.unregisterSelf h
  | addDead c d => exact hs.addDead h
  | takeDead c => exact hs.takeDead (hp c rfl) h
  | trackDead c => exact hs.trackDead h
  | fetchOwned c e => exact hs.fetchOwned h
  | skipFetch c e => exact hs.skipFetch h
  | commitGone c => exact hs.commitGone h
  | commitSkipped c => exact hs.commitSkipped h
  | commitRequeued c x => exact hs.commitRequeued h
  | untrackOther c => exact hs.untrackOther h
  | returnOther c => exact hs.returnOther h
  | passOther c => exact hs.passOther h
  | relinquishOther c => exact hs.relinquishOther h
  | removeDead c => exact hs.removeDead h
  | unregisterDead c => exact hs.unregisterDead h
  | disownDead c => exact hs.disownDead h
  | abort c =>
    cases h
    exact (hs.idle c).releaseAll (by simp [State.setCleanup])
  | crash c =>
    cases h
    have hidle : Inv ((s.setCleanup c .idle).releaseAll c) :=
      (hs.idle c).releaseAll (by simp [State.setCleanup])
    exact hidle.setLife (by simp) (by simp) (by simp)

theorem Inv.step {s : State} (hs : Inv s) {e : Event} (hp : Proper s e) : Inv (step s e) := by
  unfold CleanupDeadAgent.step
  cases h : CleanupDeadAgent.next s e with
  | none => exact hs
  | some t => exact hs.next hp h

/-- An agent that owns something is registered, and with the register or with an agent that
lists it; the owners lead to an agent that every collector looks at. -/
def Remembered (s : State) : Prop :=
  ∀ d a, s.objects d = some a → a.ownedObjects ≠ [] → d ∈ s.agents ∧
    ((a.owner = .agentRegister ∧ d ∈ s.untrackedAgents) ∨
      ∃ c b, a.owner = .agent c ∧ c ≠ d ∧ s.objects c = some b ∧ .agent d ∈ b.ownedObjects) ∧
    ∃ r, ReflTransGen (fun x y => s.ownerOf x = some (.agent y)) d r ∧
      s.ownerOf r = some .agentRegister ∧ r ∈ s.untrackedAgents

theorem Inv.owner_exists {s : State} (hs : Inv s) {x c : AgentName}
    (h : s.ownerOf x = some (.agent c)) :
    ∃ b, s.objects c = some b ∧ .agent x ∈ b.ownedObjects := by
  have hmem := (hs.owned x c h).2.2
  cases hb : s.objects c with
  | none => simp [State.ownedBy, hb] at hmem
  | some b => exact ⟨b, rfl, by rwa [ownedBy_of hb] at hmem⟩

theorem Inv.chain {s : State} (hs : Inv s) {d : AgentName} (hd : s.ownerOf d ≠ none) :
    ∃ r, ReflTransGen (fun x y => s.ownerOf x = some (.agent y)) d r ∧
      s.ownerOf r = some .agentRegister := by
  refine exists_last (D := fun x => s.ownerOf x ≠ none) hs.clock (fun x hx => ?_) d hd
  cases ho : s.ownerOf x with
  | none => exact absurd ho hx
  | some w =>
    cases w with
    | agentRegister => exact Or.inl rfl
    | agent c =>
      obtain ⟨b, hb, -⟩ := hs.owner_exists ho
      have hc : s.ownerOf c = some b.owner := ownerOf_of hb
      refine Or.inr ⟨c, rfl, by simp [hc], ?_⟩
      cases hw : b.owner with
      | agentRegister => exact Or.inl (by rw [hc, hw])
      | agent e =>
        have hmarked := (hs.owned c e (by rw [hc, hw])).2.1
        exact Or.inr (hs.rank x c (Or.inl ho) (Or.inl hmarked))

theorem Inv.remembered {s : State} (hs : Inv s) : Remembered s := by
  intro d a ha _
  have ho := ownerOf_of ha
  have hne : s.ownerOf d ≠ none := by simp [ho]
  obtain ⟨r, hchain, hr⟩ := hs.chain hne
  refine ⟨(hs.listed d hne).1, ?_, r, hchain, hr, hs.free r hr⟩
  cases hw : a.owner with
  | agentRegister => exact Or.inl ⟨rfl, hs.free d (by rw [ho, hw])⟩
  | agent c =>
    rw [hw] at ho
    obtain ⟨b, hb, hmem⟩ := hs.owner_exists ho
    exact Or.inr ⟨c, b, rfl, (hs.owned d c ho).1, hb, hmem⟩

def start : State where
  agents := []
  untrackedAgents := []
  objects := fun _ => none
  lock := fun _ => none
  life := fun _ => .unborn
  cleanup := fun _ => .idle
  lockedAt := fun _ => 0
  clock := 0

theorem start_inv : Inv start where
  listed x hx := absurd rfl hx
  registered x hx := by cases hx
  free x hx := by cases hx
  owned x c hx := by cases hx
  cleanup c := trivial
  rank x y hxy := by
    cases hxy with
    | inl h => cases h
    | inr h => cases h
  clock x := Nat.le_refl 0

/-- Whatever collectors do and wherever they stop, no agent is forgotten, as long as each
makes itself the owner of an agent that it still lists and that was not passed over. -/
theorem remembered_of_proper (es : List Event) (hp : AllSteps step Proper start es) :
    AllStates step Remembered start es := by
  suffices h : ∀ s, Inv s → AllSteps step Proper s es → AllStates step Remembered s es from
    h start start_inv hp
  clear hp
  induction es with
  | nil => exact fun s hs _ => hs.remembered
  | cons e es ih => exact fun s hs hp => ⟨hs.remembered, ih _ (hs.step hp.1) hp.2⟩

def threeAgents : List Event :=
  [.registerSelf 1, .insertSelf 1, .registerSelf 2, .insertSelf 2, .registerSelf 3,
    .insertSelf 3, .own 1 0]

/-- Agent 2 collects 1 and dies, then 3 collects 2 and gives 1 back. -/
def chainOfCollectors : List Event :=
  threeAgents ++ [.crash 1, .addDead 2 1, .takeDead 2, .trackDead 2, .crash 2, .addDead 3 2,
    .takeDead 3, .trackDead 3, .fetchOwned 3 1, .commitGone 3, .commitSkipped 3,
    .untrackOther 3, .returnOther 3, .relinquishOther 3, .removeDead 3, .unregisterDead 3,
    .disownDead 3]

theorem chainOfCollectors_proper : AllSteps step Proper start chainOfCollectors := by
  decide

theorem remembered_of_proper_chainOfCollectors :
    AllSteps step Proper start chainOfCollectors ∧
      AllStates step Remembered start chainOfCollectors :=
  ⟨chainOfCollectors_proper, remembered_of_proper chainOfCollectors chainOfCollectors_proper⟩

/-- Agent 3 collects 2 while this one is about to take over 1: 3 has read that 1 belongs to
the register and drops it, then 2 makes itself the owner. -/
def lateCollector : List Event :=
  threeAgents ++ [.addDead 2 1, .addDead 3 2, .takeDead 3, .trackDead 3, .fetchOwned 3 1,
    .commitGone 3, .commitSkipped 3, .takeDead 2, .trackDead 2, .removeDead 3,
    .unregisterDead 3]

/-- Agent 1 belongs to an agent that is gone, and nobody looks at it. -/
theorem lateCollector_forgets :
    ((lateCollector.foldl step start).objects 1 = some ⟨.agent 2, [.other 0], true⟩ ∧
      (lateCollector.foldl step start).objects 2 = none ∧
      (lateCollector.foldl step start).untrackedAgents = [3]) ∧
      ¬ AllStates step Remembered start lateCollector := by
  have hone : (lateCollector.foldl step start).objects 1 =
      some ⟨.agent 2, [.other 0], true⟩ := by decide
  have htwo : (lateCollector.foldl step start).objects 2 = none := by decide
  refine ⟨⟨hone, htwo, by decide⟩, fun h => ?_⟩
  cases (h.last 1 _ hone (by decide)).2.1 with
  | inl hregister => cases hregister.1
  | inr hagent =>
    obtain ⟨c, b, hc, -, hb, -⟩ := hagent
    cases hc
    rw [htwo] at hb
    cases hb

end Cta.ObjectStore.CleanupDeadAgent

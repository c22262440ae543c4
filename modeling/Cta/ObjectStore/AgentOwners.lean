import Cta.ObjectStore.CleanupDeadAgent
import Cta.Lib.Chains

/-! Who owns the agents and what they list, as they come and go and are cleaned up. -/
namespace Cta.ObjectStore.CleanupDeadAgent
open Cta.Lib.Runs Cta.Lib.Chains Relation

def State.ownerOf (s : State) (x : AgentName) : Option AgentOwner :=
  (s.objects x).map Agent.owner

def State.ownedBy (s : State) (x : AgentName) : List Owned :=
  ((s.objects x).map Agent.ownedObjects).getD []

def State.marked (s : State) (x : AgentName) : Bool :=
  ((s.objects x).map Agent.beingGarbageCollected).getD false

def State.Past (s : State) (x : AgentName) : Prop :=
  s.life x ≠ .unborn ∧ s.life x ≠ .registered

/-- Agents that a collector read, and does not take for owned by the dead one. -/
def Cleanup.passedOver : Cleanup → List AgentName
  | .fetching _ _ gone skipped _ => gone ++ skipped
  | .sorting _ skipped _ => skipped
  | _ => []

/-- Whoever collects this collector has not passed over the agent that it is about to take. -/
def State.Unread (s : State) (c d : AgentName) : Prop :=
  ∀ h ∈ s.lock c, d ∉ (s.cleanup h).passedOver

instance (s : State) (c d : AgentName) : Decidable (s.Unread c d) :=
  inferInstanceAs (Decidable (∀ h ∈ s.lock c, _))

def State.Mine (s : State) (c d : AgentName) : Prop :=
  c ≠ d ∧ s.lock d = some c ∧ s.ownerOf d = some (.agent c)

def CleanupOk (s : State) (c : AgentName) : Cleanup → Prop
  | .idle => True
  | .added d => c ≠ d ∧ s.lock d = some c ∧ s.ownerOf d = some .agentRegister
  | .taken d => s.Mine c d
  | .fetching d _ gone skipped _ =>
    s.Mine c d ∧ ∀ e ∈ gone ++ skipped, s.ownerOf e ≠ some (.agent d)
  | .sorting d skipped _ => s.Mine c d ∧ ∀ e ∈ skipped, s.ownerOf e ≠ some (.agent d)
  | .updating d _ => s.Mine c d
  | .untracked d e _ => s.Mine c d ∧ s.lock e = some c ∧ s.ownerOf e = some (.agent d) ∧
      e ∈ s.untrackedAgents
  | .relinquishing d e _ =>
    s.Mine c d ∧ s.ownerOf e ≠ some (.agent d) ∧ s.cleanup d ≠ .added e
  | .unregistering d => s.ownerOf d = none ∧ s.Past d
  | .disowning d => s.ownerOf d = none ∧ s.Past d

/-- The agent belongs to a collector, or is about to. -/
def State.GoesTo (s : State) (x y : AgentName) : Prop :=
  s.ownerOf x = some (.agent y) ∨ s.cleanup y = .added x

/-- The agent can add nothing to its ownership list. -/
def State.Stopped (s : State) (y : AgentName) : Prop :=
  s.marked y = true ∨ s.lock y ≠ none

structure Inv (s : State) : Prop where
  listed : ∀ x, s.ownerOf x ≠ none → x ∈ s.agents ∧ s.Past x ∧ s.life x ≠ .removed
  registered : ∀ x, s.life x = .registered → x ∈ s.agents ∧ x ∈ s.untrackedAgents
  free : ∀ x, s.ownerOf x = some .agentRegister → x ∈ s.untrackedAgents
  owned : ∀ x c, s.ownerOf x = some (.agent c) →
    c ≠ x ∧ s.marked x = true ∧ .agent x ∈ s.ownedBy c
  cleanup : ∀ c, CleanupOk s c (s.cleanup c)
  rank : ∀ x y, s.GoesTo x y → s.Stopped y → s.lockedAt x < s.lockedAt y
  clock : ∀ x, s.lockedAt x ≤ s.clock

def State.Claimed (s : State) (x : AgentName) : Prop :=
  s.ownerOf x ≠ none ∧ ∃ c, s.lock x = some c ∧ s.cleanup c ≠ .idle

/-- What a change of the state leaves to the collectors: the locks and objects they claim,
and that an agent passed over does not become the dead one's. -/
structure Frame (s t : State) : Prop where
  cleanup : t.cleanup = s.cleanup
  claimed : ∀ x c, s.ownerOf x ≠ none → s.lock x = some c → s.cleanup c ≠ .idle →
    t.lock x = some c ∧ t.ownerOf x = s.ownerOf x ∧
      (x ∈ s.untrackedAgents → x ∈ t.untrackedAgents)
  taken : ∀ x d, t.ownerOf x = some (.agent d) → s.ownerOf x = some (.agent d) ∨
    (s.Unread d x ∧ ∀ c others, s.cleanup c ≠ .relinquishing d x others)
  gone : ∀ x, s.Past x → t.Past x ∧ (s.ownerOf x = none → t.ownerOf x = none)

theorem CleanupOk.of_frame {s t : State} {c : AgentName} (hf : Frame s t)
    (h : CleanupOk s c (s.cleanup c)) : CleanupOk t c (t.cleanup c) := by
  rw [hf.cleanup]
  have hclaimed {x : AgentName} {w : AgentOwner} (hl : s.lock x = some c)
      (hk : s.cleanup c ≠ .idle) (hw : s.ownerOf x = some w) :
      t.lock x = some c ∧ t.ownerOf x = some w := by
    obtain ⟨hl', ho', -⟩ := hf.claimed x c (by simp [hw]) hl hk
    exact ⟨hl', ho'.trans hw⟩
  have hmine {d : AgentName} (hm : s.Mine c d) (hk : s.cleanup c ≠ .idle) : t.Mine c d :=
    ⟨hm.1, hclaimed hm.2.1 hk hm.2.2⟩
  have hpassed {d e : AgentName} (hd : s.lock d = some c) (ho : s.ownerOf e ≠ some (.agent d))
      (hp : e ∈ (s.cleanup c).passedOver ∨ ∃ others, s.cleanup c = .relinquishing d e others) :
      t.ownerOf e ≠ some (.agent d) := by
    intro hd'
    cases hf.taken e d hd' with
    | inl h => exact ho h
    | inr h =>
      cases hp with
      | inl hp => exact h.1 c hd hp
      | inr hp =>
        obtain ⟨others, hp⟩ := hp
        exact h.2 c others hp
  cases hk : s.cleanup c with
  | idle => trivial
  | added d =>
    rw [hk] at h
    exact ⟨h.1, hclaimed h.2.1 (by simp [hk]) h.2.2⟩
  | taken d =>
    rw [hk] at h
    exact hmine h (by simp [hk])
  | fetching d toRead gone skipped others =>
    rw [hk] at h
    refine ⟨hmine h.1 (by simp [hk]), fun e he => hpassed h.1.2.1 (h.2 e he) (Or.inl ?_)⟩
    simpa [hk, Cleanup.passedOver] using he
  | sorting d skipped others =>
    rw [hk] at h
    refine ⟨hmine h.1 (by simp [hk]), fun e he => hpassed h.1.2.1 (h.2 e he) (Or.inl ?_)⟩
    simpa [hk, Cleanup.passedOver] using he
  | updating d others =>
    rw [hk] at h
    exact hmine h (by simp [hk])
  | untracked d e others =>
    rw [hk] at h
    obtain ⟨hm, hl, ho, hu⟩ := h
    obtain ⟨hl', ho', hu'⟩ := hf.claimed e c (by simp [ho]) hl (by simp [hk])
    exact ⟨hmine hm (by simp [hk]), hl', ho'.trans ho, hu' hu⟩
  | relinquishing d e others =>
    rw [hk] at h
    exact ⟨hmine h.1 (by simp [hk]), hpassed h.1.2.1 h.2.1 (Or.inr ⟨others, hk⟩),
      hf.cleanup ▸ h.2.2⟩
  | unregistering d =>
    rw [hk] at h
    exact ⟨(hf.gone d h.2).2 h.1, (hf.gone d h.2).1⟩
  | disowning d =>
    rw [hk] at h
    exact ⟨(hf.gone d h.2).2 h.1, (hf.gone d h.2).1⟩

theorem Inv.setCleanup {s : State} (hs : Inv s) {c : AgentName} {k : Cleanup}
    (hk : ∀ x, k ≠ .added x) (hok : CleanupOk (s.setCleanup c k) c k) :
    Inv (s.setCleanup c k) where
  listed := hs.listed
  registered := hs.registered
  free := hs.free
  owned := hs.owned
  cleanup b := by
    by_cases hb : b = c
    · subst hb
      simpa [State.setCleanup] using hok
    · have hsb := hs.cleanup b
      simp only [State.setCleanup, Function.update_of_ne hb]
      cases hbk : s.cleanup b with
      | relinquishing d e others =>
        rw [hbk] at hsb
        refine ⟨hsb.1, hsb.2.1, ?_⟩
        by_cases hd : d = c
        · simp [hd, hk e]
        · simpa [hd] using hsb.2.2
      | _ =>
        rw [hbk] at hsb
        exact hsb
  rank x y h hy := by
    refine hs.rank x y ?_ hy
    by_cases hyc : y = c
    · subst hyc
      exact h.imp_right fun h => absurd (by simpa [State.setCleanup] using h) (hk x)
    · exact h.imp_right fun h => by simpa [State.setCleanup, hyc] using h
  clock := hs.clock

theorem Inv.idle {s : State} (hs : Inv s) (c : AgentName) : Inv (s.setCleanup c .idle) :=
  hs.setCleanup (fun x => by simp) trivial

theorem Inv.setOwned {s : State} (hs : Inv s) {n : AgentName} {a : Agent} {owned : List Owned}
    (ha : s.objects n = some a)
    (howned : ∀ x, s.ownerOf x = some (.agent n) → .agent x ∈ owned) :
    Inv (s.setObject n (some { a with ownedObjects := owned })) := by
  have howner : (s.setObject n (some { a with ownedObjects := owned })).ownerOf = s.ownerOf := by
    funext x
    by_cases hx : x = n
    · simp [State.ownerOf, State.setObject, hx, ha]
    · simp [State.ownerOf, State.setObject, hx]
  have hmarked : (s.setObject n (some { a with ownedObjects := owned })).marked = s.marked := by
    funext x
    by_cases hx : x = n
    · simp [State.marked, State.setObject, hx, ha]
    · simp [State.marked, State.setObject, hx]
  refine ⟨?_, hs.registered, ?_, ?_, ?_, ?_, hs.clock⟩
  · rw [howner]
    exact hs.listed
  · rw [howner]
    exact hs.free
  · rw [howner, hmarked]
    intro x c ho
    refine ⟨(hs.owned x c ho).1, (hs.owned x c ho).2.1, ?_⟩
    by_cases hc : c = n
    · subst hc
      simpa [State.ownedBy, State.setObject] using howned x ho
    · simpa [State.ownedBy, State.setObject, hc] using (hs.owned x c ho).2.2
  · refine fun c => CleanupOk.of_frame (s := s) ⟨rfl, fun x c _ hl _ => ⟨hl, ?_, id⟩,
      fun x d h => ?_, fun x hx => ⟨hx, fun h => ?_⟩⟩ (hs.cleanup c)
    · rw [howner]
    · exact Or.inl (howner ▸ h)
    · rw [howner]
      exact h
  · simp only [State.GoesTo, State.Stopped, howner, hmarked]
    exact hs.rank

theorem Inv.filterOwned {s : State} (hs : Inv s) {n : AgentName} (gone : List Owned)
    (hgone : ∀ x, .agent x ∈ gone → s.ownerOf x ≠ some (.agent n)) :
    Inv (s.setObject n ((s.objects n).map fun a => a.removeFromOwnership gone)) := by
  cases ha : s.objects n with
  | none =>
    have hsame : s.setObject n none = s := by
      simp [State.setObject, ← ha]
    exact hsame.symm ▸ hs
  | some a =>
    refine hs.setOwned ha fun x hx => ?_
    have hmem := (hs.owned x n hx).2.2
    simp only [State.ownedBy, ha, Option.map_some, Option.getD_some] at hmem
    exact List.mem_filter.mpr ⟨hmem, by simpa using fun h => hgone x h hx⟩

/-- Agents are added to the register or leave the list of the untracked ones, and processes
go on. -/
theorem Inv.of_register {s t : State} (hs : Inv s) (hobjects : t.objects = s.objects)
    (hlock : t.lock = s.lock) (hcleanup : t.cleanup = s.cleanup)
    (hat : t.lockedAt = s.lockedAt) (hclock : t.clock = s.clock)
    (hagents : ∀ x, s.ownerOf x ≠ none → x ∈ t.agents)
    (huntracked : ∀ x, s.ownerOf x = some .agentRegister ∨ s.Claimed x →
      x ∈ s.untrackedAgents → x ∈ t.untrackedAgents)
    (hregistered : ∀ x, t.life x = .registered → x ∈ t.agents ∧ x ∈ t.untrackedAgents)
    (hpast : ∀ x, s.Past x → t.Past x)
    (hremoved : ∀ x, t.life x = .removed → s.ownerOf x = none) : Inv t := by
  have howner : t.ownerOf = s.ownerOf := by
    funext x
    simp [State.ownerOf, hobjects]
  have hmarked : t.marked = s.marked := by
    funext x
    simp [State.marked, hobjects]
  have hownedBy : t.ownedBy = s.ownedBy := by
    funext x
    simp [State.ownedBy, hobjects]
  refine ⟨?_, hregistered, ?_, ?_, ?_, ?_, ?_⟩
  · rw [howner]
    exact fun x hx => ⟨hagents x hx, hpast x (hs.listed x hx).2.1, fun h => hx (hremoved x h)⟩
  · rw [howner]
    exact fun x hx => huntracked x (Or.inl hx) (hs.free x hx)
  · rw [howner, hmarked, hownedBy]
    exact hs.owned
  · refine fun c => CleanupOk.of_frame (s := s) ⟨hcleanup, fun x c ho hl hk => ⟨?_, ?_, ?_⟩,
      fun x d h => ?_, fun x hx => ⟨hpast x hx, fun h => ?_⟩⟩ (hs.cleanup c)
    · rw [hlock]
      exact hl
    · rw [howner]
    · exact huntracked x (Or.inr ⟨ho, c, hl, hk⟩)
    · exact Or.inl (howner ▸ h)
    · rw [howner]
      exact h
  · simp only [State.GoesTo, State.Stopped, howner, hmarked, hlock, hcleanup, hat]
    exact hs.rank
  · rw [hat, hclock]
    exact hs.clock

@[simp] theorem ownerOf_setObject (s : State) (n x : AgentName) (o : Option Agent) :
    (s.setObject n o).ownerOf x = if x = n then o.map Agent.owner else s.ownerOf x := by
  by_cases hx : x = n <;> simp [State.ownerOf, State.setObject, hx]

@[simp] theorem ownedBy_setObject (s : State) (n x : AgentName) (o : Option Agent) :
    (s.setObject n o).ownedBy x =
      if x = n then (o.map Agent.ownedObjects).getD [] else s.ownedBy x := by
  by_cases hx : x = n <;> simp [State.ownedBy, State.setObject, hx]

@[simp] theorem marked_setObject (s : State) (n x : AgentName) (o : Option Agent) :
    (s.setObject n o).marked x =
      if x = n then (o.map Agent.beingGarbageCollected).getD false else s.marked x := by
  by_cases hx : x = n <;> simp [State.marked, State.setObject, hx]

theorem ownerOf_of {s : State} {n : AgentName} {a : Agent} (ha : s.objects n = some a) :
    s.ownerOf n = some a.owner := by
  simp [State.ownerOf, ha]

theorem ownedBy_of {s : State} {n : AgentName} {a : Agent} (ha : s.objects n = some a) :
    s.ownedBy n = a.ownedObjects := by
  simp [State.ownedBy, ha]

theorem marked_of {s : State} {n : AgentName} {a : Agent} (ha : s.objects n = some a) :
    s.marked n = a.beingGarbageCollected := by
  simp [State.marked, ha]

/-- Collectors notice a change of an object only if they claim it, or passed it over. -/
theorem Frame.setObject {s : State} {n : AgentName} {o : Option Agent}
    (hfree : ¬ s.Claimed n) (hgone : s.Past n → s.ownerOf n = none → o = none)
    (hnew : ∀ d, o.map Agent.owner = some (.agent d) → s.ownerOf n = some (.agent d) ∨
      (s.Unread d n ∧ ∀ c others, s.cleanup c ≠ .relinquishing d n others)) :
    Frame s (s.setObject n o) where
  cleanup := rfl
  claimed x c ho hl hk := by
    have hx : x ≠ n := by
      rintro rfl
      exact hfree ⟨ho, c, hl, hk⟩
    exact ⟨hl, by simp [hx], id⟩
  taken x d hd := by
    by_cases hx : x = n
    · subst hx
      exact hnew d (by simpa using hd)
    · exact Or.inl (by simpa [hx] using hd)
  gone x hx := by
    refine ⟨hx, fun ho => ?_⟩
    by_cases h : x = n
    · subst h
      simp [hgone hx ho]
    · simpa [h] using ho

/-- An object that no agent owns, and that is not newly marked, leaves the locks in order. -/
theorem Inv.rank_setObject {s : State} (hs : Inv s) {n : AgentName} {o : Option Agent}
    (howner : ∀ c, o.map Agent.owner ≠ some (.agent c))
    (hmarked : (o.map Agent.beingGarbageCollected).getD false = true → s.marked n = true)
    {x y : AgentName} (hxy : (s.setObject n o).GoesTo x y) (hy : (s.setObject n o).Stopped y) :
    s.lockedAt x < s.lockedAt y := by
  refine hs.rank x y (hxy.imp_left fun ho => ?_) (hy.imp_left fun hm => ?_)
  · rw [ownerOf_setObject] at ho
    split at ho
    · exact absurd ho (howner y)
    · exact ho
  · rw [marked_setObject] at hm
    split at hm
    · next hyn => exact hyn ▸ hmarked hm
    · exact hm

theorem Inv.removeObject {s : State} (hs : Inv s) {n : AgentName} (hfree : ¬ s.Claimed n)
    (hempty : s.ownedBy n = []) : Inv (s.setObject n none) where
  listed x hx := by
    by_cases h : x = n
    · simp [h] at hx
    · exact hs.listed x (by simpa [h] using hx)
  registered := hs.registered
  free x hx := by
    by_cases h : x = n
    · simp [h] at hx
    · exact hs.free x (by simpa [h] using hx)
  owned x c hx := by
    by_cases h : x = n
    · simp [h] at hx
    · have ho := hs.owned x c (by simpa [h] using hx)
      have hc : c ≠ n := by
        rintro rfl
        simp [hempty] at ho
      simpa [h, hc] using ho
  cleanup c := (hs.cleanup c).of_frame (Frame.setObject hfree (fun _ _ => rfl) (by simp))
  rank _ _ hxy hy := hs.rank_setObject (by simp) (by simp) hxy hy
  clock := hs.clock

theorem Inv.returnObject {s : State} (hs : Inv s) {n : AgentName} {a : Agent}
    (ha : s.objects n = some a) (hfree : ¬ s.Claimed n) (hu : n ∈ s.untrackedAgents) :
    Inv (s.setObject n (some { a with owner := .agentRegister })) where
  listed x hx := by
    by_cases h : x = n
    · subst h
      exact hs.listed x (by simp [ownerOf_of ha])
    · exact hs.listed x (by simpa [h] using hx)
  registered := hs.registered
  free x hx := by
    by_cases h : x = n
    · exact h ▸ hu
    · exact hs.free x (by simpa [h] using hx)
  owned x c hx := by
    by_cases h : x = n
    · simp [h] at hx
    · have ho := hs.owned x c (by simpa [h] using hx)
      by_cases hc : c = n
      · subst hc
        simpa [h, ownedBy_of ha] using ho
      · simpa [h, hc] using ho
  cleanup c := by
    refine (hs.cleanup c).of_frame (Frame.setObject hfree (fun _ hn => ?_) (by simp))
    simp [ownerOf_of ha] at hn
  rank _ _ hxy hy := hs.rank_setObject (by simp) (by simp [marked_of ha]) hxy hy
  clock := hs.clock

theorem Inv.ownerOf_none {s : State} (hs : Inv s) {n : AgentName} (hn : ¬ s.Past n) :
    s.ownerOf n = none := by
  by_contra h
  exact hn (hs.listed n h).2.1

theorem Inv.insertSelf {s t : State} (hs : Inv s) {n : AgentName} (h : s.insertSelf n = some t) :
    Inv t := by
  unfold State.insertSelf at h
  split at h
  · next hl =>
    cases h
    have hpast : ¬ s.Past n := fun h => h.2 hl
    have hnone := hs.ownerOf_none hpast
    have hnew : ∀ x c, (s.setObject n (some ⟨.agentRegister, [], false⟩)).ownerOf x =
        some (.agent c) → x ≠ n ∧ s.ownerOf x = some (.agent c) := by
      intro x c hx
      by_cases hxn : x = n
      · simp [hxn] at hx
      · exact ⟨hxn, by simpa [hxn] using hx⟩
    refine ⟨fun x hx => ?_, fun x hx => ?_, fun x hx => ?_, fun x c hx => ?_, fun c => ?_,
      fun x y hxy hy => ?_, hs.clock⟩
    · by_cases hxn : x = n
      · subst hxn
        exact ⟨(hs.registered x hl).1, by simp [State.Past], by simp⟩
      · have hold := hs.listed x (by simpa [State.ownerOf, State.setObject, hxn] using hx)
        simpa [State.Past, State.setObject, hxn] using hold
    · by_cases hxn : x = n
      · simp [hxn] at hx
      · exact hs.registered x (by simpa [hxn] using hx)
    · by_cases hxn : x = n
      · exact hxn ▸ (hs.registered n hl).2
      · exact hs.free x (by simpa [State.ownerOf, State.setObject, hxn] using hx)
    · obtain ⟨hxn, ho⟩ := hnew x c hx
      obtain ⟨hcx, hm, hmem⟩ := hs.owned x c ho
      have hcn : c ≠ n := by
        rintro rfl
        simp [State.ownedBy, Option.map_eq_none_iff.mp hnone] at hmem
      exact ⟨hcx, by simpa [State.marked, State.setObject, hxn] using hm,
        by simpa [State.ownedBy, State.setObject, hcn] using hmem⟩
    · have hf : Frame s (s.setObject n (some ⟨.agentRegister, [], false⟩)) :=
        Frame.setObject (fun h => h.1 hnone) (fun h => absurd h hpast) (by simp)
      refine CleanupOk.of_frame (s := s) ⟨rfl, hf.claimed, hf.taken,
        fun x hx => ⟨?_, (hf.gone x hx).2⟩⟩ (hs.cleanup c)
      by_cases hxn : x = n
      · exact absurd (hxn ▸ hx) hpast
      · simpa [State.Past, hxn] using hx
    · exact hs.rank_setObject (by simp) (by simp) hxy hy
  · cases h

theorem Inv.takeObject {s : State} (hs : Inv s) {n c : AgentName} {a : Agent}
    (ha : s.objects n = some a) (hcn : c ≠ n) (hfree : ¬ s.Claimed n)
    (hlists : .agent n ∈ s.ownedBy c)
    (hunread : s.Unread c n) (hrel : ∀ b others, s.cleanup b ≠ .relinquishing c n others)
    (hbelow : ∀ x, s.GoesTo x n → s.lockedAt x < s.lockedAt n)
    (habove : s.Stopped c → s.lockedAt n < s.lockedAt c) :
    Inv (s.setObject n (some { a with owner := .agent c, beingGarbageCollected := true })) where
  listed x hx := by
    by_cases h : x = n
    · subst h
      exact hs.listed x (by simp [ownerOf_of ha])
    · exact hs.listed x (by simpa [h] using hx)
  registered := hs.registered
  free x hx := by
    by_cases h : x = n
    · simp [h] at hx
    · exact hs.free x (by simpa [h] using hx)
  owned x d hx := by
    by_cases h : x = n
    · subst h
      have hdc : c = d := by simpa using hx
      subst hdc
      simpa [hcn] using hlists
    · have ho := hs.owned x d (by simpa [h] using hx)
      by_cases hd : d = n
      · subst hd
        simpa [h, ownedBy_of ha] using ho
      · simpa [h, hd] using ho
  cleanup b := by
    refine (hs.cleanup b).of_frame (Frame.setObject hfree (fun _ hn => ?_) fun d hd => Or.inr ?_)
    · simp [ownerOf_of ha] at hn
    · have hdc : c = d := by simpa using hd
      exact hdc ▸ ⟨hunread, hrel⟩
  rank x y hxy hy := by
    have hgoes : s.GoesTo x y ∨ (x = n ∧ y = c) := by
      by_cases h : x = n
      · subst h
        cases hxy with
        | inl ho => exact Or.inr ⟨rfl, by simpa using ho.symm⟩
        | inr hadded => exact Or.inl (Or.inr hadded)
      · exact Or.inl (hxy.imp_left fun ho => by simpa [h] using ho)
    have hstopped : y ≠ n → s.Stopped y := fun h =>
      hy.imp_left fun hm => by simpa [h] using hm
    cases hgoes with
    | inl hgoes =>
      by_cases hyn : y = n
      · exact hyn ▸ hbelow x (hyn ▸ hgoes)
      · exact hs.rank x y hgoes (hstopped hyn)
    | inr hnc =>
      obtain ⟨rfl, rfl⟩ := hnc
      exact habove (hstopped hcn)
  clock := hs.clock

theorem Inv.setLocks {s : State} (hs : Inv s) {lock : AgentName → Option AgentName}
    (hclaimed : ∀ x c, s.ownerOf x ≠ none → s.lock x = some c → s.cleanup c ≠ .idle →
      lock x = some c)
    (hstopped : ∀ x, lock x ≠ none → s.Stopped x) : Inv { s with lock } where
  listed := hs.listed
  registered := hs.registered
  free := hs.free
  owned := hs.owned
  cleanup c := CleanupOk.of_frame (s := s)
    ⟨rfl, fun x c ho hl hk => ⟨hclaimed x c ho hl hk, rfl, id⟩, fun _ _ h => Or.inl h,
      fun _ h => ⟨h, id⟩⟩ (hs.cleanup c)
  rank x y hxy hy := by
    refine hs.rank x y hxy ?_
    cases hy with
    | inl hm => exact Or.inl hm
    | inr hl => exact hstopped y hl
  clock := hs.clock

theorem Inv.unlock {s : State} (hs : Inv s) {n : AgentName} (hfree : ¬ s.Claimed n) :
    Inv (s.setLock n none) := by
  refine hs.setLocks (fun x c ho hl hk => ?_) fun x hx => Or.inr ?_
  · have hx : x ≠ n := by
      rintro rfl
      exact hfree ⟨ho, c, hl, hk⟩
    simpa [hx] using hl
  · by_cases h : x = n
    · simp [h] at hx
    · simpa [h] using hx

theorem Inv.lockMarked {s : State} (hs : Inv s) {n c : AgentName} (hl : s.lock n = none)
    (hm : s.marked n = true) : Inv (s.setLock n (some c)) := by
  refine hs.setLocks (fun x b ho hb hk => ?_) fun x hx => ?_
  · have hx : x ≠ n := by
      rintro rfl
      simp [hl] at hb
    simpa [hx] using hb
  · by_cases h : x = n
    · exact Or.inl (h ▸ hm)
    · exact Or.inr (by simpa [h] using hx)

theorem Inv.releaseAll {s : State} (hs : Inv s) {c : AgentName} (hc : s.cleanup c = .idle) :
    Inv (s.releaseAll c) := by
  refine hs.setLocks (fun x b _ hb hk => ?_) fun x hx => Or.inr fun h => hx ?_
  · have hbc : b ≠ c := by
      rintro rfl
      exact hk hc
    simp [hb, hbc]
  · simp [h]

theorem Inv.registerSelf {s t : State} (hs : Inv s) {n : AgentName}
    (h : s.registerSelf n = some t) : Inv t := by
  unfold State.registerSelf at h
  split at h
  · next hl =>
    cases h
    refine hs.of_register rfl rfl rfl rfl rfl (fun x hx => ?_) (fun x _ hu => ?_)
      (fun x hx => ?_) (fun x hx => ?_) fun x hx => ?_
    · exact List.mem_cons_of_mem n (hs.listed x hx).1
    · exact List.mem_cons_of_mem n hu
    · by_cases hxn : x = n
      · simp [hxn]
      · have hold := hs.registered x (by simpa [hxn] using hx)
        exact ⟨List.mem_cons_of_mem n hold.1, List.mem_cons_of_mem n hold.2⟩
    · have hxn : x ≠ n := by
        rintro rfl
        exact hx.1 hl
      simpa [State.Past, hxn] using hx
    · have hxn : x ≠ n := by
        rintro rfl
        simp at hx
      by_contra ho
      exact (hs.listed x ho).2.2 (by simpa [hxn] using hx)
  · cases h

theorem Inv.removeAgent {s : State} (hs : Inv s) {n : AgentName} (ho : s.ownerOf n = none)
    (hl : s.life n ≠ .registered) : Inv (s.removeAgent n) := by
  have hne {x : AgentName} (hx : s.ownerOf x ≠ none) : x ≠ n := by
    rintro rfl
    exact hx ho
  refine hs.of_register rfl rfl rfl rfl rfl (fun x hx => ?_) (fun x hx hu => ?_)
    (fun x hx => ?_) (fun x hx => hx) fun x hx => ?_
  · exact List.mem_filter.mpr ⟨(hs.listed x hx).1, by simpa using hne hx⟩
  · have hx' : s.ownerOf x ≠ none := by
      cases hx with
      | inl hx => simp [hx]
      | inr hx => exact hx.1
    exact List.mem_filter.mpr ⟨hu, by simpa using hne hx'⟩
  · have hxn : x ≠ n := by
      rintro rfl
      exact hl hx
    have hold := hs.registered x hx
    exact ⟨List.mem_filter.mpr ⟨hold.1, by simpa using hxn⟩,
      List.mem_filter.mpr ⟨hold.2, by simpa using hxn⟩⟩
  · by_contra ho
    exact (hs.listed x ho).2.2 hx

theorem Inv.setLife {s : State} (hs : Inv s) {n : AgentName} {l : Life} (hu : l ≠ .unborn)
    (hr : l ≠ .registered) (hremoved : l = .removed → s.ownerOf n = none) :
    Inv { s with life := Function.update s.life n l } := by
  refine hs.of_register rfl rfl rfl rfl rfl (fun x hx => (hs.listed x hx).1) (fun x _ h => h)
    (fun x hx => ?_) (fun x hx => ?_) fun x hx => ?_
  · by_cases hxn : x = n
    · subst hxn
      exact absurd (by simpa using hx) hr
    · exact hs.registered x (by simpa [hxn] using hx)
  · by_cases hxn : x = n
    · subst hxn
      simp [State.Past, hu, hr]
    · simpa [State.Past, hxn] using hx
  · by_cases hxn : x = n
    · subst hxn
      exact hremoved (by simpa using hx)
    · by_contra ho
      exact (hs.listed x ho).2.2 (by simpa [hxn] using hx)

theorem not_claimed_of_unlocked {s : State} {n : AgentName} (h : s.lock n = none) :
    ¬ s.Claimed n := by
  rintro ⟨-, c, hc, -⟩
  simp [h] at hc

theorem Inv.removeSelf {s t : State} (hs : Inv s) {n : AgentName}
    (h : s.removeSelf n = some t) : Inv t := by
  unfold State.removeSelf at h
  split at h
  · next a ha =>
    split at h
    · next hg =>
      cases h
      have hgone : Inv (s.setObject n none) :=
        hs.removeObject (not_claimed_of_unlocked hg.2.1) (by rw [ownedBy_of ha, hg.2.2.2])
      exact hgone.setLife (by simp) (by simp) (by simp)
    · cases h
  · cases h

theorem Inv.unregisterSelf {s t : State} (hs : Inv s) {n : AgentName}
    (h : s.unregisterSelf n = some t) : Inv t := by
  unfold State.unregisterSelf at h
  split at h
  · next hl =>
    cases h
    have ho : s.ownerOf n = none := by
      by_contra ho
      exact (hs.listed n ho).2.2 hl
    exact (hs.removeAgent ho (by simp [hl])).setLife (by simp) (by simp) (by simp)
  · cases h

theorem queueAndExecuteAction_some {s t : State} {n : AgentName} {f : List Owned → List Owned}
    (h : s.queueAndExecuteAction n f = some t) :
    ∃ a, s.objects n = some a ∧ s.lock n = none ∧ a.beingGarbageCollected = false ∧
      t = s.setObject n (some { a with ownedObjects := f a.ownedObjects }) := by
  unfold State.queueAndExecuteAction at h
  split at h
  · next a ha =>
    split at h
    · next hg =>
      cases h
      exact ⟨a, ha, hg.2.1, hg.2.2, rfl⟩
    · cases h
  · cases h

theorem Inv.action {s t : State} (hs : Inv s) {n : AgentName} {f : List Owned → List Owned}
    (h : s.queueAndExecuteAction n f = some t)
    (hf : ∀ x, s.ownerOf x = some (.agent n) → .agent x ∈ s.ownedBy n → .agent x ∈ f (s.ownedBy n)) :
    Inv t := by
  obtain ⟨a, ha, -, -, rfl⟩ := queueAndExecuteAction_some h
  rw [ownedBy_of ha] at hf
  refine hs.setOwned ha fun x hx => hf x hx ?_
  rw [← ownedBy_of ha]
  exact (hs.owned x n hx).2.2

theorem mem_addOwned {x y : Owned} {owned : List Owned} (h : y ∈ owned) :
    y ∈ addOwned x owned := by
  unfold addOwned
  split
  · exact h
  · exact List.mem_cons_of_mem x h

theorem mem_removeOwned {x y : Owned} {owned : List Owned} (h : y ∈ owned) (hne : y ≠ x) :
    y ∈ removeOwned x owned :=
  List.mem_filter.mpr ⟨h, by simpa using hne⟩

end Cta.ObjectStore.CleanupDeadAgent

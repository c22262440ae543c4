import Cta.ObjectStore.ObjectOps
import Cta.Lib.Runs

/-! Stored objects are read and changed under a lock of the backend. -/
namespace Cta.ObjectStore.ObjectOps
open Cta.Lib Cta.Lib.Runs

inductive Call where
  | lock (l : LockRef) (r : ObjectRef) (granted : Bool)
  | includeSubObject (l : LockRef) (r : ObjectRef)
  | transfer (n : Nat) (newObject : ObjectRef)
  | release (l : LockRef)
  | destroy (l : LockRef)
  | fetch (r : ObjectRef) (p : Parsed)
  | fetchNoLock (r : ObjectRef) (p : Parsed)
  | commit (r : ObjectRef)
  | remove (r : ObjectRef)
  | setAddress (r : ObjectRef) (name : Address)
  | resetAddress (r : ObjectRef)
  | initializeObject (r : ObjectRef)
  | insert (r : ObjectRef)
  | transplantHeader (g : Nat) (destination : ObjectRef)
  deriving DecidableEq, Repr

def call (s : State) : Call → Result
  | .lock l r granted => lock l r granted s
  | .includeSubObject l r => includeSubObject l r s
  | .transfer n r => transfer n r s
  | .release l => release l s
  | .destroy l => destroy l s
  | .fetch r p => fetch r p s
  | .fetchNoLock r p => fetchNoLock r p s
  | .commit r => commit r s
  | .remove r => remove r s
  | .setAddress r name => setAddress r name s
  | .resetAddress r => resetAddress r s
  | .initializeObject r => initializeObject r s
  | .insert r => insert r s
  | .transplantHeader g r => transplantHeader g r s

def step (s : State) (c : Call) : State := (call s c).state

structure Constructed (s : State) : Prop where
  objects : ∀ r, s.objects r = {}
  locks : ∀ l, s.locks l = {}
  given : s.given = []

/-- A lock of the backend is held on the object, or on the one that includes it as
sub-object. -/
def Held (exclusively : Bool) (s : State) (r : ObjectRef) : Prop :=
  ∃ l a, (s.locks l).backendLock = some a ∧ (exclusively → l.isExclusive) ∧
    ((s.objects r).address = some a ∨ (l, r) ∈ s.given ∧ r ∈ (s.locks l).subObjectsOps)

/-- On a stored object, the call has the lock or throws before it comes to the store. -/
def GuardedOn (exclusively : Bool) (s : State) (c : Call) (r : ObjectRef) : Prop :=
  ∀ a, (s.objects r).address = some a → s.store a = true →
    Held exclusively s r ∨ ((call s c).error.isSome ∧ (call s c).touched = none)

def Guarded (s : State) (c : Call) : Prop :=
  match c with
  | .fetch r _ => GuardedOn false s c r
  | .commit r => GuardedOn true s c r
  | .remove r => GuardedOn true s c r
  | _ => True

/-- The counters are never negative, and zero when every lock given is released. -/
def Counted (s : State) : Prop :=
  ∀ r, 0 ≤ (s.objects r).locksCount ∧ 0 ≤ (s.objects r).locksForWriteCount ∧
    ((∀ e ∈ s.given, e.2 ≠ r) →
      (s.objects r).locksCount = 0 ∧ (s.objects r).locksForWriteCount = 0)

def Intact (l : LockRef) (s : State) : Prop :=
  (s.locks l).locked → Ledger.Gave l (s.locks l).covered s.given

/-- Calls that keep the counters in step: a lock is released from the objects it was given
to; a transfer moves only what its own lock gave, to an unlocked object of the same
address; an object that is not known to exist is not removed without a lock. -/
def Proper (s : State) : Call → Prop
  | .release l => Intact l s
  | .destroy l => Intact l s
  | .transfer n r => ∀ o, (s.locks (.exclusive n)).objectOps = some o →
      (s.objects o).refersToOther n = false →
      (∀ e ∈ s.given, e.2 ≠ r) ∧ (s.objects r).address = (s.objects o).address ∧
        ∀ e ∈ s.given, e.2 = o → e.1 = .exclusive n ∧
          (s.locks (.exclusive n)).backendLock = (s.objects o).address
  | .remove r => (s.objects r).existingObject ∨ (s.objects r).locksForWriteCount ≠ 0 ∨
      ∀ a, (s.objects r).address = some a → s.store a = false
  | .transplantHeader _ r => ∀ e ∈ s.given, e.2 ≠ r
  | _ => True

def Covers (s : State) (l : LockRef) (r : ObjectRef) : Prop :=
  ∃ a, (s.locks l).backendLock = some a ∧
    ((s.objects r).address = some a ∨
      (s.objects r).address.isSome ∧ r ∈ (s.locks l).subObjectsOps)

structure InStep (s : State) : Prop where
  locksCount : ∀ r, (s.objects r).locksCount = (Ledger.count (fun _ => true) s.given r : Int)
  locksForWriteCount : ∀ r,
    (s.objects r).locksForWriteCount = (Ledger.count LockRef.isExclusive s.given r : Int)
  covers : ∀ e ∈ s.given, Covers s e.1 e.2
  locked : ∀ l, (s.locks l).locked = (s.locks l).backendLock.isSome
  generic : ∀ g, (s.objects (.generic g)).headerInterpreted →
    (s.objects (.generic g)).existingObject

theorem Constructed.inStep {s : State} (h : Constructed s) : InStep s where
  locksCount r := by simp [h.objects r, h.given, Ledger.count]
  locksForWriteCount r := by simp [h.objects r, h.given, Ledger.count]
  covers := by simp [h.given]
  locked l := by simp [h.locks l]
  generic g := by simp [h.objects]

theorem InStep.counted {s : State} (h : InStep s) : Counted s := by
  intro r
  rw [h.locksCount r, h.locksForWriteCount r]
  refine ⟨Int.natCast_nonneg _, Int.natCast_nonneg _, fun hn => ?_⟩
  rw [Ledger.count_eq_zero hn, Ledger.count_eq_zero hn]
  exact ⟨rfl, rfl⟩

theorem InStep.address_of_given {s : State} (h : InStep s) {e : LockRef × ObjectRef}
    (he : e ∈ s.given) : (s.objects e.2).address.isSome := by
  obtain ⟨a, -, hc⟩ := h.covers e he
  cases hc with
  | inl h => simp [h]
  | inr h => exact h.1

theorem InStep.held_of_given {s : State} (h : InStep s) {l : LockRef} {r : ObjectRef}
    (he : (l, r) ∈ s.given) {exclusively : Bool} (hk : exclusively → l.isExclusive) :
    Held exclusively s r := by
  obtain ⟨a, hb, hc⟩ := h.covers _ he
  exact ⟨l, a, hb, hk, hc.imp_right fun hc => ⟨he, hc.2⟩⟩

theorem InStep.held_of_locksCount {s : State} (h : InStep s) {r : ObjectRef}
    (hc : (s.objects r).locksCount ≠ 0) : Held false s r := by
  rw [h.locksCount r] at hc
  obtain ⟨⟨l, r'⟩, he, rfl, -⟩ := Ledger.exists_of_count_ne_zero (by exact_mod_cast hc)
  exact h.held_of_given he (by simp)

theorem InStep.held_of_locksForWriteCount {s : State} (h : InStep s) {r : ObjectRef}
    (hc : (s.objects r).locksForWriteCount ≠ 0) : Held true s r := by
  rw [h.locksForWriteCount r] at hc
  obtain ⟨⟨l, r'⟩, he, rfl, hk⟩ := Ledger.exists_of_count_ne_zero (by exact_mod_cast hc)
  exact h.held_of_given he fun _ => hk

theorem checkWritable_none {o : Ops} (h : o.checkWritable = none) (he : o.existingObject) :
    o.locksForWriteCount ≠ 0 := by
  intro hz
  simp [Ops.checkWritable, he, hz] at h

theorem InStep.guarded {s : State} (h : InStep s) {c : Call} (hp : Proper s c) :
    Guarded s c := by
  cases c with
  | fetch r p =>
    intro a _ _
    by_cases hc : (s.objects r).locksCount = 0
    · exact Or.inr (by simp [call, fetch, hc])
    · exact Or.inl (h.held_of_locksCount hc)
  | commit r =>
    intro a _ _
    cases r with
    | typed n =>
      cases hw : (s.objects (.typed n)).checkPayloadWritable with
      | some e => exact Or.inr (by simp [call, commit, hw])
      | none =>
        by_cases he : (s.objects (.typed n)).existingObject = true
        · have hw' : (s.objects (.typed n)).checkWritable = none := by
            simp only [Ops.checkPayloadWritable] at hw
            split at hw
            · exact hw
            · cases hw
          exact Or.inl (h.held_of_locksForWriteCount (checkWritable_none hw' he))
        · exact Or.inr (by simp [call, commit, hw, he])
    | generic g =>
      cases hw : (s.objects (.generic g)).checkHeaderWritable with
      | some e => exact Or.inr (by simp [call, commit, hw])
      | none =>
        simp only [Ops.checkHeaderWritable] at hw
        split at hw
        · next hi =>
          exact Or.inl (h.held_of_locksForWriteCount (checkWritable_none hw (h.generic g hi)))
        · cases hw
  | remove r =>
    intro a ha hst
    cases hw : (s.objects r).checkWritable with
    | some e => exact Or.inr (by simp [call, remove, hw])
    | none =>
      rcases hp with he | hc | hn
      · exact Or.inl (h.held_of_locksForWriteCount (checkWritable_none hw he))
      · exact Or.inl (h.held_of_locksForWriteCount hc)
      · exact absurd (hn a ha) (by simp [hst])
  | _ => trivial

theorem InStep.of_store {s : State} (h : InStep s) (store : Address → Bool) :
    InStep { s with store } :=
  ⟨h.locksCount, h.locksForWriteCount, h.covers, h.locked, h.generic⟩

theorem InStep.setObject {s : State} (h : InStep s) {r : ObjectRef} {o : Ops}
    (hc : o.locksCount = (s.objects r).locksCount)
    (hw : o.locksForWriteCount = (s.objects r).locksForWriteCount)
    (ha : o.address = (s.objects r).address ∨ ∀ e ∈ s.given, e.2 ≠ r)
    (hg : ∀ g, r = .generic g → o.headerInterpreted → o.existingObject) :
    InStep (s.setObject r o) where
  locksCount x := by
    by_cases hx : x = r
    · subst hx
      simp [hc, h.locksCount x]
    · simp [hx, h.locksCount x]
  locksForWriteCount x := by
    by_cases hx : x = r
    · subst hx
      simp [hw, h.locksForWriteCount x]
    · simp [hx, h.locksForWriteCount x]
  covers e he := by
    obtain ⟨a, hb, hcov⟩ := h.covers e he
    refine ⟨a, hb, ?_⟩
    by_cases hx : e.2 = r
    · cases ha with
      | inl ha => simpa [hx, ha] using hx ▸ hcov
      | inr hn => exact absurd hx (hn e he)
    · simpa [hx] using hcov
  locked := h.locked
  generic g := by
    by_cases hx : ObjectRef.generic g = r
    · simpa [← hx] using hg g hx.symm
    · simpa [hx] using h.generic g

theorem InStep.not_given {s : State} (h : InStep s) {l : LockRef} (hl : (s.locks l).locked = false)
    {e : LockRef × ObjectRef} (he : e ∈ s.given) : e.1 ≠ l := by
  rintro rfl
  obtain ⟨a, hb, -⟩ := h.covers e he
  rw [h.locked, hb] at hl
  cases hl

theorem InStep.setLock_unlocked {s : State} (h : InStep s) {l : LockRef} {k : ScopedLock}
    (hl : (s.locks l).locked = false) (hk : k.locked = false) (hb : k.backendLock = none) :
    InStep (s.setLock l k) where
  locksCount := h.locksCount
  locksForWriteCount := h.locksForWriteCount
  covers e he := by
    obtain ⟨a, hcov⟩ := h.covers e he
    exact ⟨a, by simpa [h.not_given hl he] using hcov⟩
  locked x := by
    by_cases hx : x = l
    · simp [hx, hk, hb]
    · simp [hx, h.locked x]
  generic := h.generic

theorem InStep.give {s : State} (h : InStep s) {l : LockRef} {r : ObjectRef} {o : Ops}
    {k : ScopedLock} (hc : o.locksCount = (s.objects r).locksCount + 1)
    (hw : o.locksForWriteCount =
      (s.objects r).locksForWriteCount + if l.isExclusive then 1 else 0)
    (ha : o.address = (s.objects r).address)
    (hg : o.headerInterpreted = (s.objects r).headerInterpreted ∧
      o.existingObject = (s.objects r).existingObject)
    (hk : k.locked = true) {a : Address} (hb : k.backendLock = some a)
    (hr : o.address = some a ∨ o.address.isSome ∧ r ∈ k.subObjectsOps)
    (hold : (s.locks l).locked = true →
      (s.locks l).backendLock = some a ∧ ∀ x ∈ (s.locks l).subObjectsOps, x ∈ k.subObjectsOps) :
    InStep { (s.setObject r o).setLock l k with given := (l, r) :: s.given } where
  locksCount x := by
    rw [Ledger.count_cons]
    by_cases hx : x = r
    · subst hx
      simp [hc, h.locksCount x]
    · simp [hx, Ne.symm hx, h.locksCount x]
  locksForWriteCount x := by
    rw [Ledger.count_cons]
    by_cases hx : x = r
    · subst hx
      cases hl : l.isExclusive <;>
        simp [hw, hl, h.locksForWriteCount x]
    · simp [hx, Ne.symm hx, h.locksForWriteCount x]
  covers e he := by
    cases List.mem_cons.mp he with
    | inl he =>
      subst he
      exact ⟨a, by simp [hb], by
        simpa using hr⟩
    | inr he =>
      obtain ⟨b, hlb, hcov⟩ := h.covers e he
      have hobj : ((s.setObject r o).objects e.2).address = (s.objects e.2).address := by
        by_cases hx : e.2 = r
        · simp [hx, ha]
        · simp [hx]
      by_cases hx : e.1 = l
      · have hlocked : (s.locks l).locked = true := by
          rw [h.locked, ← hx, hlb]
          rfl
        obtain ⟨hla, hsub⟩ := hold hlocked
        have hab : b = a := by
          rw [hx, hla] at hlb
          exact (Option.some.inj hlb).symm
        refine ⟨a, by simp [hx, hb], ?_⟩
        rw [hx, hab] at hcov
        simp only [setLock_locks, setLock_objects, hx, Function.update_self, hobj]
        exact hcov.imp_right fun hc => ⟨hc.1, hsub _ hc.2⟩
      · refine ⟨b, by simpa [hx] using hlb, ?_⟩
        simpa only [setLock_locks, setLock_objects, setObject_locks, Function.update_of_ne hx, hobj]
          using hcov
  locked x := by
    by_cases hx : x = l
    · simp [hx, hk, hb]
    · simpa [hx] using h.locked x
  generic g := by
    by_cases hx : ObjectRef.generic g = r
    · subst hx
      simpa [hg.1, hg.2] using h.generic g
    · simpa [hx] using h.generic g

theorem unlockAll_locksCount (l : LockRef) (rs : List ObjectRef) (objects : ObjectRef → Ops)
    (x : ObjectRef) :
    (unlockAll l rs objects x).locksCount = (objects x).locksCount - rs.count x := by
  induction rs generalizing objects with
  | nil => simp [unlockAll]
  | cons r rs ih =>
    rw [unlockAll, ih, List.count_cons]
    by_cases hx : x = r
    · subst hx
      simp only [Function.update_self, Ops.setUnlocked, beq_self_eq_true, if_true]
      omega
    · simp [hx, Ne.symm hx]

theorem unlockAll_locksForWriteCount (l : LockRef) (rs : List ObjectRef)
    (objects : ObjectRef → Ops) (x : ObjectRef) :
    (unlockAll l rs objects x).locksForWriteCount =
      (objects x).locksForWriteCount - if l.isExclusive then (rs.count x : Int) else 0 := by
  induction rs generalizing objects with
  | nil => simp [unlockAll]
  | cons r rs ih =>
    rw [unlockAll, ih, List.count_cons]
    by_cases hx : x = r
    · subst hx
      simp only [Function.update_self, Ops.setUnlocked, beq_self_eq_true, if_true]
      split <;> omega
    · simp [hx, Ne.symm hx]

theorem unlockAll_other (l : LockRef) (rs : List ObjectRef) (objects : ObjectRef → Ops)
    (x : ObjectRef) :
    (unlockAll l rs objects x).address = (objects x).address ∧
      (unlockAll l rs objects x).headerInterpreted = (objects x).headerInterpreted ∧
      (unlockAll l rs objects x).existingObject = (objects x).existingObject := by
  induction rs generalizing objects with
  | nil => exact ⟨rfl, rfl, rfl⟩
  | cons r rs ih =>
    rw [unlockAll, (ih _).1, (ih _).2.1, (ih _).2.2]
    by_cases hx : x = r
    · subst hx
      simp [Ops.setUnlocked]
    · simp [hx]

theorem InStep.releaseIfNeeded {s : State} (h : InStep s) {l : LockRef} (hi : Intact l s) :
    InStep (releaseIfNeeded l s) ∧ ((releaseIfNeeded l s).locks l).locked = false := by
  unfold ObjectOps.releaseIfNeeded
  by_cases hl : (s.locks l).locked = true
  · have hgave := hi hl
    simp only [hl, if_true]
    refine ⟨⟨fun x => ?_, fun x => ?_, fun e he => ?_, fun x => ?_, fun g => ?_⟩, ?_⟩
    · rw [unlockAll_locksCount, h.locksCount x, Ledger.count_takeBack hgave x]
      simp
    · rw [unlockAll_locksForWriteCount, h.locksForWriteCount x, Ledger.count_takeBack hgave x]
      split <;> simp
    · obtain ⟨he, hne⟩ := Ledger.mem_takeBack.mp he
      obtain ⟨a, hcov⟩ := h.covers e he
      refine ⟨a, ?_⟩
      simpa [hne, (unlockAll_other l _ _ e.2).1] using hcov
    · by_cases hx : x = l
      · simp [hx]
      · simpa [hx] using h.locked x
    · simpa [(unlockAll_other l _ _ _).2.1, (unlockAll_other l _ _ _).2.2] using h.generic g
    · simp
  · rw [Bool.not_eq_true] at hl
    simp only [hl, Bool.false_eq_true, if_false]
    exact ⟨h, trivial⟩

theorem InStep.transfer {s : State} (h : InStep s) {n : Nat} {r : ObjectRef}
    (hp : Proper s (.transfer n r)) : InStep (transfer n r s).state := by
  unfold ObjectOps.transfer
  cases ho : (s.locks (.exclusive n)).objectOps with
  | none => exact h
  | some o =>
    by_cases hother : (s.objects o).refersToOther n = true
    · simpa only [hother, if_true] using h
    · rw [Bool.not_eq_true] at hother
      simp only [hother, Bool.false_eq_true, if_false]
      obtain ⟨hfree, haddr, hown⟩ := hp o ho hother
      refine ⟨fun x => ?_, fun x => ?_, fun e he => ?_, h.locked, fun g => ?_⟩
      · rw [Ledger.count_move hfree]
        by_cases hxo : x = o
        · simp [hxo]
        · by_cases hxr : x = r
          · simp [hxr ▸ hxo, hxr, h.locksCount o]
          · simp [hxo, hxr, h.locksCount x]
      · rw [Ledger.count_move hfree]
        by_cases hxo : x = o
        · simp [hxo]
        · by_cases hxr : x = r
          · simp [hxr ▸ hxo, hxr, h.locksForWriteCount o]
          · simp [hxo, hxr, h.locksForWriteCount x]
      · cases Ledger.mem_move he with
        | inl he =>
          obtain ⟨a, hb, hcov⟩ := h.covers e he.1
          exact ⟨a, hb, by simpa [he.2, hfree e he.1] using hcov⟩
        | inr he =>
          obtain ⟨hl, hb⟩ := hown _ he.2 rfl
          obtain ⟨a, ha⟩ := Option.isSome_iff_exists.mp (h.address_of_given he.2)
          have hro : r ≠ o := fun hro => hfree _ he.2 hro.symm
          refine ⟨a, ?_, Or.inl ?_⟩
          · rw [show e.1 = LockRef.exclusive n from hl]
            exact hb.trans ha
          · simpa [he.1, hro] using haddr.trans ha
      · have hgen := h.generic g
        by_cases hxo : ObjectRef.generic g = o
        · by_cases hxr : ObjectRef.generic g = r
          · simpa [← hxo, ← hxr] using hgen
          · simpa [← hxo, hxr] using hgen
        · by_cases hxr : ObjectRef.generic g = r
          · simpa [hxo, ← hxr] using hgen
          · simpa [hxo, hxr] using hgen

theorem addressSet_isSome {o : Ops} (h : ¬ (!o.addressSet) = true) : o.address.isSome := by
  simp only [Ops.addressSet, Bool.not_eq_true, Bool.not_eq_false', Bool.and_eq_true] at h
  exact h.1

theorem InStep.lock {s : State} (h : InStep s) (l : LockRef) (r : ObjectRef) (granted : Bool) :
    InStep (lock l r granted s).state := by
  unfold ObjectOps.lock
  dsimp only
  by_cases hl : (s.locks l).locked = true
  · rw [if_pos hl]
    exact h
  · rw [if_neg hl]
    rw [Bool.not_eq_true] at hl
    have hnone : (s.locks l).backendLock = none := by
      have := h.locked l
      rw [hl] at this
      exact Option.not_isSome_iff_eq_none.mp (by simp [← this])
    have hpoints : InStep (s.setLock l { s.locks l with objectOps := some r }) :=
      h.setLock_unlocked hl hl hnone
    split
    · exact hpoints
    · next hset =>
      split
      · exact hpoints
      · obtain ⟨a, ha⟩ := Option.isSome_iff_exists.mp (addressSet_isSome hset)
        cases l with
        | shared n =>
          exact InStep.give (a := a) hpoints rfl rfl rfl ⟨rfl, rfl⟩ rfl ha (Or.inl ha)
            fun hlocked => absurd hlocked (by simp [hl])
        | exclusive n =>
          exact InStep.give (a := a) hpoints rfl rfl rfl ⟨rfl, rfl⟩ rfl ha (Or.inl ha)
            fun hlocked => absurd hlocked (by simp [hl])

theorem InStep.includeSubObject {s : State} (h : InStep s) (l : LockRef) (r : ObjectRef) :
    InStep (includeSubObject l r s).state := by
  unfold ObjectOps.includeSubObject
  dsimp only
  split
  · exact h
  · next hl =>
    split
    · exact h
    · next hset =>
      have hl : (s.locks l).locked = true := by simpa using hl
      obtain ⟨a, ha⟩ : ∃ a, (s.locks l).backendLock = some a := by
        rw [← Option.isSome_iff_exists, ← h.locked, hl]
      exact InStep.give (a := a) h rfl rfl rfl ⟨rfl, rfl⟩ hl ha
        (Or.inr ⟨addressSet_isSome hset, by simp⟩) fun _ => ⟨ha, fun x hx => by simp [hx]⟩

theorem InStep.fetchBottomHalf {s : State} (h : InStep s) (r : ObjectRef) (p : Parsed) :
    InStep (fetchBottomHalf r p s).state := by
  unfold ObjectOps.fetchBottomHalf
  dsimp only
  split
  · exact h.setObject rfl rfl (Or.inl rfl) (by simp)
  · split
    · cases p <;> cases r <;> exact h.setObject rfl rfl (Or.inl rfl) (by simp [Ops.interpret])
    · exact h.setObject rfl rfl (Or.inl rfl) (by simp)

theorem InStep.step {s : State} (h : InStep s) {c : Call} (hp : Proper s c) :
    InStep (step s c) := by
  cases c with
  | lock l r granted => exact h.lock l r granted
  | includeSubObject l r => exact h.includeSubObject l r
  | transfer n r => exact h.transfer hp
  | release l =>
    change InStep (ObjectOps.release l s).state
    unfold ObjectOps.release
    split
    · exact (h.releaseIfNeeded hp).1
    · exact h
  | destroy l =>
    have hrel := h.releaseIfNeeded hp
    exact hrel.1.setLock_unlocked hrel.2 rfl rfl
  | fetch r p =>
    change InStep (ObjectOps.fetch r p s).state
    unfold ObjectOps.fetch
    split
    · exact h
    · exact h.fetchBottomHalf r p
  | fetchNoLock r p =>
    have hnoLock : InStep (s.setObject r { s.objects r with noLock := true }) := by
      refine h.setObject rfl rfl (Or.inl rfl) ?_
      rintro g rfl
      exact h.generic g
    exact hnoLock.fetchBottomHalf r p
  | commit r =>
    have hw : (atomicOverwrite r s).state = s := by
      unfold atomicOverwrite
      split <;> rfl
    have hcommit : (commit r s).state = s := by
      unfold commit
      repeat' split
      all_goals first | rfl | exact hw
    change InStep (ObjectOps.commit r s).state
    rw [hcommit]
    exact h
  | remove r =>
    change InStep (ObjectOps.remove r s).state
    unfold ObjectOps.remove
    repeat' split
    all_goals first | exact h | exact (h.of_store _).setObject rfl rfl (Or.inl rfl) (by simp)
  | setAddress r name =>
    change InStep (ObjectOps.setAddress r name s).state
    unfold ObjectOps.setAddress
    split
    · exact h
    · next hnone =>
      split
      · exact h
      · refine h.setObject rfl rfl (Or.inr ?_) ?_
        · rintro e he rfl
          exact hnone (h.address_of_given he)
        · rintro g rfl
          exact h.generic g
  | resetAddress r =>
    change InStep (ObjectOps.resetAddress r s).state
    unfold ObjectOps.resetAddress
    split
    · exact h
    · next hfree =>
      refine h.setObject rfl rfl (Or.inr ?_) (by simp)
      rintro e he rfl
      rw [not_or, not_not, h.locksCount] at hfree
      have hpos : 0 < Ledger.count (fun _ => true) s.given e.2 :=
        List.countP_pos_iff.mpr ⟨e, he, by simp⟩
      omega
  | initializeObject r =>
    change InStep (ObjectOps.initializeObject r s).state
    unfold ObjectOps.initializeObject
    split
    · exact h
    · split
      · exact h
      · exact h.setObject rfl rfl (Or.inl rfl) (by simp)
  | insert r =>
    change InStep (ObjectOps.insert r s).state
    unfold ObjectOps.insert
    repeat' split
    all_goals first | exact h | exact (h.of_store _).setObject rfl rfl (Or.inl rfl) (by simp)
  | transplantHeader g r =>
    exact h.setObject rfl rfl (Or.inr hp) fun _ _ => h.generic g

/-- In a run of proper calls, stored objects are accessed under a lock of the backend and
the counters of the objects agree with the locks given to them. -/
theorem lock_discipline (s : State) (cs : List Call) (hs : Constructed s)
    (hp : AllSteps step Proper s cs) :
    AllSteps step Guarded s cs ∧ AllStates step Counted s cs := by
  have hstep := hs.inStep
  clear hs
  induction cs generalizing s with
  | nil => exact ⟨trivial, hstep.counted⟩
  | cons c cs ih =>
    obtain ⟨hg, hc⟩ := ih (step s c) hp.2 (hstep.step hp.1)
    exact ⟨⟨hstep.guarded hp.1, hg⟩, hstep.counted, hc⟩

def oneStored : State where
  objects := fun _ => {}
  locks := fun _ => {}
  store := fun a => a = "a"
  given := []

theorem oneStored_constructed : Constructed oneStored :=
  ⟨fun _ => rfl, fun _ => rfl, rfl⟩

def lockedUpdate : List Call :=
  [.setAddress (.typed 0) "a", .lock (.exclusive 0) (.typed 0) true, .fetch (.typed 0) .good,
    .setAddress (.typed 1) "b", .includeSubObject (.exclusive 0) (.typed 1),
    .commit (.typed 0), .release (.exclusive 0)]

theorem lock_discipline_lockedUpdate :
    AllSteps step Guarded oneStored lockedUpdate ∧ AllStates step Counted oneStored lockedUpdate :=
  lock_discipline oneStored lockedUpdate oneStored_constructed
    ⟨trivial, trivial, trivial, trivial, trivial, trivial, fun _ => by decide, trivial⟩

/-- A generic object is locked and the lock is transferred to the typed object made from it,
as `garbageCollectWithType` does. -/
def transferredLock : List Call :=
  [.setAddress (.generic 0) "a", .lock (.exclusive 0) (.generic 0) true,
    .fetch (.generic 0) .good, .transplantHeader 0 (.typed 0), .transfer 0 (.typed 0),
    .release (.exclusive 0)]

def lockedAgain : List Call :=
  [.setAddress (.typed 0) "a", .setAddress (.typed 1) "b",
    .lock (.exclusive 0) (.typed 0) true, .includeSubObject (.exclusive 0) (.typed 1),
    .release (.exclusive 0), .lock (.exclusive 0) (.typed 0) true, .release (.exclusive 0)]

theorem transferredLock_released (l : LockRef) :
    ((transferredLock.foldl step oneStored).locks l).backendLock = none := by
  cases l with
  | shared n => rfl
  | exclusive n =>
    cases n with
    | zero => rfl
    | succ n => rfl

/-- The transferred lock is taken back from the wrong object, the sub-object is unlocked
twice, and an object that was never fetched is removed without a lock. -/
theorem counters_out_of_step :
    Constructed oneStored ∧
      (¬ AllStates step Counted oneStored transferredLock ∧
        (transferredLock.foldl step oneStored).given = [] ∧
        ((transferredLock.foldl step oneStored).objects (.generic 0)).locksCount = -1 ∧
        ((transferredLock.foldl step oneStored).objects (.typed 0)).locksCount = 1 ∧
        ¬ AllSteps step Guarded oneStored (transferredLock ++ [.fetch (.typed 0) .good])) ∧
      ¬ AllStates step Counted oneStored lockedAgain ∧
      ¬ AllSteps step Guarded oneStored [.setAddress (.typed 0) "a", .remove (.typed 0)] := by
  refine ⟨oneStored_constructed, ⟨fun h => ?_, rfl, rfl, rfl, fun h => ?_⟩, fun h => ?_,
    fun h => ?_⟩
  · exact absurd (h.last (.generic 0)).1 (by decide)
  · cases h.last "a" rfl rfl with
    | inl hheld =>
      obtain ⟨l, a, hb, -⟩ := hheld
      rw [transferredLock_released l] at hb
      cases hb
    | inr hthrows => exact absurd hthrows.2 (by decide)
  · exact absurd (h.last (.typed 1)).1 (by decide)
  · cases h.2.1 "a" rfl rfl with
    | inl hheld =>
      obtain ⟨l, a, hb, -⟩ := hheld
      cases hb
    | inr hthrows => exact absurd hthrows.2 (by decide)

end Cta.ObjectStore.ObjectOps

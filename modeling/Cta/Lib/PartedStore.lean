import Mathlib.Logic.Function.Basic

/-! A root object whose parts are stored separately. A program works on its own copy
of the root; every write to the store is one commit, and the stored objects after
each of them are kept: these are the states a crash can leave behind. -/
namespace Cta.Lib.PartedStore

structure Stored (P S : Type*) where
  root : P
  parts : Nat → Option S

/-- The program's copy of the root, the stored objects, what was stored after each
commit so far, the next unused part address and the trace of observed events. -/
structure World (P S E : Type*) where
  memory : P
  stored : Stored P S
  history : List (Stored P S)
  nextId : Nat
  log : List E

abbrev Program (ε P S E : Type) (α : Type) := EStateM ε (World P S E) α

section
variable {ε P S E α β : Type}

def World.write (w : World P S E) (st : Stored P S) : World P S E :=
  { w with stored := st, history := w.history ++ [st] }

def getMemory : Program ε P S E P := fun w => .ok w.memory w

def setMemory (p : P) : Program ε P S E Unit := fun w => .ok () { w with memory := p }

def observe (e : E) : Program ε P S E Unit := fun w => .ok () { w with log := w.log ++ [e] }

/-- A part address that was never given before. -/
def freshId : Program ε P S E Nat := fun w => .ok w.nextId { w with nextId := w.nextId + 1 }

def lookupPart (a : Nat) : Program ε P S E (Option S) := fun w => .ok (w.stored.parts a) w

def commitRoot : Program ε P S E Unit := fun w =>
  .ok () (w.write { w.stored with root := w.memory })

def putPart (a : Nat) (s : S) : Program ε P S E Unit := fun w =>
  .ok () (w.write { w.stored with parts := Function.update w.stored.parts a (some s) })

def dropPart (a : Nat) : Program ε P S E Unit := fun w =>
  .ok () (w.write { w.stored with parts := Function.update w.stored.parts a none })

/-- Run a pure computation that may fail. -/
def fromExcept : Except ε α → Program ε P S E α
  | .ok a => pure a
  | .error e => throw e

def fromOption (e : ε) : Option α → Program ε P S E α
  | some a => pure a
  | none => throw e

@[simp] theorem World.write_memory (w : World P S E) (st : Stored P S) :
    (w.write st).memory = w.memory := rfl

@[simp] theorem bind_apply (x : Program ε P S E α) (f : α → Program ε P S E β)
    (w : World P S E) :
    (x >>= f) w = match x w with
      | .ok a w' => f a w'
      | .error e w' => .error e w' := by
  change EStateM.bind x f w = _
  unfold EStateM.bind
  cases x w <;> rfl

@[simp] theorem map_apply (f : α → β) (x : Program ε P S E α) (w : World P S E) :
    (f <$> x) w = match x w with
      | .ok a w' => .ok (f a) w'
      | .error e w' => .error e w' := by
  change EStateM.map f x w = _
  unfold EStateM.map
  cases x w <;> rfl

@[simp] theorem pure_apply (a : α) (w : World P S E) :
    (pure a : Program ε P S E α) w = .ok a w := rfl

@[simp] theorem throw_apply (e : ε) (w : World P S E) :
    (throw e : Program ε P S E α) w = .error e w := rfl

@[simp] theorem getMemory_apply (w : World P S E) :
    (getMemory : Program ε P S E P) w = .ok w.memory w := rfl

@[simp] theorem setMemory_apply (p : P) (w : World P S E) :
    (setMemory p : Program ε P S E Unit) w = .ok () { w with memory := p } := rfl

@[simp] theorem observe_apply (e : E) (w : World P S E) :
    (observe e : Program ε P S E Unit) w = .ok () { w with log := w.log ++ [e] } := rfl

@[simp] theorem freshId_apply (w : World P S E) :
    (freshId : Program ε P S E Nat) w = .ok w.nextId { w with nextId := w.nextId + 1 } := rfl

@[simp] theorem lookupPart_apply (a : Nat) (w : World P S E) :
    (lookupPart a : Program ε P S E (Option S)) w = .ok (w.stored.parts a) w := rfl

@[simp] theorem commitRoot_apply (w : World P S E) :
    (commitRoot : Program ε P S E Unit) w = .ok () (w.write { w.stored with root := w.memory }) :=
  rfl

@[simp] theorem putPart_apply (a : Nat) (s : S) (w : World P S E) :
    (putPart a s : Program ε P S E Unit) w = .ok ()
      (w.write { w.stored with parts := Function.update w.stored.parts a (some s) }) := rfl

@[simp] theorem dropPart_apply (a : Nat) (w : World P S E) :
    (dropPart a : Program ε P S E Unit) w = .ok ()
      (w.write { w.stored with parts := Function.update w.stored.parts a none }) := rfl

@[simp] theorem fromExcept_ok (a : α) : (fromExcept (.ok a) : Program ε P S E α) = pure a := rfl

@[simp] theorem fromExcept_pure (a : α) :
    (fromExcept (pure a : Except ε α) : Program ε P S E α) = pure a := rfl

@[simp] theorem fromExcept_error (e : ε) :
    (fromExcept (.error e) : Program ε P S E α) = throw e := rfl

@[simp] theorem fromOption_some (e : ε) (a : α) :
    (fromOption e (some a) : Program ε P S E α) = pure a := rfl

@[simp] theorem fromOption_none (e : ε) : (fromOption e none : Program ε P S E α) = throw e := rfl

theorem mapM_lookupPart {κ : Type} (f : κ → Nat) (l : List κ) (w : World P S E) :
    (l.mapM fun k => do return (f k, ← lookupPart (f k)) :
        Program ε P S E (List (Nat × Option S))) w =
      .ok (l.map fun k => (f k, w.stored.parts (f k))) w := by
  induction l with
  | nil => rfl
  | cons k l ih => simp only [List.mapM_cons, bind_apply, lookupPart_apply, pure_apply, ih,
      List.map_cons]

def finalWorld : EStateM.Result ε (World P S E) α → World P S E
  | .ok _ w => w
  | .error _ w => w

def failed : EStateM.Result ε (World P S E) α → Bool
  | .ok _ _ => false
  | .error _ _ => true

/-- Whatever happens, the events observed so far stay in the trace. -/
def Grows (x : Program ε P S E α) : Prop := ∀ w, w.log <+: (finalWorld (x w)).log

theorem Grows.pure (a : α) : Grows (pure a : Program ε P S E α) := fun _ => List.prefix_refl _

theorem Grows.throw (e : ε) : Grows (throw e : Program ε P S E α) := fun _ => List.prefix_refl _

theorem Grows.getMemory : Grows (getMemory : Program ε P S E P) := fun _ => List.prefix_refl _

theorem Grows.setMemory (p : P) : Grows (setMemory p : Program ε P S E Unit) :=
  fun _ => List.prefix_refl _

theorem Grows.observe (e : E) : Grows (observe e : Program ε P S E Unit) :=
  fun _ => List.prefix_append _ _

theorem Grows.freshId : Grows (freshId : Program ε P S E Nat) := fun _ => List.prefix_refl _

theorem Grows.lookupPart (a : Nat) : Grows (lookupPart a : Program ε P S E (Option S)) :=
  fun _ => List.prefix_refl _

theorem Grows.commitRoot : Grows (commitRoot : Program ε P S E Unit) :=
  fun _ => List.prefix_refl _

theorem Grows.putPart (a : Nat) (s : S) : Grows (putPart a s : Program ε P S E Unit) :=
  fun _ => List.prefix_refl _

theorem Grows.fromExcept (x : Except ε α) : Grows (fromExcept x : Program ε P S E α) := by
  cases x <;> exact fun _ => List.prefix_refl _

theorem Grows.fromOption (e : ε) (x : Option α) : Grows (fromOption e x : Program ε P S E α) := by
  cases x <;> exact fun _ => List.prefix_refl _

theorem Grows.bind {x : Program ε P S E α} {f : α → Program ε P S E β} (hx : Grows x)
    (hf : ∀ a, Grows (f a)) : Grows (x >>= f) := by
  intro w
  have h := hx w
  rw [bind_apply]
  cases hr : x w with
  | ok a w' =>
    rw [hr] at h
    exact h.trans (hf a w')
  | error e w' => rwa [hr] at h

theorem Grows.ite {c : Prop} [Decidable c] {x y : Program ε P S E α} (hx : Grows x)
    (hy : Grows y) : Grows (if c then x else y) := by
  split <;> assumption

theorem Grows.mapM {κ : Type} {f : κ → Program ε P S E α} (hf : ∀ k, Grows (f k)) (l : List κ) :
    Grows (l.mapM f) := by
  induction l with
  | nil => exact .pure _
  | cons k l ih =>
    rw [List.mapM_cons]
    exact .bind (hf k) fun _ => .bind ih fun _ => .pure _

/-- The event is in the trace at the end of the program. -/
def Observes (x : Program ε P S E α) (w : World P S E) (e : E) : Prop :=
  e ∈ (finalWorld (x w)).log

theorem Observes.bind_left {x : Program ε P S E α} {f : α → Program ε P S E β} {w : World P S E}
    {e : E} (hx : Observes x w e) (hf : ∀ a, Grows (f a)) : Observes (x >>= f) w e := by
  unfold Observes at hx ⊢
  rw [bind_apply]
  cases hr : x w with
  | ok a w' =>
    rw [hr] at hx
    exact (hf a w').subset hx
  | error err w' => rwa [hr] at hx

theorem Observes.bind_right {x : Program ε P S E α} {f : α → Program ε P S E β}
    {w v : World P S E} {a : α} {e : E} (hx : x w = .ok a v) (hf : Observes (f a) v e) :
    Observes (x >>= f) w e := by
  unfold Observes at hf ⊢
  rwa [bind_apply, hx]

end
end Cta.Lib.PartedStore

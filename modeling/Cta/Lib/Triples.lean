import Mathlib.Logic.Basic

/-! Programs that change a state and may throw: what holds before and after. -/
namespace Cta.Lib.Triples
universe u
variable {ε σ τ α β : Type u}

theorem pure_run (a : α) (s : σ) : (pure a : EStateM ε σ α) s = .ok a s := rfl

theorem get_run (s : σ) : (get : EStateM ε σ σ) s = .ok s s := rfl

theorem modify_run (f : σ → σ) (s : σ) :
    (modify f : EStateM ε σ PUnit) s = .ok ⟨⟩ (f s) := rfl

theorem bind_ok {x : EStateM ε σ α} {s s' : σ} {a : α} (h : x s = .ok a s')
    (f : α → EStateM ε σ β) : (x >>= f) s = f a s' := by
  change EStateM.bind x f s = f a s'
  rw [EStateM.bind, h]

theorem bind_error {x : EStateM ε σ α} {s s' : σ} {e : ε} (h : x s = .error e s')
    (f : α → EStateM ε σ β) : (x >>= f) s = .error e s' := by
  change EStateM.bind x f s = .error e s'
  rw [EStateM.bind, h]

theorem observing_ok {x : EStateM ε σ α} {s s' : σ} {a : α} (h : x s = .ok a s') :
    (observing x : EStateM ε σ (Except ε α)) s = .ok (.ok a) s' := by
  have hx : (do return .ok (← x) : EStateM ε σ (Except ε α)) s = .ok (.ok a) s' := bind_ok h _
  change EStateM.tryCatch (do return .ok (← x) : EStateM ε σ (Except ε α)) _ s = _
  delta EStateM.tryCatch
  rw [hx]

theorem observing_error {x : EStateM ε σ α} {s s' : σ} {e : ε} (h : x s = .error e s') :
    (observing x : EStateM ε σ (Except ε α)) s = .ok (.error e) s' := by
  have hx : (do return .ok (← x) : EStateM ε σ (Except ε α)) s = .error e s' := bind_error h _
  change EStateM.tryCatch (do return .ok (← x) : EStateM ε σ (Except ε α)) _ s = _
  delta EStateM.tryCatch
  rw [hx]
  rfl

/-- From `P` the program gets to `Q` if it returns, and to `E` if it throws. -/
def Triple (P : σ → Prop) (x : EStateM ε σ α) (Q : α → σ → Prop) (E : ε → σ → Prop) : Prop :=
  ∀ s, P s → match x s with
    | .ok a s' => Q a s'
    | .error e s' => E e s'

section
variable {P P' : σ → Prop} {x : EStateM ε σ α} {Q Q' : α → σ → Prop} {E E' : ε → σ → Prop}

theorem Triple.of_ok (h : Triple P x Q E) {s s' : σ} {a : α} (hs : P s) (hx : x s = .ok a s') :
    Q a s' := by
  have hpost := h s hs
  rwa [hx] at hpost

theorem Triple.of_error (h : Triple P x Q E) {s s' : σ} {e : ε} (hs : P s)
    (hx : x s = .error e s') : E e s' := by
  have hpost := h s hs
  rwa [hx] at hpost

theorem Triple.consequence (h : Triple P x Q E) (hP : ∀ s, P' s → P s)
    (hQ : ∀ a s, Q a s → Q' a s) (hE : ∀ e s, E e s → E' e s) : Triple P' x Q' E' := by
  intro s hs
  have hpost := h s (hP s hs)
  cases hx : x s with
  | ok a s' =>
    rw [hx] at hpost
    exact hQ a s' hpost
  | error e s' =>
    rw [hx] at hpost
    exact hE e s' hpost

theorem Triple.pre (h : Triple P x Q E) (hP : ∀ s, P' s → P s) : Triple P' x Q E :=
  h.consequence hP (fun _ _ => id) fun _ _ => id

/-- What is known of some value, and facts that do not depend on the state. -/
theorem Triple.exists_pre {γ : Sort*} {P : γ → σ → Prop} (h : ∀ c, Triple (P c) x Q E) :
    Triple (fun s => ∃ c, P c s) x Q E := fun s ⟨c, hs⟩ => h c s hs

theorem Triple.and_pre {p : Prop} (h : p → Triple P x Q E) : Triple (fun s => p ∧ P s) x Q E :=
  fun s ⟨hp, hs⟩ => h hp s hs

theorem Triple.of_pre {p : Prop} (hp : ∀ s, P s → p) (h : p → Triple P x Q E) : Triple P x Q E :=
  fun s hs => h (hp s hs) s hs

theorem Triple.pure {a : α} (h : ∀ s, P s → Q a s) : Triple P (pure a) Q E := fun s hs => h s hs

theorem Triple.throw {e : ε} (h : ∀ s, P s → E e s) :
    Triple P (throw e : EStateM ε σ α) Q E := fun s hs => h s hs

theorem Triple.bind {R : β → σ → Prop} {f : α → EStateM ε σ β} (hx : Triple P x Q E)
    (hf : ∀ a, Triple (Q a) (f a) R E) : Triple P (x >>= f) R E := by
  intro s hs
  have hpost := hx s hs
  cases h : x s with
  | ok a s' =>
    rw [h] at hpost
    rw [bind_ok h]
    exact hf a s' hpost
  | error e s' =>
    rw [h] at hpost
    rw [bind_error h]
    exact hpost

theorem Triple.get : Triple P (get : EStateM ε σ σ) (fun a s => a = s ∧ P s) E :=
  fun _ hs => ⟨rfl, hs⟩

theorem Triple.get_bind {R : β → σ → Prop} {f : σ → EStateM ε σ β}
    (hf : ∀ s, P s → Triple P (f s) R E) : Triple P (MonadState.get >>= f) R E :=
  fun s hs => hf s hs s hs

theorem Triple.modify {f : σ → σ} {R : PUnit → σ → Prop} (h : ∀ s, P s → R ⟨⟩ (f s)) :
    Triple P (modify f : EStateM ε σ PUnit) R E := fun s hs => h s hs

theorem Triple.ite {c : Prop} [Decidable c] {y : EStateM ε σ α}
    (ht : c → Triple P x Q E) (hf : ¬c → Triple P y Q E) :
    Triple P (if c then x else y) Q E := by
  by_cases h : c
  · rw [if_pos h]
    exact ht h
  · rw [if_neg h]
    exact hf h

end

/-- A program that works on a part of the state. -/
def onPart (part : σ → τ) (put : τ → σ → σ) (x : EStateM ε τ α) : EStateM ε σ α := fun s =>
  match x (part s) with
  | .ok a t => .ok a (put t s)
  | .error e t => .error e (put t s)

theorem onPart_ok {part : σ → τ} {put : τ → σ → σ} {x : EStateM ε τ α} {s : σ} {t : τ} {a : α}
    (h : x (part s) = .ok a t) : onPart part put x s = .ok a (put t s) := by
  rw [onPart, h]

/-- What holds on the part carries over, together with what does not depend on it. -/
theorem Triple.onPart {part : σ → τ} {put : τ → σ → σ} {x : EStateM ε τ α} {P : τ → Prop}
    {Q : α → τ → Prop} {E : ε → τ → Prop} {F : σ → Prop} (h : Triple P x Q E)
    (hpart : ∀ t s, part (put t s) = t) (hF : ∀ t s, F s → F (put t s)) :
    Triple (fun s => P (part s) ∧ F s) (onPart part put x) (fun a s => Q a (part s) ∧ F s)
      fun e s => E e (part s) ∧ F s := by
  intro s hs
  have hpost := h (part s) hs.1
  unfold Triples.onPart
  cases hx : x (part s) with
  | ok a t =>
    rw [hx] at hpost
    exact ⟨(hpart t s).symm ▸ hpost, hF t s hs.2⟩
  | error e t =>
    rw [hx] at hpost
    exact ⟨(hpart t s).symm ▸ hpost, hF t s hs.2⟩

end Cta.Lib.Triples

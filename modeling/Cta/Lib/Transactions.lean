import Cta.Lib.Runs
import Cta.Lib.Triples

/-! Programs of statements on a database: one after the other, in a loop, and as a transaction
that leaves no trace when it fails. -/
namespace Cta.Lib.Transactions
open Cta.Lib.Runs Cta.Lib.Triples
universe u
variable {ε σ α β γ : Type u} {s t : σ} {e : ε}

theorem bind_eq_ok {x : EStateM ε σ α} {f : α → EStateM ε σ β} {b : β} :
    (x >>= f) s = .ok b t ↔ ∃ a u, x s = .ok a u ∧ f a u = .ok b t := by
  cases h : x s with
  | ok a u =>
    rw [bind_ok h]
    constructor
    · exact fun hf => ⟨a, u, rfl, hf⟩
    · rintro ⟨a, u, ⟨⟩, hf⟩
      exact hf
  | error e u =>
    rw [bind_error h]
    simp

theorem except_bind_eq_ok {x : Except ε α} {f : α → Except ε β} {b : β} :
    x >>= f = .ok b ↔ ∃ a, x = .ok a ∧ f a = .ok b := by
  cases x with
  | error e => simp [bind, Except.bind]
  | ok a => simp [bind, Except.bind]

/-- A program that runs from here as another one does from elsewhere. -/
theorem bind_eq_of_run {x y : EStateM ε σ α} {f : α → EStateM ε σ β} (h : x s = y t) :
    (x >>= f) s = (y >>= f) t := by
  cases hy : y t with
  | ok a u => rw [bind_ok hy, bind_ok (h.trans hy)]
  | error e u => rw [bind_error hy, bind_error (h.trans hy)]

theorem pure_eq_ok {a b : α} : (pure a : EStateM ε σ α) s = .ok b t ↔ b = a ∧ t = s := by
  rw [pure_run]
  simp [eq_comm]

/-- Stop with an exception unless a condition holds. -/
def check (p : Bool) (e : ε) : EStateM ε σ PUnit := if p then pure ⟨⟩ else throw e

theorem check_eq_ok {p : Bool} {a : PUnit} :
    (check p e : EStateM ε σ PUnit) s = .ok a t ↔ p = true ∧ t = s := by
  unfold check
  cases p with
  | true => simp [pure_eq_ok]
  | false =>
    simp only [Bool.false_eq_true, if_false, false_and, iff_false]
    change EStateM.Result.error e s ≠ _
    simp

/-- A program that reads and writes the state in one go. -/
def exec (f : σ → Except ε (α × σ)) : EStateM ε σ α := fun s =>
  match f s with
  | .ok (a, t) => .ok a t
  | .error e => .error e s

theorem exec_eq_ok {f : σ → Except ε (α × σ)} {a : α} :
    exec f s = .ok a t ↔ f s = .ok (a, t) := by
  unfold exec
  split
  · next b u h => simp [h]
  · next e h => simp [h]

/-- A computation that does not look at the state. -/
def ofResult (x : Except ε α) : EStateM ε σ α := exec fun s => x.map (·, s)

theorem ofResult_eq_ok {x : Except ε α} {a : α} :
    ofResult x s = .ok a t ↔ x = .ok a ∧ t = s := by
  unfold ofResult
  rw [exec_eq_ok]
  cases x with
  | error e => simp [Except.map]
  | ok b => simp [Except.map, eq_comm]

theorem ofResult_error {x : Except ε α} (h : x = .error e) :
    (ofResult x : EStateM ε σ α) s = .error e s := by
  subst h
  rfl

theorem modify_eq_ok {f : σ → σ} {a : PUnit} :
    (modify f : EStateM ε σ PUnit) s = .ok a t ↔ t = f s := by
  rw [modify_run]
  simp [eq_comm]

def ignoring (p : ε → Bool) (x : EStateM ε σ PUnit) : EStateM ε σ PUnit := fun s =>
  match x s with
  | .ok a t => .ok a t
  | .error e t => if p e then .ok ⟨⟩ t else .error e t

theorem ignoring_eq_ok {p : ε → Bool} {x : EStateM ε σ PUnit} :
    ignoring p x s = .ok ⟨⟩ t ↔ x s = .ok ⟨⟩ t ∨ ∃ e, p e = true ∧ x s = .error e t := by
  unfold ignoring
  cases h : x s with
  | ok a u => simp
  | error e u =>
    by_cases hp : p e = true
    · simp [hp]
    · simp [hp]

theorem ignoring_of_ok {p : ε → Bool} {x : EStateM ε σ PUnit} (h : x s = .ok ⟨⟩ t) :
    ignoring p x s = .ok ⟨⟩ t := ignoring_eq_ok.mpr (.inl h)

theorem ignoring_of_error {p : ε → Bool} {x : EStateM ε σ PUnit} (h : x s = .error e t)
    (hp : p e = true) : ignoring p x s = .ok ⟨⟩ t := ignoring_eq_ok.mpr (.inr ⟨e, hp, h⟩)

section
variable (run : γ → EStateM ε σ PUnit)

def forEach : List γ → EStateM ε σ PUnit
  | [] => pure ⟨⟩
  | c :: cs => do
    run c
    forEach cs

end

theorem forEach_ofResult_eq_ok {check : γ → Except ε PUnit} {cs : List γ} :
    forEach (fun c => ofResult (check c)) cs s = .ok ⟨⟩ t ↔
      (∀ c ∈ cs, check c = .ok ⟨⟩) ∧ t = s := by
  induction cs with
  | nil => simp [forEach, pure_eq_ok]
  | cons c cs ih =>
    rw [forEach, bind_eq_ok, List.forall_mem_cons, and_assoc]
    constructor
    · rintro ⟨⟨⟩, u, hc, hcs⟩
      obtain ⟨hok, rfl⟩ := ofResult_eq_ok.mp hc
      exact ⟨hok, ih.mp hcs⟩
    · rintro ⟨hok, hcs⟩
      exact ⟨⟨⟩, s, ofResult_eq_ok.mpr ⟨hok, rfl⟩, ih.mpr hcs⟩

def transaction (x : EStateM ε σ α) : EStateM ε σ α := fun s =>
  match x s with
  | .ok a t => .ok a t
  | .error e _ => .error e s

theorem transaction_eq_ok {x : EStateM ε σ α} {a : α} :
    transaction x s = .ok a t ↔ x s = .ok a t := by
  unfold transaction
  split
  · next b u h => simp [h]
  · next e u h => simp [h]

theorem transaction_error {x : EStateM ε σ α} (h : transaction x s = .error e t) : t = s := by
  unfold transaction at h
  split at h
  · cases h
  · cases h
    rfl

section
variable {P : σ → Prop} {x : EStateM ε σ α}

/-- The state a program leaves, however it ends. -/
def after (x : EStateM ε σ α) (s : σ) : σ :=
  match x s with
  | .ok _ t => t
  | .error _ t => t

theorem after_ok {a : α} (h : x s = .ok a t) : after x s = t := by
  rw [after, h]

theorem after_error (h : x s = .error e t) : after x s = t := by
  rw [after, h]

theorem after_congr {y : EStateM ε σ α} (h : x s = y t) : after x s = after y t := by
  rw [after, after, h]

abbrev Keeps (P : σ → Prop) (x : EStateM ε σ α) : Prop := Triple P x (fun _ => P) fun _ => P

theorem Keeps.after (h : Keeps P x) (hs : P s) : P (after x s) := by
  cases hx : x s with
  | ok a t => exact after_ok hx ▸ h.of_ok hs hx
  | error e t => exact after_error hx ▸ h.of_error hs hx

theorem Keeps.exec {f : σ → Except ε (α × σ)}
    (h : ∀ s a t, P s → f s = .ok (a, t) → P t) : Keeps P (exec f) := by
  intro s hs
  unfold Transactions.exec
  cases hf : f s with
  | error e => exact hs
  | ok r => exact h s r.1 r.2 hs hf

theorem Keeps.ofResult {x : Except ε α} : Keeps P (ofResult x : EStateM ε σ α) := by
  refine Keeps.exec fun s a t hs h => ?_
  cases x with
  | error e => cases h
  | ok b =>
    cases h
    exact hs

theorem Keeps.check {p : Bool} {e : ε} : Keeps P (check p e : EStateM ε σ PUnit) :=
  Triple.ite (fun _ => Triple.pure fun _ => id) fun _ => Triple.throw fun _ => id

theorem Keeps.bind {x : EStateM ε σ α} {f : α → EStateM ε σ β} (hx : Keeps P x)
    (hf : ∀ a, Keeps P (f a)) : Keeps P (x >>= f) := Triple.bind hx hf

theorem Keeps.ignoring {p : ε → Bool} {x : EStateM ε σ PUnit} (h : Keeps P x) :
    Keeps P (ignoring p x) := by
  intro s hs
  unfold Transactions.ignoring
  cases hx : x s with
  | ok a t => exact Triple.of_ok h hs hx
  | error e t =>
    have ht := Triple.of_error h hs hx
    by_cases hp : p e = true
    · simpa [hp] using ht
    · simpa [hp] using ht

theorem Keeps.forEach {run : γ → EStateM ε σ PUnit} (h : ∀ c, Keeps P (run c)) (cs : List γ) :
    Keeps P (forEach run cs) := by
  induction cs with
  | nil => exact Triple.pure fun s hs => hs
  | cons c cs ih => exact Triple.bind (h c) fun _ => ih

end

end Cta.Lib.Transactions

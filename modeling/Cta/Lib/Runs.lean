import Mathlib.Data.List.Basic

/-! Runs of a machine that takes one call after another. -/
namespace Cta.Lib.Runs
variable {σ κ : Type*} {next : σ → κ → σ} {P Q : σ → κ → Prop} {I : σ → Prop}

/-- Every call of a run, made in the state the earlier calls lead to, has a property. -/
def AllSteps (next : σ → κ → σ) (P : σ → κ → Prop) : σ → List κ → Prop
  | _, [] => True
  | s, c :: cs => P s c ∧ AllSteps next P (next s c) cs

instance AllSteps.decidable [∀ s c, Decidable (P s c)] :
    ∀ (s : σ) (cs : List κ), Decidable (AllSteps next P s cs)
  | _, [] => inferInstanceAs (Decidable True)
  | s, c :: cs =>
    have := AllSteps.decidable (next s c) cs
    inferInstanceAs (Decidable (P s c ∧ AllSteps next P (next s c) cs))

theorem AllSteps.of_invariant (hstep : ∀ s c, I s → P s c → Q s c ∧ I (next s c)) {s : σ}
    {cs : List κ} (hs : I s) (h : AllSteps next P s cs) : AllSteps next Q s cs := by
  induction cs generalizing s with
  | nil => trivial
  | cons c cs ih =>
    obtain ⟨hq, hi⟩ := hstep s c hs h.1
    exact ⟨hq, ih hi h.2⟩

theorem allSteps_iff {s : σ} {cs : List κ}
    (hstep : ∀ s, ∀ c ∈ cs, I s → (P s c ↔ Q s c) ∧ (Q s c → I (next s c))) (hs : I s) :
    AllSteps next P s cs ↔ AllSteps next Q s cs := by
  induction cs generalizing s with
  | nil => exact Iff.rfl
  | cons c cs ih =>
    obtain ⟨hiff, hkeep⟩ := hstep s c List.mem_cons_self hs
    have hrest := fun hq => ih (fun s d hd => hstep s d (List.mem_cons_of_mem c hd)) (hkeep hq)
    constructor
    · rintro ⟨hp, hlater⟩
      exact ⟨hiff.mp hp, (hrest (hiff.mp hp)).mp hlater⟩
    · rintro ⟨hq, hlater⟩
      exact ⟨hiff.mpr hq, (hrest hq).mpr hlater⟩

theorem allSteps_append {s : σ} {cs ds : List κ} : AllSteps next P s (cs ++ ds) ↔
    AllSteps next P s cs ∧ AllSteps next P (cs.foldl next s) ds := by
  induction cs generalizing s with
  | nil => simp [AllSteps]
  | cons c cs ih =>
    rw [List.cons_append, AllSteps, AllSteps, ih, List.foldl_cons, and_assoc]

theorem AllSteps.and {s : σ} {cs : List κ} (h : AllSteps next P s cs)
    (h' : AllSteps next Q s cs) : AllSteps next (fun s c => P s c ∧ Q s c) s cs := by
  induction cs generalizing s with
  | nil => trivial
  | cons c cs ih => exact ⟨⟨h.1, h'.1⟩, ih h.2 h'.2⟩

theorem AllSteps.last {s : σ} {cs : List κ} {c : κ} (h : AllSteps next P s (cs ++ [c])) :
    P (cs.foldl next s) c := by
  induction cs generalizing s with
  | nil => exact h.1
  | cons d ds ih => exact ih h.2

/-- Every state of a run has a property, the first and the last one too. -/
def AllStates (next : σ → κ → σ) (P : σ → Prop) : σ → List κ → Prop
  | s, [] => P s
  | s, c :: cs => P s ∧ AllStates next P (next s c) cs

theorem AllStates.append {P : σ → Prop} {s : σ} {cs ds : List κ}
    (h : AllStates next P s cs) (h' : AllStates next P (cs.foldl next s) ds) :
    AllStates next P s (cs ++ ds) := by
  induction cs generalizing s with
  | nil => exact h'
  | cons c cs ih => exact ⟨h.1, ih h.2 h'⟩

theorem AllStates.last {P : σ → Prop} {s : σ} {cs : List κ} (h : AllStates next P s cs) :
    P (cs.foldl next s) := by
  induction cs generalizing s with
  | nil => exact h
  | cons c cs ih => exact ih h.2

theorem AllStates.of_invariant {P : σ → Prop} {s : σ} {cs : List κ} (hs : I s)
    (hstep : ∀ s, ∀ c ∈ cs, I s → I (next s c)) (hp : ∀ s, I s → P s) :
    AllStates next P s cs := by
  induction cs generalizing s with
  | nil => exact hp s hs
  | cons c cs ih =>
    exact ⟨hp s hs, ih (hstep s c List.mem_cons_self hs)
      fun s d hd => hstep s d (List.mem_cons_of_mem c hd)⟩

theorem AllSteps.allStates {T : σ → Prop} (hstep : ∀ s c, I s → P s c → I (next s c))
    (hT : ∀ s, I s → T s) {s : σ} {cs : List κ} (hs : I s) (h : AllSteps next P s cs) :
    AllStates next T s cs := by
  induction cs generalizing s with
  | nil => exact hT s hs
  | cons c cs ih => exact ⟨hT s hs, ih (hstep s c hs h.1) h.2⟩

theorem AllStates.head {T : σ → Prop} {s : σ} {cs : List κ} (h : AllStates next T s cs) : T s := by
  cases cs with
  | nil => exact h
  | cons c cs => exact h.1

theorem AllSteps.trivial {s : σ} {cs : List κ} : AllSteps next (fun _ _ => True) s cs := by
  induction cs generalizing s with
  | nil => exact True.intro
  | cons c cs ih => exact ⟨True.intro, ih⟩

/-- If, of the calls that are allowed, a property is kept by those with another property and by no
other, the two hold along the same runs of allowed calls. -/
theorem AllSteps.allStates_iff {A : σ → κ → Prop} {T : σ → Prop}
    (hT : ∀ s c, I s → A s c → T s → (T (next s c) ↔ P s c))
    (hI : ∀ s c, I s → A s c → T s → P s c → I (next s c)) {s : σ} {cs : List κ}
    (h : AllSteps next A s cs) (hs : I s) (ht : T s) :
    AllStates next T s cs ↔ AllSteps next P s cs := by
  induction cs generalizing s with
  | nil => exact ⟨fun _ => True.intro, fun _ => ht⟩
  | cons c cs ih =>
    constructor
    · intro hall
      have hp := (hT s c hs h.1 ht).mp hall.2.head
      exact ⟨hp, (ih h.2 (hI s c hs h.1 ht hp) hall.2.head).mp hall.2⟩
    · intro hall
      have ht' := (hT s c hs h.1 ht).mpr hall.1
      exact ⟨ht, (ih h.2 (hI s c hs h.1 ht hall.1) ht').mpr hall.2⟩

theorem allStates_iff_allSteps {T : σ → Prop}
    (hT : ∀ s c, I s → T s → (T (next s c) ↔ P s c))
    (hI : ∀ s c, I s → T s → P s c → I (next s c)) {s : σ} {cs : List κ} (hs : I s) (ht : T s) :
    AllStates next T s cs ↔ AllSteps next P s cs :=
  AllSteps.trivial.allStates_iff (fun s c hs _ => hT s c hs) (fun s c hs _ => hI s c hs) hs ht

def onKey {ι : Type*} [DecidableEq ι] (next : σ → κ → σ) (s : ι → σ) (c : ι × κ) : ι → σ :=
  Function.update s c.1 (next (s c.1) c.2)

theorem AllSteps.allStates_onKey {ι : Type*} [DecidableEq ι] {T : σ → Prop}
    (hstep : ∀ s c, I s → P s c → I (next s c)) (hT : ∀ s, I s → T s) {s : ι → σ}
    {cs : List (ι × κ)} (hs : ∀ n, I (s n))
    (h : AllSteps (onKey next) (fun s c => P (s c.1) c.2) s cs) :
    AllStates (onKey next) (fun s => ∀ n, T (s n)) s cs := by
  refine h.allStates (I := fun s => ∀ n, I (s n)) (fun s c hi hp n => ?_)
    (fun s hi n => hT _ (hi n)) hs
  by_cases hn : n = c.1
  · subst hn
    simpa [onKey] using hstep _ _ (hi c.1) hp
  · simpa [onKey, hn] using hi n

inductive Reachable (init : σ → Prop) (step : σ → σ → Prop) : σ → Prop
  | init {s : σ} : init s → Reachable init step s
  | step {s t : σ} : Reachable init step s → step s t → Reachable init step t

theorem Reachable.invariant {init : σ → Prop} {step : σ → σ → Prop} {s : σ}
    (h : Reachable init step s) (hinit : ∀ s, init s → I s)
    (hstep : ∀ s t, I s → step s t → I t) : I s := by
  induction h with
  | init h => exact hinit _ h
  | step _ h ih => exact hstep _ _ ih h

end Cta.Lib.Runs

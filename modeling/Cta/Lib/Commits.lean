import Mathlib.Data.List.Induction
import Mathlib.Order.Lattice
import Mathlib.Data.Nat.Basic

/-! A procedure that commits one update after another, can stop after any of them and is then
run again from the start. -/
namespace Cta.Lib.Commits
variable {σ ε : Type*} {cs : List (σ → Except ε σ)} {Stage : ℕ → σ → Prop}

/-- Updates in order, up to the first one that fails: what is stored then and the failure. -/
def runCommits : List (σ → Except ε σ) → σ → σ × Option ε
  | [], s => (s, none)
  | c :: cs, s =>
    match c s with
    | .ok t => runCommits cs t
    | .error e => (s, some e)

theorem runCommits_append {cs ds : List (σ → Except ε σ)} {s t : σ}
    (h : runCommits cs s = (t, none)) : runCommits (cs ++ ds) s = runCommits ds t := by
  induction cs generalizing s with
  | nil =>
    cases h
    rfl
  | cons c cs ih =>
    cases hc : c s with
    | error e => simp [runCommits, hc] at h
    | ok s' =>
      simp only [runCommits, hc] at h
      simp only [List.cons_append, runCommits, hc]
      exact ih h

def replay (cs : List (σ → Except ε σ)) (s : σ) (stops : List ℕ) : σ × Option ε :=
  runCommits cs (stops.foldl (fun t n => (runCommits (cs.take n) t).1) s)

/-- Every update can be made again on what any later update left, and that changes nothing of
what has been reached. -/
def Repeatable (cs : List (σ → Except ε σ)) (Stage : ℕ → σ → Prop) : Prop :=
  ∀ i c, cs[i]? = some c → ∀ j s, i ≤ j → Stage j s → ∃ t, c s = .ok t ∧ Stage (max j (i + 1)) t

theorem Repeatable.runCommits (h : Repeatable cs Stage) (n : ℕ) {j : ℕ} {s : σ} (hs : Stage j s) :
    ∃ t, Commits.runCommits (cs.take n) s = (t, none) ∧ Stage (max j (min n cs.length)) t := by
  induction n with
  | zero => exact ⟨s, by simp [Commits.runCommits], by simpa using hs⟩
  | succ n ih =>
    obtain ⟨t, ht, hstage⟩ := ih
    cases hc : cs[n]? with
    | none =>
      have hlen : cs.length ≤ n := List.getElem?_eq_none_iff.mp hc
      refine ⟨t, ?_, ?_⟩
      · rw [List.take_of_length_le (by omega)]
        rwa [List.take_of_length_le hlen] at ht
      · rw [min_eq_right (by omega)]
        rwa [min_eq_right hlen] at hstage
    | some c =>
      have hlen : n < cs.length := (List.getElem?_eq_some_iff.mp hc).1
      rw [min_eq_left hlen.le] at hstage
      obtain ⟨u, hu, hstage'⟩ := h n c hc _ t (le_max_right j n) hstage
      refine ⟨u, ?_, ?_⟩
      · rw [List.take_add_one, hc, runCommits_append ht]
        simp [Commits.runCommits, hu]
      · have heq : max j (min (n + 1) cs.length) = max (max j n) (n + 1) := by omega
        rw [heq]
        exact hstage'

theorem Repeatable.replay (h : Repeatable cs Stage) {s : σ} (hs : Stage 0 s) (stops : List ℕ) :
    ∃ t, Commits.replay cs s stops = (t, none) ∧ Stage cs.length t := by
  have hreached : ∃ j, j ≤ cs.length ∧
      Stage j (stops.foldl (fun t n => (Commits.runCommits (cs.take n) t).1) s) := by
    induction stops using List.reverseRecOn with
    | nil => exact ⟨0, Nat.zero_le _, hs⟩
    | append_singleton stops n ih =>
      obtain ⟨j, hj, hstage⟩ := ih
      obtain ⟨t, ht, hstage'⟩ := h.runCommits n hstage
      refine ⟨max j (min n cs.length), by omega, ?_⟩
      rw [List.foldl_append]
      simpa [ht] using hstage'
  obtain ⟨j, hj, hstage⟩ := hreached
  obtain ⟨t, ht, hstage'⟩ := h.runCommits cs.length hstage
  rw [List.take_length] at ht
  rw [min_self, max_eq_right hj] at hstage'
  exact ⟨t, ht, hstage'⟩

end Cta.Lib.Commits

import Mathlib.Data.List.Perm.Basic
import Mathlib.Data.List.TakeDrop

/-! Lists that are searched for the first entry that fits, which is then moved to the front. -/
namespace Cta.Lib.MoveToFront
variable {α β γ : Type*}

def extract (fits : α → Bool) : List α → Option (α × List α)
  | [] => none
  | a :: l => if fits a then some (a, l) else (extract fits l).map fun r => (r.1, a :: r.2)

def touch (fits : α → Bool) (l : List α) : List α :=
  match extract fits l with
  | some (a, rest) => a :: rest
  | none => l

section
variable {fits : α → Bool} {l : List α}

theorem extract_eq_some {a : α} {rest : List α} (h : extract fits l = some (a, rest)) :
    ∃ before after, l = before ++ a :: after ∧ rest = before ++ after ∧ fits a = true ∧
      ∀ b ∈ before, fits b = false := by
  induction l generalizing rest with
  | nil => cases h
  | cons b l ih =>
    rw [extract] at h
    by_cases hb : fits b = true
    · rw [if_pos hb] at h
      cases h
      exact ⟨[], l, rfl, rfl, hb, nofun⟩
    · rw [if_neg hb] at h
      obtain ⟨r, hr, heq⟩ := Option.map_eq_some_iff.mp h
      cases heq
      obtain ⟨before, after, hl, hrest, ha, hbefore⟩ := ih hr
      refine ⟨b :: before, after, by rw [hl]; rfl, by rw [hrest]; rfl, ha, ?_⟩
      exact List.forall_mem_cons.mpr ⟨Bool.eq_false_iff.mpr hb, hbefore⟩

theorem map_extract (fits : α → Bool) (l : List α) :
    (extract fits l).map (·.1) = l.find? fits := by
  induction l with
  | nil => rfl
  | cons a l ih =>
    by_cases ha : fits a = true
    · simp [extract, ha]
    · simp [extract, ha, ← ih, Function.comp_def]

theorem touch_perm (fits : α → Bool) (l : List α) : (touch fits l).Perm l := by
  unfold touch
  split
  · next a rest h =>
    obtain ⟨before, after, rfl, rfl, -, -⟩ := extract_eq_some h
    exact List.perm_middle.symm
  · exact .refl l

theorem head_touch {a : α} (h : l.find? fits = some a) : (touch fits l).head? = some a := by
  rw [← map_extract] at h
  obtain ⟨r, hr, rfl⟩ := Option.map_eq_some_iff.mp h
  rw [touch, hr]
  rfl

end

def Before (l : List α) (d e : α) : Prop := ∀ before after, l = before ++ e :: after → d ∈ before

theorem Before.touch {fits : α → Bool} {l : List α} {d e : α} (h : Before l d e)
    (he : l.find? fits ≠ some e) : Before (touch fits l) d e := by
  intro before after hsplit
  unfold MoveToFront.touch at hsplit
  split at hsplit
  · next a rest hextract =>
    obtain ⟨front, back, rfl, rfl, -, -⟩ := extract_eq_some hextract
    rw [← map_extract, hextract] at he
    cases before with
    | nil =>
      cases hsplit
      exact absurd rfl he
    | cons b before =>
      obtain ⟨rfl, hrest⟩ := List.cons.inj hsplit
      obtain ⟨middle, rfl, hback⟩ | ⟨middle, rfl, hback⟩ := List.append_eq_append_iff.mp hrest
      · have hd := h (front ++ a :: middle) after (by rw [hback]; simp)
        grind
      · cases middle with
        | nil =>
          have hd := h (before ++ [a]) after (by simpa using hback.symm)
          grind
        | cons c middle =>
          obtain ⟨rfl, -⟩ := List.cons.inj hback
          exact List.mem_cons_of_mem a (h before (middle ++ a :: back) (by simp))
  · exact h before after hsplit

section
variable (fits : β → α → Bool) (l : List α)

def touchAll (history : List β) : List α := history.foldl (fun l x => touch (fits x) l) l

def Hit (e : α) : Prop := ∃ x, l.find? (fits x) = some e

/-- A rearrangement that brought only entries forward that a search of the original list finds. -/
structure Rearranged (m : List α) : Prop where
  perm : m.Perm l
  before : ∀ d e, ¬Hit fits l e → Before l d e → Before m d e

variable {fits l} {m : List α}

theorem Rearranged.hit (h : Rearranged fits l m) {x : β} {e : α}
    (hfound : m.find? (fits x) = some e) : Hit fits l e := by
  by_contra hhit
  obtain ⟨hfits, before, after, hm, hbefore⟩ := List.find?_eq_some_iff_append.mp hfound
  obtain ⟨d, hd⟩ : ∃ d, l.find? (fits x) = some d := by
    rw [← Option.isSome_iff_exists, List.find?_isSome]
    exact ⟨e, h.perm.mem_iff.mp (List.mem_of_find?_eq_some hfound), hfits⟩
  have hl : Before l d e := by
    rintro before' after' rfl
    rw [List.find?_append] at hd
    cases hfirst : before'.find? (fits x) with
    | some c =>
      rw [hfirst, Option.some_or] at hd
      cases hd
      exact List.mem_of_find?_eq_some hfirst
    | none =>
      rw [hfirst, Option.none_or, List.find?_cons_of_pos hfits] at hd
      cases hd
      exact absurd ⟨x, by rw [List.find?_append, hfirst, Option.none_or,
        List.find?_cons_of_pos hfits]⟩ hhit
  have hfirst := hbefore d (h.before d e hhit hl before after hm)
  rw [List.find?_some hd] at hfirst
  exact Bool.noConfusion hfirst

theorem Rearranged.touch (h : Rearranged fits l m) (x : β) :
    Rearranged fits l (touch (fits x) m) where
  perm := (touch_perm _ m).trans h.perm
  before d e hhit hl := (h.before d e hhit hl).touch fun hfound => hhit (h.hit hfound)

theorem rearranged_touchAll (fits : β → α → Bool) (l : List α) (history : List β) :
    Rearranged fits l (touchAll fits l history) := by
  have hstep : ∀ m, Rearranged fits l m →
      Rearranged fits l (history.foldl (fun l x => MoveToFront.touch (fits x) l) m) := by
    induction history with
    | nil => exact fun _ h => h
    | cons x history ih => exact fun m h => ih _ (h.touch x)
  exact hstep l ⟨.refl l, fun _ _ _ h => h⟩

/-- No history changes what is found, up to `f`, if and only if `f` agrees on the first entry that
fits and any other one that fits and is itself found first by some search. -/
theorem find_touchAll_iff (fits : β → α → Bool) (l : List α) (f : α → γ) :
    (∀ history x, ((touchAll fits l history).find? (fits x)).map f =
        (l.find? (fits x)).map f) ↔
      ∀ x y d e, l.find? (fits x) = some d → l.find? (fits y) = some e → fits x e = true →
        f e = f d := by
  constructor
  · intro h x y d e hd he hfits
    have hhead := head_touch he
    obtain ⟨rest, hrest⟩ : ∃ rest, MoveToFront.touch (fits y) l = e :: rest := by
      cases hl : MoveToFront.touch (fits y) l with
      | nil =>
        rw [hl] at hhead
        cases hhead
      | cons b rest =>
        rw [hl] at hhead
        cases hhead
        exact ⟨rest, rfl⟩
    have hsame := h [y] x
    simp only [touchAll, List.foldl_cons, List.foldl_nil, hrest, List.find?_cons_of_pos hfits, hd,
      Option.map_some] at hsame
    exact Option.some.inj hsame
  · intro h history x
    have hm := rearranged_touchAll fits l history
    cases hfound : (touchAll fits l history).find? (fits x) with
    | none =>
      have hnone : l.find? (fits x) = none := by
        rw [List.find?_eq_none] at hfound ⊢
        exact fun a ha => hfound a (hm.perm.mem_iff.mpr ha)
      rw [hnone]
    | some e =>
      have hfits := List.find?_some hfound
      obtain ⟨d, hd⟩ : ∃ d, l.find? (fits x) = some d := by
        rw [← Option.isSome_iff_exists, List.find?_isSome]
        exact ⟨e, hm.perm.mem_iff.mp (List.mem_of_find?_eq_some hfound), hfits⟩
      obtain ⟨y, hy⟩ := hm.hit hfound
      rw [hd, Option.map_some, Option.map_some, h x y d e hd hy hfits]

end

end Cta.Lib.MoveToFront

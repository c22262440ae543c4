import Mathlib.Data.List.Infix
import Mathlib.Tactic.SplitIfs
import Mathlib.Tactic.ByContra

/-! The pattern match on volume identifiers, with pointers that may pass the end of the identifier.
A string is the list of its characters, its end is the terminator. -/
namespace Cta.MediaChanger.CartridgePattern

inductive Matches : List UInt8 → List UInt8 → Prop
  | nil : Matches [] []
  | any (v : UInt8) {pattern vid : List UInt8} :
      Matches pattern vid → Matches (63 :: pattern) (v :: vid)
  | star (skipped : List UInt8) {pattern vid : List UInt8} :
      Matches pattern vid → Matches (42 :: pattern) (skipped ++ vid)
  | char {c : UInt8} {pattern vid : List UInt8} (hany : c ≠ 63) (hstar : c ≠ 42) :
      Matches pattern vid → Matches (c :: pattern) (c :: vid)

/-- The loop behind a `*`, with the match of the rest of the pattern. `none`: it reads the character
behind the terminator. -/
def retry (rest : List UInt8 → Option Nat) : List UInt8 → Option Nat
  | [] => if rest [] = some 0 then some 0 else none
  | v :: vid =>
    match rest (v :: vid) with
    | none => none
    | some 0 => some 0
    | some _ => if vid = [] then some 1 else retry rest vid

def vmatch : List UInt8 → List UInt8 → Option Nat
  | [], vid => some (if vid = [] then 0 else 1)
  | p :: pattern, vid =>
    if p = 42 then
      -- a trailing * matches the rest
      if pattern = [] then some 0 else retry (vmatch pattern) vid
    else
      match vid with
      | [] => some 1
      | v :: vid => if p = 63 ∨ p = v then vmatch pattern vid else some 1

def Right (pattern vid : List UInt8) : Prop :=
  ∃ result, vmatch pattern vid = some result ∧ (result = 0 ↔ Matches pattern vid)

/-- All of the identifier matches what stands in front of a `*`, without a `*` at its end, and there
is more than stars behind it. -/
def StarAtEnd (pattern vid : List UInt8) : Prop :=
  ∃ front rest, pattern = front ++ 42 :: rest ∧ front.getLast? ≠ some 42 ∧ (∃ c ∈ rest, c ≠ 42) ∧
    Matches front vid

theorem matches_nil {vid : List UInt8} : Matches [] vid ↔ vid = [] := by
  constructor
  · intro h
    cases h
    rfl
  · rintro rfl
    exact .nil

theorem matches_cons {p : UInt8} {pattern vid : List UInt8} (hp : p ≠ 42) :
    Matches (p :: pattern) vid ↔ ∃ v rest, vid = v :: rest ∧ (p = 63 ∨ p = v) ∧
      Matches pattern rest := by
  constructor
  · intro h
    cases h with
    | any v h => exact ⟨v, _, rfl, .inl rfl, h⟩
    | star => exact absurd rfl hp
    | char _ _ h => exact ⟨p, _, rfl, .inr rfl, h⟩
  · rintro ⟨v, rest, rfl, hv, h⟩
    by_cases hany : p = 63
    · subst hany
      exact .any v h
    · obtain rfl := hv.resolve_left hany
      exact .char hany hp h

theorem matches_star {pattern vid : List UInt8} :
    Matches (42 :: pattern) vid ↔ ∃ rest, rest <:+ vid ∧ Matches pattern rest := by
  constructor
  · intro h
    cases h with
    | star skipped h => exact ⟨_, List.suffix_append skipped _, h⟩
    | char _ hstar _ => exact absurd rfl hstar
  · rintro ⟨rest, ⟨skipped, rfl⟩, h⟩
    exact .star skipped h

theorem matches_stars {pattern : List UInt8} (h : ∀ c ∈ pattern, c = 42) (hne : pattern ≠ [])
    (vid : List UInt8) : Matches pattern vid := by
  induction pattern with
  | nil => exact absurd rfl hne
  | cons p pattern ih =>
    obtain rfl := h p List.mem_cons_self
    by_cases hnil : pattern = []
    · exact matches_star.mpr ⟨[], List.nil_suffix, hnil ▸ .nil⟩
    · have hrest := ih (fun c hc => h c (List.mem_cons_of_mem _ hc)) hnil
      exact matches_star.mpr ⟨vid, List.suffix_rfl, hrest⟩

theorem not_matches_empty {pattern : List UInt8} (h : ∃ c ∈ pattern, c ≠ 42) :
    ¬ Matches pattern [] := by
  obtain ⟨c, hc, hne⟩ := h
  induction pattern with
  | nil => simp at hc
  | cons p pattern ih =>
    by_cases hp : p = 42
    · subst hp
      intro hm
      obtain ⟨rest, hsuffix, hrest⟩ := matches_star.mp hm
      obtain rfl := List.suffix_nil.mp hsuffix
      exact ih ((List.mem_cons.mp hc).resolve_left hne) hrest
    · intro hm
      obtain ⟨v, rest, hv, -⟩ := (matches_cons hp).mp hm
      simp at hv

theorem Matches.of_suffix {front rest vid part : List UInt8} (hfront : Matches front vid)
    (hpart : Matches (front ++ 42 :: rest) part) (hsuffix : part <:+ vid) :
    Matches (front ++ 42 :: rest) vid := by
  induction front generalizing vid part with
  | nil =>
    obtain ⟨last, hlast, hm⟩ := matches_star.mp hpart
    exact matches_star.mpr ⟨last, hlast.trans hsuffix, hm⟩
  | cons p front ih =>
    by_cases hp : p = 42
    · subst hp
      obtain ⟨last, hlast, hm⟩ := matches_star.mp hpart
      exact matches_star.mpr ⟨last, hlast.trans hsuffix, hm⟩
    · obtain ⟨v, vid, rfl, hv, hfront⟩ := (matches_cons hp).mp hfront
      obtain ⟨w, part, rfl, -, hpart⟩ := (matches_cons hp).mp hpart
      have hsuffix : part <:+ vid := by
        rcases List.suffix_cons_iff.mp hsuffix with heq | hsuffix
        · exact (List.cons.inj heq).2 ▸ List.suffix_rfl
        · exact (List.suffix_cons w part).trans hsuffix
      exact (matches_cons hp).mpr ⟨v, vid, rfl, hv, ih hfront hpart hsuffix⟩

theorem not_starAtEnd_nil (vid : List UInt8) : ¬ StarAtEnd [] vid := by
  rintro ⟨front, rest, h, -⟩
  simp at h

theorem getLast_cons (p : UInt8) (front : List UInt8) :
    (p :: front).getLast? ≠ some 42 ↔
      if front = [] then p ≠ 42 else front.getLast? ≠ some 42 := by
  cases front with
  | nil => simp
  | cons c front => rw [List.getLast?_cons_cons, if_neg (List.cons_ne_nil _ _)]

theorem starAtEnd_cons {p : UInt8} {pattern vid : List UInt8} (hp : p ≠ 42) :
    StarAtEnd (p :: pattern) vid ↔ ∃ v rest, vid = v :: rest ∧ (p = 63 ∨ p = v) ∧
      StarAtEnd pattern rest := by
  constructor
  · rintro ⟨front, rest, heq, hlast, hrest, hm⟩
    rcases List.cons_eq_append_iff.mp heq with ⟨-, h⟩ | ⟨front, rfl, rfl⟩
    · exact absurd (List.cons.inj h).1.symm hp
    · obtain ⟨v, vid, rfl, hv, hm⟩ := (matches_cons hp).mp hm
      refine ⟨v, vid, rfl, hv, front, rest, rfl, ?_, hrest, hm⟩
      rw [getLast_cons] at hlast
      split_ifs at hlast with hnil
      · simp [hnil]
      · exact hlast
  · rintro ⟨v, vid, rfl, hv, front, rest, rfl, hlast, hrest, hm⟩
    refine ⟨p :: front, rest, rfl, ?_, hrest, (matches_cons hp).mpr ⟨v, vid, rfl, hv, hm⟩⟩
    rw [getLast_cons]
    split_ifs
    · exact hp
    · exact hlast

theorem starAtEnd_star {pattern vid : List UInt8} :
    StarAtEnd (42 :: pattern) vid ↔ vid = [] ∧ (∃ c ∈ pattern, c ≠ 42) ∨
      ∃ part, part ≠ [] ∧ part <:+ vid ∧ StarAtEnd pattern part := by
  constructor
  · rintro ⟨front, rest, heq, hlast, hrest, hm⟩
    rcases List.cons_eq_append_iff.mp heq with ⟨rfl, h⟩ | ⟨front, rfl, rfl⟩
    · obtain rfl := (List.cons.inj h).2
      exact .inl ⟨matches_nil.mp hm, hrest⟩
    · rw [getLast_cons] at hlast
      split_ifs at hlast with hnil
      · exact absurd rfl hlast
      · obtain ⟨part, hsuffix, hm⟩ := matches_star.mp hm
        refine .inr ⟨part, ?_, hsuffix, front, rest, rfl, hlast, hrest, hm⟩
        -- the last character of the front is matched by one of the identifier
        rintro rfl
        refine not_matches_empty ⟨front.getLast hnil, List.getLast_mem hnil, fun h => ?_⟩ hm
        exact hlast (by rw [List.getLast?_eq_some_getLast hnil, h])
  · rintro (⟨rfl, hrest⟩ | ⟨part, hne, hsuffix, front, rest, rfl, hlast, hrest, hm⟩)
    · exact ⟨[], pattern, rfl, by simp, hrest, .nil⟩
    · refine ⟨42 :: front, rest, rfl, ?_, hrest, matches_star.mpr ⟨part, hsuffix, hm⟩⟩
      rw [getLast_cons, if_neg]
      · exact hlast
      · rintro rfl
        exact hne (matches_nil.mp hm)

structure Outcome (pattern vid : List UInt8) (result : Option Nat) : Prop where
  found : Matches pattern vid → result = some 0
  passed : ¬ Matches pattern vid → StarAtEnd pattern vid → result = none
  refused : ¬ Matches pattern vid → ¬ StarAtEnd pattern vid → result = some 1

theorem Outcome.found_iff {pattern vid : List UInt8} {result : Option Nat}
    (h : Outcome pattern vid result) : result = some 0 ↔ Matches pattern vid := by
  constructor
  · intro hresult
    by_contra hm
    by_cases hstar : StarAtEnd pattern vid
    · exact absurd (hresult.symm.trans (h.passed hm hstar)) (by simp)
    · exact absurd (hresult.symm.trans (h.refused hm hstar)) (by simp)
  · exact h.found

theorem retry_empty {pattern : List UInt8} (hne : pattern ≠ []) {result : Option Nat}
    (h : Outcome pattern [] result) :
    Outcome (42 :: pattern) [] (if result = some 0 then some 0 else none) := by
  have hiff : Matches (42 :: pattern) [] ↔ Matches pattern [] := by
    simp [matches_star, List.suffix_nil]
  have hfound := h.found_iff.trans hiff.symm
  refine ⟨fun hm => if_pos (hfound.mpr hm), fun hm _ => if_neg fun h => hm (hfound.mp h), ?_⟩
  intro hm hstar
  have hstars : ∀ c ∈ pattern, c = 42 := by
    intro c hc
    by_contra hne
    exact hstar (starAtEnd_star.mpr (.inl ⟨rfl, c, hc, hne⟩))
  exact absurd (hiff.mpr (matches_stars hstars hne [])) hm

theorem retry_outcome {pattern : List UInt8} (hne : pattern ≠ [])
    (h : ∀ vid, Outcome pattern vid (vmatch pattern vid)) (vid : List UInt8) :
    Outcome (42 :: pattern) vid (retry (vmatch pattern) vid) := by
  induction vid with
  | nil => exact retry_empty hne (h [])
  | cons v vid ih =>
    have hwhole := h (v :: vid)
    by_cases hm : Matches pattern (v :: vid)
    · have hstar := matches_star.mpr ⟨v :: vid, List.suffix_rfl, hm⟩
      simp only [retry, hwhole.found hm]
      exact ⟨fun _ => rfl, fun hn => absurd hstar hn, fun hn => absurd hstar hn⟩
    by_cases hend : StarAtEnd pattern (v :: vid)
    · have hend' : StarAtEnd (42 :: pattern) (v :: vid) :=
        starAtEnd_star.mpr (.inr ⟨_, List.cons_ne_nil _ _, List.suffix_rfl, hend⟩)
      simp only [retry, hwhole.passed hm hend]
      refine ⟨fun hstar => ?_, fun _ _ => rfl, fun _ hn => absurd hend' hn⟩
      obtain ⟨part, hsuffix, hpart⟩ := matches_star.mp hstar
      obtain ⟨front, rest, rfl, -, -, hfront⟩ := hend
      exact absurd (hfront.of_suffix hpart hsuffix) hm
    simp only [retry, hwhole.refused hm hend]
    -- a part that is tried later is a part of the rest of the identifier
    have hmatches : Matches (42 :: pattern) (v :: vid) ↔ Matches (42 :: pattern) vid := by
      rw [matches_star, matches_star]
      constructor
      · rintro ⟨part, hsuffix, hpart⟩
        rcases List.suffix_cons_iff.mp hsuffix with rfl | hsuffix
        · exact absurd hpart hm
        · exact ⟨part, hsuffix, hpart⟩
      · rintro ⟨part, hsuffix, hpart⟩
        exact ⟨part, hsuffix.trans (List.suffix_cons v vid), hpart⟩
    by_cases hvid : vid = []
    · subst hvid
      have hempty : ¬ Matches (42 :: pattern) [] := by
        intro hstar
        have hpart : Matches pattern [] := by simpa [matches_star, List.suffix_nil] using hstar
        refine hm (matches_stars (fun c hc => ?_) hne [v])
        by_contra hc'
        exact not_matches_empty ⟨c, hc, hc'⟩ hpart
      rw [if_pos rfl]
      refine ⟨fun hstar => absurd (hmatches.mp hstar) hempty, fun _ hstar => ?_, fun _ _ => rfl⟩
      rcases starAtEnd_star.mp hstar with ⟨h, -⟩ | ⟨part, hpart, hsuffix, hend'⟩
      · exact absurd h (List.cons_ne_nil _ _)
      · rcases List.suffix_cons_iff.mp hsuffix with rfl | hsuffix
        · exact absurd hend' hend
        · exact absurd (List.suffix_nil.mp hsuffix) hpart
    · have hends : StarAtEnd (42 :: pattern) (v :: vid) ↔ StarAtEnd (42 :: pattern) vid := by
        rw [starAtEnd_star, starAtEnd_star]
        simp only [List.cons_ne_nil, hvid, false_and, false_or]
        constructor
        · rintro ⟨part, hpart, hsuffix, hend'⟩
          rcases List.suffix_cons_iff.mp hsuffix with rfl | hsuffix
          · exact absurd hend' hend
          · exact ⟨part, hpart, hsuffix, hend'⟩
        · rintro ⟨part, hpart, hsuffix, hend'⟩
          exact ⟨part, hpart, hsuffix.trans (List.suffix_cons v vid), hend'⟩
      rw [if_neg hvid]
      exact ⟨fun h => ih.found (hmatches.mp h),
        fun h h' => ih.passed (fun hn => h (hmatches.mpr hn)) (hends.mp h'),
        fun h h' => ih.refused (fun hn => h (hmatches.mpr hn)) fun hn => h' (hends.mpr hn)⟩

theorem vmatch_outcome (pattern vid : List UInt8) : Outcome pattern vid (vmatch pattern vid) := by
  induction pattern generalizing vid with
  | nil =>
    have hnot := not_starAtEnd_nil vid
    by_cases hvid : vid = []
    · have hm := matches_nil.mpr hvid
      simp only [vmatch, if_pos hvid]
      exact ⟨fun _ => rfl, fun hn => absurd hm hn, fun hn => absurd hm hn⟩
    · simp only [vmatch, if_neg hvid]
      exact ⟨fun hm => absurd (matches_nil.mp hm) hvid, fun _ h => absurd h hnot, fun _ _ => rfl⟩
  | cons p pattern ih =>
    by_cases hp : p = 42
    · subst hp
      by_cases hne : pattern = []
      · subst hne
        have hm : Matches [42] vid := matches_star.mpr ⟨[], List.nil_suffix, .nil⟩
        exact ⟨fun _ => rfl, fun hn => absurd hm hn, fun hn => absurd hm hn⟩
      · simp only [vmatch, if_true, if_neg hne]
        exact retry_outcome hne ih vid
    · have hmatches : Matches (p :: pattern) vid ↔
          ∃ v rest, vid = v :: rest ∧ (p = 63 ∨ p = v) ∧ Matches pattern rest := matches_cons hp
      have hends : StarAtEnd (p :: pattern) vid ↔
          ∃ v rest, vid = v :: rest ∧ (p = 63 ∨ p = v) ∧ StarAtEnd pattern rest :=
        starAtEnd_cons hp
      by_cases hfirst : ∃ v rest, vid = v :: rest ∧ (p = 63 ∨ p = v)
      · obtain ⟨v, rest, rfl, hv⟩ := hfirst
        have hm : Matches (p :: pattern) (v :: rest) ↔ Matches pattern rest := by
          simp [hmatches, hv]
        have he : StarAtEnd (p :: pattern) (v :: rest) ↔ StarAtEnd pattern rest := by
          simp [hends, hv]
        simp only [vmatch, if_neg hp, if_pos hv]
        exact ⟨fun h => (ih rest).found (hm.mp h),
          fun h h' => (ih rest).passed (fun hn => h (hm.mpr hn)) (he.mp h'),
          fun h h' => (ih rest).refused (fun hn => h (hm.mpr hn)) fun hn => h' (he.mpr hn)⟩
      · have hresult : vmatch (p :: pattern) vid = some 1 := by
          cases vid with
          | nil => simp [vmatch, hp]
          | cons v rest =>
            have hv : ¬ (p = 63 ∨ p = v) := fun hv => hfirst ⟨v, rest, rfl, hv⟩
            simp only [vmatch, if_neg hp, if_neg hv]
        have hnot : ¬ StarAtEnd (p :: pattern) vid := fun h =>
          hfirst (let ⟨v, rest, hvid, hv, _⟩ := hends.mp h; ⟨v, rest, hvid, hv⟩)
        have hnot' : ¬ Matches (p :: pattern) vid := fun h =>
          hfirst (let ⟨v, rest, hvid, hv, _⟩ := hmatches.mp h; ⟨v, rest, hvid, hv⟩)
        exact ⟨fun h => absurd h hnot', fun _ h => absurd h hnot, fun _ _ => hresult⟩

/-- The match is right where the identifier matches, and where it does not, unless all of it matches
what stands in front of a `*` with more behind it. -/
theorem vmatch_right_iff (pattern vid : List UInt8) :
    Right pattern vid ↔ Matches pattern vid ∨ ¬ StarAtEnd pattern vid := by
  have h := vmatch_outcome pattern vid
  constructor
  · rintro ⟨result, hresult, -⟩
    by_contra hcond
    obtain ⟨hm, hend⟩ := not_or.mp hcond
    rw [h.passed hm (not_not.mp hend)] at hresult
    exact absurd hresult (by simp)
  · intro hcond
    by_cases hm : Matches pattern vid
    · exact ⟨0, h.found hm, iff_of_true rfl hm⟩
    · exact ⟨1, h.refused hm (hcond.resolve_left hm), iff_of_false (by simp) hm⟩

/-- The identifier of a cartridge without label ends where the pattern goes on behind its `*`. -/
theorem vmatch_passes_end : vmatch [42, 65] [] = none ∧ ¬ Right [42, 65] [] := by
  refine ⟨rfl, ?_⟩
  rintro ⟨result, hresult, -⟩
  cases hresult

end Cta.MediaChanger.CartridgePattern

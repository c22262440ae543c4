import Cta.Lib.Squeeze
import Mathlib.Data.List.Induction

/-! Texts with a single space where there was more whitespace. -/
namespace Cta.Common.SingleSpace
open Cta.Lib.Squeeze

def isBlank (c : Char) : Bool := c = ' ' || c = '\t'

structure Scan where
  inWhitespace : Bool
  strContainsNonWhiteSpace : Bool
  result : List Char
  deriving DecidableEq, Repr

def Scan.next (s : Scan) (c : Char) : Scan :=
  if isBlank c then { s with inWhitespace := true }
  -- the text is seen to contain something else only where it leaves whitespace
  else if s.inWhitespace then ⟨false, true, s.result ++ [' '] ++ [c]⟩
  else { s with result := s.result ++ [c] }

def scan (str : List Char) : Scan := str.foldl Scan.next ⟨false, false, []⟩

def singleSpaceString (str : List Char) : List Char :=
  if str ≠ [] ∧ (scan str).strContainsNonWhiteSpace = false then (scan str).result ++ [' ']
  else (scan str).result

def singleSpaced (str : List Char) : List Char := squeeze isBlank ' ' str

def LeavesBlank (str : List Char) : Prop :=
  ∃ c d, [c, d] <:+: str ∧ isBlank c ∧ ¬ isBlank d

theorem scan_concat (str : List Char) (c : Char) : scan (str ++ [c]) = (scan str).next c := by
  rw [scan, List.foldl_append]
  rfl

theorem leavesBlank_concat {str : List Char} {d : Char} :
    LeavesBlank (str ++ [d]) ↔ LeavesBlank str ∨ EndsIn isBlank str ∧ ¬ isBlank d := by
  constructor
  · rintro ⟨c, d', hinfix, hc, hd⟩
    rcases List.infix_concat_iff.mp hinfix with hsuffix | hinfix
    · obtain ⟨u, hu⟩ := hsuffix
      rw [show [c, d'] = [c] ++ [d'] from rfl, ← List.append_assoc] at hu
      obtain ⟨rfl, hlast⟩ := List.append_inj' hu rfl
      obtain rfl := List.singleton_inj.mp hlast
      exact .inr ⟨endsIn_concat.mpr hc, hd⟩
    · exact .inl ⟨c, d', hinfix, hc, hd⟩
  · rintro (⟨c, d', hinfix, hc, hd⟩ | ⟨⟨c, hlast, hc⟩, hd⟩)
    · exact ⟨c, d', hinfix.trans (List.prefix_append str [d]).isInfix, hc, hd⟩
    · obtain ⟨u, rfl⟩ := List.getLast?_eq_some_iff.mp hlast
      exact ⟨c, d, (List.suffix_append u [c, d]).isInfix.trans (by simp), hc, hd⟩

structure Scanned (str : List Char) (s : Scan) : Prop where
  whole : singleSpaced str = s.result ++ if s.inWhitespace then [' '] else []
  inWhitespace : s.inWhitespace = true ↔ EndsIn isBlank str
  leaves : s.strContainsNonWhiteSpace = true ↔ LeavesBlank str

theorem scanned_nil : Scanned [] ⟨false, false, []⟩ where
  whole := squeeze_nil isBlank ' '
  inWhitespace := iff_of_false Bool.false_ne_true not_endsIn_nil
  leaves := by simp [LeavesBlank]

theorem Scanned.next {str : List Char} {s : Scan} (h : Scanned str s) (c : Char) :
    Scanned (str ++ [c]) (s.next c) := by
  obtain ⟨hwhole, hin, hleaves⟩ := h
  unfold Scan.next
  by_cases hc : isBlank c
  · rw [if_pos hc]
    refine ⟨?_, iff_of_true rfl (endsIn_concat.mpr hc), ?_⟩
    · by_cases hends : EndsIn isBlank str
      · rw [singleSpaced, squeeze_concat_of_endsIn ' ' hc hends]
        rw [if_pos (hin.mpr hends)] at hwhole
        exact hwhole
      · rw [singleSpaced, squeeze_concat_of_pos ' ' hc hends]
        rw [if_neg (hin.not.mpr hends), List.append_nil] at hwhole
        exact congrArg (· ++ [' ']) hwhole
    · simp [leavesBlank_concat, hc, hleaves]
  · rw [if_neg hc]
    have hsqueeze := squeeze_concat_of_neg ' ' hc str
    by_cases hends : EndsIn isBlank str
    · rw [if_pos (hin.mpr hends)] at hwhole ⊢
      refine ⟨?_, iff_of_false Bool.false_ne_true (endsIn_concat.not.mpr hc), ?_⟩
      · rw [singleSpaced, hsqueeze, ← singleSpaced, hwhole]
        simp
      · exact iff_of_true rfl (leavesBlank_concat.mpr (.inr ⟨hends, hc⟩))
    · have hout := hin.not.mpr hends
      rw [if_neg hout, List.append_nil] at hwhole
      rw [if_neg hout]
      refine ⟨?_, iff_of_false hout (endsIn_concat.not.mpr hc), ?_⟩
      · rw [singleSpaced, hsqueeze, ← singleSpaced, hwhole, if_neg hout, List.append_nil]
      · rw [leavesBlank_concat, hleaves]
        simp [hends]

theorem scanned (str : List Char) : Scanned str (scan str) := by
  induction str using List.reverseRecOn with
  | nil => exact scanned_nil
  | append_singleton str c ih =>
    rw [scan_concat]
    exact ih.next c

theorem scan_result (str : List Char) :
    scan (scan str).result = { scan str with inWhitespace := false } := by
  induction str using List.reverseRecOn with
  | nil => rfl
  | append_singleton str c ih =>
    rw [scan_concat]
    unfold Scan.next
    by_cases hc : isBlank c
    · rw [if_pos hc]
      exact ih
    · rw [if_neg hc]
      by_cases hin : (scan str).inWhitespace
      · have hspace : isBlank ' ' := rfl
        rw [if_pos hin, scan_concat, scan_concat, ih, Scan.next, if_neg hc, Scan.next,
          if_pos hspace]
        rfl
      · rw [if_neg hin, scan_concat, ih, Scan.next, if_neg hc]
        rfl

theorem singleSpaceString_idempotent (str : List Char) :
    singleSpaceString (singleSpaceString str) = singleSpaceString str := by
  have hagain := scan_result str
  by_cases hblank : str ≠ [] ∧ (scan str).strContainsNonWhiteSpace = false
  · have hstr : singleSpaceString str = (scan str).result ++ [' '] := if_pos hblank
    have hspace : isBlank ' ' := rfl
    have hscan : scan ((scan str).result ++ [' ']) = { scan str with inWhitespace := true } := by
      rw [scan_concat, hagain, Scan.next, if_pos hspace]
    rw [hstr, singleSpaceString, hscan, if_pos ⟨by simp, hblank.2⟩]
  · have hstr : singleSpaceString str = (scan str).result := if_neg hblank
    rw [hstr, singleSpaceString, hagain]
    refine if_neg fun h => hblank ⟨?_, h.2⟩
    rintro rfl
    exact h.1 rfl

theorem singleSpaced_eq_self {str : List Char} (h : ∀ c ∈ str, ¬ isBlank c) :
    singleSpaced str = str := squeeze_eq_self ' ' h

/-- The whitespace in front of a character and that at the end are treated by different rules. -/
theorem singleSpaceString_eq_iff (str : List Char) : singleSpaceString str = singleSpaced str ↔
    str = [] ∨ (EndsIn isBlank str ↔ ¬ LeavesBlank str) := by
  obtain ⟨hwhole, hin, hleaves⟩ := scanned str
  rw [hwhole, ← hin, ← hleaves, singleSpaceString]
  by_cases hnil : str = []
  · subst hnil
    exact iff_of_true rfl (.inl rfl)
  · cases (scan str).strContainsNonWhiteSpace <;> cases (scan str).inWhitespace <;> simp [hnil]

/-- The text becomes as documented, once and for all, exactly when it is empty or one of two things
is true of it: it ends in whitespace, or it has whitespace in front of another character. -/
theorem singleSpaceString_right_iff (str : List Char) :
    singleSpaceString str = singleSpaced str ∧
      singleSpaceString (singleSpaceString str) = singleSpaceString str ∧
      ((∀ c ∈ str, ¬ isBlank c) → singleSpaceString str = str) ↔
    str = [] ∨ (EndsIn isBlank str ↔ ¬ LeavesBlank str) := by
  rw [← singleSpaceString_eq_iff]
  constructor
  · exact fun h => h.1
  · intro h
    exact ⟨h, singleSpaceString_idempotent str, fun hall => h.trans (singleSpaced_eq_self hall)⟩

/-- A space is put behind a text without one, and the space at the end of another is lost. -/
theorem singleSpaceString_wrong :
    (singleSpaceString ['a'] = ['a', ' '] ∧ singleSpaced ['a'] = ['a']) ∧
      singleSpaceString ['a', ' ', 'b', ' '] = ['a', ' ', 'b'] ∧
      singleSpaced ['a', ' ', 'b', ' '] = ['a', ' ', 'b', ' '] := by
  refine ⟨⟨rfl, singleSpaced_eq_self (by simp [isBlank])⟩, rfl, ?_⟩
  simp [singleSpaced, squeeze, isBlank]

end Cta.Common.SingleSpace

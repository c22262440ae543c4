import Mathlib.Logic.Function.Iterate
import Mathlib.Data.BitVec
import Mathlib.Data.List.GetD

/-! Division by a polynomial over two elements, lowest bit first, as checksums do it. -/
namespace Cta.Lib.ReflectedCrc

variable {w : Nat} (p : BitVec w)

def divide (x : BitVec w) : BitVec w :=
  (x >>> 1) ^^^ (if x.getLsbD 0 then p else 0#w)

theorem divide_xor (x y : BitVec w) : divide p (x ^^^ y) = divide p x ^^^ divide p y := by
  unfold divide
  rw [BitVec.ushiftRight_xor_distrib, BitVec.getLsbD_xor]
  cases x.getLsbD 0 with
  | false =>
    cases y.getLsbD 0 with
    | false => simp
    | true => simp [BitVec.xor_assoc]
  | true =>
    cases y.getLsbD 0 with
    | false =>
      simp only [Bool.xor_false, if_true, Bool.false_eq_true, if_false, BitVec.xor_zero]
      rw [BitVec.xor_assoc, BitVec.xor_comm (y >>> 1), ← BitVec.xor_assoc]
    | true =>
      have hcancel : p ^^^ (y >>> 1 ^^^ p) = y >>> 1 := by
        rw [BitVec.xor_comm (y >>> 1), ← BitVec.xor_assoc, BitVec.xor_self, BitVec.zero_xor]
      simp only [Bool.xor_self, Bool.false_eq_true, if_false, if_true, BitVec.xor_zero]
      rw [BitVec.xor_assoc, hcancel]

theorem iterate_divide_xor (n : Nat) (x y : BitVec w) :
    (divide p)^[n] (x ^^^ y) = (divide p)^[n] x ^^^ (divide p)^[n] y := by
  induction n generalizing x y with
  | zero => rfl
  | succ n ih => simp only [Function.iterate_succ_apply, divide_xor, ih]

theorem iterate_divide_of_low (n : Nat) (x : BitVec w) (h : ∀ i < n, x.getLsbD i = false) :
    (divide p)^[n] x = x >>> n := by
  induction n generalizing x with
  | zero => simp
  | succ n ih =>
    have hstep : divide p x = x >>> 1 := by
      simp [divide, h 0 (Nat.succ_pos n)]
    have hlow : ∀ i < n, (x >>> 1).getLsbD i = false := by
      intro i hi
      rw [BitVec.getLsbD_ushiftRight]
      exact h (1 + i) (by omega)
    rw [Function.iterate_succ_apply, hstep, ih _ hlow, ← BitVec.shiftRight_add, Nat.add_comm]

/-- A whole byte of the division, by a table of what the low bits give. -/
theorem iterate_divide_eq (n : Nat) (x low : BitVec w)
    (hlow : ∀ i, low.getLsbD i = (decide (i < n) && x.getLsbD i)) :
    (divide p)^[n] x = (x >>> n) ^^^ (divide p)^[n] low := by
  have hhigh : ∀ i < n, (x ^^^ low).getLsbD i = false := by
    intro i hi
    simp [hlow, hi]
  have hshift : (x ^^^ low) >>> n = x >>> n := by
    apply BitVec.eq_of_getLsbD_eq
    intro i _
    have hout : ¬n + i < n := by omega
    simp [hlow, hout]
  have hsplit : x = (x ^^^ low) ^^^ low := by
    rw [BitVec.xor_assoc, BitVec.xor_self, BitVec.xor_zero]
  calc
    (divide p)^[n] x = (divide p)^[n] ((x ^^^ low) ^^^ low) := congrArg _ hsplit
    _ = (x >>> n) ^^^ (divide p)^[n] low := by
      rw [iterate_divide_xor, iterate_divide_of_low p n _ hhigh, hshift]

def absorb (x : BitVec w) (b : Bool) : BitVec w :=
  divide p (x ^^^ (BitVec.ofBool b).setWidth w)

def remainder (x : BitVec w) (bs : List Bool) : BitVec w := bs.foldl (absorb p) x

theorem remainder_append (x : BitVec w) (bs cs : List Bool) :
    remainder p x (bs ++ cs) = remainder p (remainder p x bs) cs := List.foldl_append

/-- The word that has these bits, the lowest one first. -/
def wordOf (w : Nat) : List Bool → BitVec w
  | [] => 0#w
  | b :: bs => (wordOf w bs <<< 1) ^^^ (BitVec.ofBool b).setWidth w

theorem getLsbD_bit (b : Bool) (i : Nat) :
    ((BitVec.ofBool b).setWidth w).getLsbD i = (decide (i < w) && decide (i = 0) && b) := by
  rw [BitVec.getLsbD_setWidth, BitVec.getLsbD_ofBool, Bool.and_assoc]

theorem getLsbD_wordOf {bs : List Bool} (hbs : bs.length ≤ w) (i : Nat) :
    (wordOf w bs).getLsbD i = bs.getD i false := by
  induction bs generalizing i with
  | nil => simp [wordOf]
  | cons b bs ih =>
    rw [List.length_cons] at hbs
    rw [wordOf, BitVec.getLsbD_xor, getLsbD_bit, BitVec.getLsbD_shiftLeft]
    cases i with
    | zero => simp [show 0 < w by omega]
    | succ i =>
      rw [Nat.add_sub_cancel, ih (by omega), List.getD_cons_succ]
      by_cases hi : i + 1 < w
      · simp [hi]
      · have hnone : bs[i]? = none := List.getElem?_eq_none (by omega)
        simp [hi, hnone]

theorem wordOf_injective {bs cs : List Bool} (hbs : bs.length ≤ w) (hlength : bs.length = cs.length)
    (h : wordOf w bs = wordOf w cs) : bs = cs := by
  apply List.ext_getElem hlength
  intro i hi hi'
  have hbit := congrArg (BitVec.getLsbD · i) h
  simp only [getLsbD_wordOf hbs, getLsbD_wordOf (hlength ▸ hbs)] at hbit
  rwa [List.getD_eq_getElem _ _ hi, List.getD_eq_getElem _ _ hi'] at hbit

/-- A shift to the left is undone unless it lost a bit. -/
theorem divide_wordOf {bs : List Bool} (hbs : bs.length < w) :
    divide p (wordOf w bs <<< 1) = wordOf w bs := by
  have hlow : (wordOf w bs <<< 1).getLsbD 0 = false := by simp [BitVec.getLsbD_shiftLeft]
  rw [divide, hlow, if_neg Bool.false_ne_true, BitVec.xor_zero]
  apply BitVec.eq_of_getLsbD_eq
  intro i hi
  rw [BitVec.getLsbD_ushiftRight, BitVec.getLsbD_shiftLeft, Nat.add_sub_cancel_left]
  by_cases hi' : 1 + i < w
  · simp [hi']
  · have hnone : bs[i]? = none := List.getElem?_eq_none (by omega)
    simp [hi', getLsbD_wordOf hbs.le, hnone]

theorem remainder_eq {bs : List Bool} (hbs : bs.length ≤ w) (x : BitVec w) :
    remainder p x bs = (divide p)^[bs.length] (x ^^^ wordOf w bs) := by
  induction bs generalizing x with
  | nil => simp [remainder, wordOf]
  | cons b bs ih =>
    rw [List.length_cons] at hbs
    have hnext : absorb p x b ^^^ wordOf w bs = divide p (x ^^^ wordOf w (b :: bs)) := by
      rw [wordOf, BitVec.xor_comm (wordOf w bs <<< 1), ← BitVec.xor_assoc, divide_xor,
        divide_wordOf p hbs]
      rfl
    calc
      remainder p x (b :: bs) = remainder p (absorb p x b) bs := rfl
      _ = (divide p)^[bs.length] (absorb p x b ^^^ wordOf w bs) := ih (by omega) _
      _ = (divide p)^[(b :: bs).length] (x ^^^ wordOf w (b :: bs)) := by
        rw [hnext, List.length_cons, Function.iterate_succ_apply]

section
variable {p} (hp : p.getLsbD (w - 1) = true)
include hp

theorem divide_eq_zero {x : BitVec w} (h : divide p x = 0#w) : x = 0#w := by
  have hw : 0 < w := by
    by_contra hw
    obtain rfl : w = 0 := by omega
    simp at hp
  have hlow : x.getLsbD 0 = false := by
    have hhigh := congrArg (BitVec.getLsbD · (w - 1)) h
    cases hx : x.getLsbD 0 with
    | false => rfl
    | true =>
      have hout : x.getLsbD (1 + (w - 1)) = false := BitVec.getLsbD_of_ge _ _ (by omega)
      simp [divide, hx, hp, hout] at hhigh
  have hrest : x >>> 1 = 0#w := by simpa [divide, hlow] using h
  apply BitVec.eq_of_getLsbD_eq
  intro i hi
  cases i with
  | zero => simpa using hlow
  | succ i =>
    have hbit := congrArg (BitVec.getLsbD · i) hrest
    simpa [BitVec.getLsbD_ushiftRight, Nat.add_comm] using hbit

theorem divide_injective : Function.Injective (divide p) := by
  intro x y h
  have hzero : divide p (x ^^^ y) = 0#w := by rw [divide_xor, h, BitVec.xor_self]
  exact BitVec.xor_eq_zero_iff.mp (divide_eq_zero hp hzero)

theorem remainder_injective (bs : List Bool) : Function.Injective (remainder p · bs) := by
  induction bs with
  | nil => exact fun _ _ h => h
  | cons b bs ih =>
    intro x y h
    exact (BitVec.xor_left_inj _).mp (divide_injective hp (ih h))

theorem remainder_ne_of_burst {bs cs : List Bool} (hbs : bs.length ≤ w)
    (hlength : bs.length = cs.length) (hne : bs ≠ cs) (x : BitVec w) (before after : List Bool) :
    remainder p x (before ++ bs ++ after) ≠ remainder p x (before ++ cs ++ after) := by
  intro h
  simp only [remainder_append] at h
  have hmiddle := remainder_injective hp after h
  have hcs : cs.length ≤ w := hlength ▸ hbs
  simp only [remainder_eq p hbs, remainder_eq p hcs, ← hlength] at hmiddle
  have hword := (BitVec.xor_right_inj _).mp ((divide_injective hp).iterate _ hmiddle)
  exact hne (wordOf_injective hbs hlength hword)

end

end Cta.Lib.ReflectedCrc

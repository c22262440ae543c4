import Cta.Lib.Wire

/-! The counters that a drive keeps in its log pages. -/
namespace Cta.Tape.LogSense
open Cta.Lib.Wire

/-- `parameterLength` may be less than the eight bytes that there are. -/
structure logSenseParameter_t where
  parameterLength : UInt8
  parameterValue : List UInt8
  width : parameterValue.length = 8

namespace logSenseParameter_t
variable (p : logSenseParameter_t)

def tmp : List UInt8 :=
  p.parameterValue.mapIdx fun i b => if p.parameterLength.toNat > i then b else 0

def val64 : ℕ := valueOf p.tmp

def val64S : ℤ := if p.val64 < 2 ^ 63 then p.val64 else p.val64 - 2 ^ 64

def shift : ℤ := 64 - 8 * p.parameterLength.toNat

def shiftRight (v : ℕ) (s : ℤ) : Option ℕ := if 0 ≤ s ∧ s < 64 then some (v / 2 ^ s.toNat) else none

def getU64Value : Option ℕ := shiftRight p.val64 p.shift

def getS64Value : Option ℤ :=
  if p.val64S < 0 then
    if p.val64S = -2 ^ 63 then none
    else (shiftRight (-p.val64S).toNat p.shift).map fun v : ℕ => -(v : ℤ)
  else (shiftRight p.val64S.toNat p.shift).map fun v : ℕ => (v : ℤ)

/-- What the bytes of the parameter are as a number. -/
def content : ℕ := valueOf (p.parameterValue.take p.parameterLength.toNat)

/-- Both values are the ones that the bytes stand for. -/
structure Right : Prop where
  unsigned : p.getU64Value = some p.content
  signed : p.getS64Value = some (BitVec.ofNat (8 * p.parameterLength.toNat) p.content).toInt

section
variable {p}

theorem tmp_eq (hle : p.parameterLength ≤ 8) : p.tmp =
    p.parameterValue.take p.parameterLength.toNat ++
      List.replicate (8 - p.parameterLength.toNat) 0 := by
  have hle' : p.parameterLength.toNat ≤ 8 := hle
  have hwidth := p.width
  apply List.ext_getElem
  · simp only [tmp, List.length_mapIdx, List.length_append, List.length_take,
      List.length_replicate]
    omega
  · intro i hi _
    have hi' : i < 8 := by rwa [tmp, List.length_mapIdx, hwidth] at hi
    by_cases hin : i < p.parameterLength.toNat
    · rw [List.getElem_append_left (by rw [List.length_take]; omega)]
      simp [tmp, hin]
    · rw [List.getElem_append_right (by rw [List.length_take]; omega)]
      simp [tmp, hin]

theorem valueOf_append_zeros (bytes : List UInt8) (n : ℕ) :
    valueOf (bytes ++ List.replicate n 0) = valueOf bytes * 256 ^ n := by
  induction n with
  | zero => simp
  | succ n ih =>
    rw [List.replicate_succ', ← List.append_assoc, valueOf, List.foldl_append, ← valueOf, ih,
      pow_succ, ← Nat.mul_assoc]
    exact Nat.add_zero _

theorem val64_eq (hle : p.parameterLength ≤ 8) :
    p.val64 = p.content * 2 ^ (64 - 8 * p.parameterLength.toNat) := by
  have hle' : p.parameterLength.toNat ≤ 8 := hle
  have hpow : (256 : ℕ) ^ (8 - p.parameterLength.toNat) =
      2 ^ (64 - 8 * p.parameterLength.toNat) := by
    have hbase : (256 : ℕ) = 2 ^ 8 := rfl
    rw [hbase, ← Nat.pow_mul, Nat.mul_sub]
  rw [val64, tmp_eq hle, valueOf_append_zeros, content, hpow]

theorem content_lt (hle : p.parameterLength ≤ 8) :
    p.content < 2 ^ (8 * p.parameterLength.toNat) := by
  have hle' : p.parameterLength.toNat ≤ 8 := hle
  have hlt := valueOf_lt (p.parameterValue.take p.parameterLength.toNat)
  rw [List.length_take, p.width, min_eq_left hle'] at hlt
  have hbase : (256 : ℕ) = 2 ^ 8 := rfl
  rwa [hbase, ← Nat.pow_mul] at hlt

theorem shiftRight_mul (v : ℕ) {n : ℕ} (hn : n < 64) :
    shiftRight (v * 2 ^ n) (n : ℤ) = some v := by
  rw [shiftRight, if_pos (by omega), Int.toNat_natCast, Nat.mul_div_cancel _ (Nat.two_pow_pos n)]

theorem shift_eq (hle : p.parameterLength ≤ 8) :
    p.shift = ((64 - 8 * p.parameterLength.toNat : ℕ) : ℤ) := by
  have hle' : p.parameterLength.toNat ≤ 8 := hle
  rw [shift]
  omega

theorem getU64Value_eq (hle : p.parameterLength ≤ 8) : p.getU64Value =
    if p.parameterLength = 0 then none else some p.content := by
  split
  · rename_i hzero
    simp [getU64Value, shiftRight, shift, hzero]
  · rename_i hzero
    have hpos : p.parameterLength.toNat ≠ 0 := fun h => hzero (UInt8.toNat_inj.mp h)
    rw [getU64Value, shift_eq hle, val64_eq hle]
    exact shiftRight_mul _ (by omega)

theorem getS64Value_eq (hle : p.parameterLength ≤ 8) (hpos : 0 < p.parameterLength) :
    p.getS64Value =
      if p.content = 2 ^ (8 * p.parameterLength.toNat - 1) then none
      else some (BitVec.ofNat (8 * p.parameterLength.toNat) p.content).toInt := by
  have hle' : p.parameterLength.toNat ≤ 8 := hle
  have hpos' : 0 < p.parameterLength.toNat := hpos
  have hcontent := content_lt hle
  have hval := val64_eq hle
  have hshift := shift_eq hle
  generalize hbits : 8 * p.parameterLength.toNat = bits at hcontent hval hshift ⊢
  generalize hs : 64 - bits = s at hval hshift
  -- the sign bit of the content becomes that of the 64 bits
  have htop : (2 : ℕ) ^ (bits - 1) * 2 ^ s = 2 ^ 63 := by rw [← pow_add]; congr 1; omega
  have hfull : (2 : ℕ) ^ bits * 2 ^ s = 2 ^ 64 := by rw [← pow_add]; congr 1; omega
  have htwice : (2 : ℕ) ^ bits = 2 * 2 ^ (bits - 1) := by rw [← pow_succ']; congr 1; omega
  have hsign : p.val64 < 2 ^ 63 ↔ p.content < 2 ^ (bits - 1) := by
    rw [hval, ← htop]
    exact Nat.mul_lt_mul_right (Nat.two_pow_pos s)
  have hmin : p.val64 = 2 ^ 63 ↔ p.content = 2 ^ (bits - 1) := by
    rw [hval, ← htop]
    exact Nat.mul_left_inj (Nat.two_pow_pos s).ne'
  have hint : (BitVec.ofNat bits p.content).toInt =
      if p.content < 2 ^ (bits - 1) then (p.content : ℤ) else p.content - 2 ^ bits := by
    rw [BitVec.toInt_eq_toNat_cond, BitVec.toNat_ofNat, Nat.mod_eq_of_lt hcontent]
    split <;> split <;> first | omega | simp
  have hlow : s < 64 := by omega
  rw [getS64Value, hint, hshift]
  by_cases hneg : p.content < 2 ^ (bits - 1)
  · have hval64S : p.val64S = (p.content * 2 ^ s : ℕ) := by
      rw [val64S, if_pos (hsign.mpr hneg), hval]
    rw [hval64S, if_neg (by omega), if_neg (by omega), if_pos hneg, Int.toNat_natCast,
      shiftRight_mul _ hlow]
    rfl
  · have hval64S : p.val64S = -(((2 ^ bits - p.content) * 2 ^ s : ℕ) : ℤ) := by
      rw [val64S, if_neg (mt hsign.mp hneg), hval, Nat.sub_mul, hfull]
      have := Nat.mul_lt_mul_of_pos_right hcontent (Nat.two_pow_pos s)
      rw [hfull] at this
      omega
    have hopposite : 0 < (2 ^ bits - p.content) * 2 ^ s :=
      Nat.mul_pos (by omega) (Nat.two_pow_pos s)
    have hsmallest : p.val64S = -2 ^ 63 ↔ p.content = 2 ^ (bits - 1) := by
      rw [← hmin, val64S, if_neg (mt hsign.mp hneg)]
      omega
    simp only [hsmallest]
    split
    · split
      · rfl
      · rw [hval64S, Int.neg_neg, Int.toNat_natCast, shiftRight_mul _ hlow, Option.map_some,
          Nat.cast_sub hcontent.le]
        simp
    · omega

theorem accessors_right_iff (hle : p.parameterLength ≤ 8) : p.Right ↔
    0 < p.parameterLength ∧ p.content ≠ 2 ^ (8 * p.parameterLength.toNat - 1) := by
  constructor
  · rintro ⟨hunsigned, hsigned⟩
    have hpos : 0 < p.parameterLength := by
      rw [getU64Value_eq hle] at hunsigned
      split at hunsigned
      · cases hunsigned
      · exact UInt8.pos_iff_ne_zero.mpr ‹_›
    refine ⟨hpos, fun hsmallest => ?_⟩
    rw [getS64Value_eq hle hpos, if_pos hsmallest] at hsigned
    cases hsigned
  · rintro ⟨hpos, hsmallest⟩
    constructor
    · rw [getU64Value_eq hle, if_neg (UInt8.pos_iff_ne_zero.mp hpos)]
    · rw [getS64Value_eq hle hpos, if_neg hsmallest]

end

def oneByte (b : UInt8) : logSenseParameter_t := ⟨1, [b, 0, 0, 0, 0, 0, 0, 0], rfl⟩

theorem accessors_right_iff_minus_one : (oneByte 255).Right :=
  (accessors_right_iff (by decide)).mpr ⟨by decide, by decide⟩

/-- The smallest number of eight bits becomes the one that has no opposite. -/
theorem not_right_smallest : ¬(oneByte 128).Right := by
  intro h
  have hsigned := h.signed
  exact absurd hsigned (by decide)

end logSenseParameter_t

end Cta.Tape.LogSense

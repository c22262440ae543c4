import Mathlib.Data.Nat.Digits.Lemmas

/-! Numbers written with the digits of a base, and read back. -/
namespace Cta.Lib.Numerals

/-- What a character counts as a digit, in either case. -/
def digitValue (b : Nat) (c : Char) : Option Nat :=
  let n := c.toNat
  let v := if 48 ≤ n ∧ n < 58 then n - 48
    else if 97 ≤ n ∧ n < 103 then n - 87
    else if 65 ≤ n ∧ n < 71 then n - 55
    else 16
  if v < b then some v else none

def readDigits (b : Nat) : List Char → List Nat
  | [] => []
  | c :: cs =>
    match digitValue b c with
    | some d => d :: readDigits b cs
    | none => []

/-- The number that has these digits, the most significant one first. -/
def value (b : Nat) (ds : List Nat) : Nat := ds.foldl (fun n d => n * b + d) 0

/-- The digits of a number that is not zero, without leading zeros. -/
def significant (b n : Nat) : List Char := (Nat.digits b n).reverse.map Nat.digitChar

def numeral (b n : Nat) : List Char := if n = 0 then ['0'] else significant b n

def padded (b w n : Nat) : List Char :=
  List.replicate (w - (Nat.digits b n).length) '0' ++ significant b n

theorem digitValue_digitChar {b d : Nat} (hd : d < b) (hb : b ≤ 16) :
    digitValue b (Nat.digitChar d) = some d ∧
      digitValue b (Nat.digitChar d).toUpper = some d := by
  have hall : ∀ d < 16, ∀ b ≤ 16, d < b → digitValue b (Nat.digitChar d) = some d ∧
      digitValue b (Nat.digitChar d).toUpper = some d := by decide
  exact hall d (by omega) b hb hd

theorem value_reverse (b : Nat) (ds : List Nat) :
    value b ds.reverse = Nat.ofDigits b ds := by
  unfold value
  induction ds with
  | nil => rfl
  | cons d ds ih =>
    rw [List.reverse_cons, List.foldl_append, ih, Nat.ofDigits_cons]
    simp only [List.foldl_cons, List.foldl_nil]
    rw [Nat.mul_comm, Nat.add_comm]

theorem value_digits (b n : Nat) : value b (Nat.digits b n).reverse = n := by
  rw [value_reverse, Nat.ofDigits_digits]

theorem value_zeros (b k : Nat) (ds : List Nat) :
    value b (List.replicate k 0 ++ ds) = value b ds := by
  unfold value
  rw [List.foldl_append]
  congr 1
  induction k with
  | zero => rfl
  | succ k ih => simpa [List.replicate_succ] using ih

def NoDigit (b : Nat) (r : List Char) : Prop :=
  ∀ c, r.head? = some c → digitValue b c = none

theorem readDigits_noDigit {b : Nat} {r : List Char} (h : NoDigit b r) :
    readDigits b r = [] := by
  cases r with
  | nil => rfl
  | cons c cs => simp [readDigits, h c rfl]

theorem readDigits_map {b : Nat} {write : Nat → Char} {ds : List Nat} {r : List Char}
    (hwrite : ∀ d ∈ ds, digitValue b (write d) = some d) (hrest : NoDigit b r) :
    readDigits b (ds.map write ++ r) = ds := by
  induction ds with
  | nil => exact readDigits_noDigit hrest
  | cons d ds ih =>
    have hd := hwrite d List.mem_cons_self
    have hds := ih fun d' hd' => hwrite d' (List.mem_cons_of_mem d hd')
    simp [readDigits, hd, hds]

theorem digits_lt {b n : Nat} (hb : 1 < b) : ∀ d ∈ (Nat.digits b n).reverse, d < b :=
  fun _ hd => Nat.digits_lt_base hb (List.mem_reverse.mp hd)

theorem value_toUpper {b n : Nat} {r : List Char} (hb : 1 < b) (hb' : b ≤ 16)
    (hrest : NoDigit b r) :
    value b (readDigits b ((significant b n).map Char.toUpper ++ r)) = n := by
  have hmap : (significant b n).map Char.toUpper =
      (Nat.digits b n).reverse.map fun d => (Nat.digitChar d).toUpper := by
    simp [significant]
  have hdigits : ∀ d ∈ (Nat.digits b n).reverse,
      digitValue b (Nat.digitChar d).toUpper = some d := fun d hd =>
    (digitValue_digitChar (digits_lt hb d hd) hb').2
  rw [hmap, readDigits_map hdigits hrest, value_digits]

theorem value_padded {b w n : Nat} {r : List Char} (hb : 1 < b) (hb' : b ≤ 16)
    (hrest : NoDigit b r) :
    value b (readDigits b (padded b w n ++ r)) = n := by
  have hmap : padded b w n =
      (List.replicate (w - (Nat.digits b n).length) 0 ++
        (Nat.digits b n).reverse).map Nat.digitChar := by
    simp [padded, significant, Nat.digitChar]
  have hlt : ∀ d ∈ List.replicate (w - (Nat.digits b n).length) 0 ++
      (Nat.digits b n).reverse, d < b := by
    intro d hd
    cases List.mem_append.mp hd with
    | inl hd =>
      rw [List.eq_of_mem_replicate hd]
      omega
    | inr hd => exact digits_lt hb d hd
  have hread := readDigits_map
    (fun d hd => (digitValue_digitChar (hlt d hd) hb').1) hrest
  rw [hmap, hread, value_zeros, value_digits]

theorem length_significant_le {b n w : Nat} (hb : 1 < b) (h : n < b ^ w) :
    (significant b n).length ≤ w := by
  have hdigits := (Nat.digits_length_le_iff hb n).mpr h
  simpa [significant] using hdigits

theorem length_padded {b n w : Nat} (hb : 1 < b) (h : n < b ^ w) :
    (padded b w n).length = w := by
  have hle := length_significant_le hb h
  have hlength : (significant b n).length = (Nat.digits b n).length := by
    simp [significant]
  rw [padded, List.length_append, List.length_replicate]
  omega

theorem digitValue_lower {c : Char} {d : Nat} (h : digitValue 16 c = some d) :
    d < 16 ∧ c.toLower = Nat.digitChar d := by
  have hall : ∀ n < 103, (digitValue 16 (Char.ofNat n)).all
      (fun d => d < 16 ∧ (Char.ofNat n).toLower = Nat.digitChar d) = true := by decide
  have hlt : c.toNat < 103 := by
    by_contra hge
    have hdigit : ¬(48 ≤ c.toNat ∧ c.toNat < 58) := by omega
    have hlower : ¬(97 ≤ c.toNat ∧ c.toNat < 103) := by omega
    have hupper : ¬(65 ≤ c.toNat ∧ c.toNat < 71) := by omega
    simp only [digitValue, if_neg hdigit, if_neg hlower, if_neg hupper] at h
    cases h
  have hc := hall c.toNat hlt
  rw [Char.ofNat_toNat, h] at hc
  simpa using hc

theorem padded_two {b x y : Nat} (hb : 1 < b) (hx : x < b) (hy : y < b) :
    padded b 2 (x * b + y) = [Nat.digitChar x, Nat.digitChar y] := by
  have hzero : Nat.digitChar 0 = '0' := rfl
  unfold padded significant
  by_cases hx0 : x = 0
  · by_cases hy0 : y = 0
    · simp [hx0, hy0, hzero, List.replicate_succ]
    · simp [hx0, Nat.digits_of_lt b y hy0 hy, hzero]
  · have hdigits : Nat.digits b (x * b + y) = [y, x] := by
      rw [Nat.mul_comm, Nat.add_comm, Nat.digits_add b hb y x hy (.inr hx0),
        Nat.digits_of_lt b x hx0 hx]
    simp [hdigits]

end Cta.Lib.Numerals

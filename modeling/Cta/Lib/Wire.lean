import Mathlib.Data.List.TakeWhile
import Mathlib.Tactic.Ring

/-! Numbers and terminated strings as bytes in a memory. -/
namespace Cta.Lib.Wire

abbrev Memory := Nat → UInt8

def bytesOf : Nat → Nat → List UInt8
  | 0, _ => []
  | w + 1, n => UInt8.ofNat (n / 256 ^ w) :: bytesOf w n

@[simp] theorem bytesOf_zero (n : Nat) : bytesOf 0 n = [] := rfl

theorem bytesOf_succ (w n : Nat) :
    bytesOf (w + 1) n = UInt8.ofNat (n / 256 ^ w) :: bytesOf w n := rfl

def valueOf (bytes : List UInt8) : Nat := bytes.foldl (fun n b => n * 256 + b.toNat) 0

@[simp] theorem length_bytesOf (w n : Nat) : (bytesOf w n).length = w := by
  induction w with
  | zero => rfl
  | succ w ih => rw [bytesOf_succ, List.length_cons, ih]

theorem foldl_bytesOf (w n acc : Nat) :
    (bytesOf w n).foldl (fun n b => n * 256 + b.toNat) acc = acc * 256 ^ w + n % 256 ^ w := by
  induction w generalizing acc with
  | zero => simp [Nat.mod_one]
  | succ w ih =>
    have hbyte : (UInt8.ofNat (n / 256 ^ w)).toNat = n / 256 ^ w % 256 := UInt8.toNat_ofNat'
    rw [bytesOf_succ, List.foldl_cons, ih, hbyte, Nat.mod_pow_succ]
    ring

theorem valueOf_bytesOf (w n : Nat) : valueOf (bytesOf w n) = n % 256 ^ w := by
  rw [valueOf, foldl_bytesOf, Nat.zero_mul, Nat.zero_add]

theorem foldl_lt (bytes : List UInt8) (acc : Nat) :
    bytes.foldl (fun n b => n * 256 + b.toNat) acc < (acc + 1) * 256 ^ bytes.length := by
  induction bytes generalizing acc with
  | nil => simp
  | cons b bytes ih =>
    have hb : b.toNat < 256 := b.toNat_lt
    have hacc : acc * 256 + b.toNat + 1 ≤ (acc + 1) * 256 := by omega
    rw [List.foldl_cons, List.length_cons]
    calc
      _ < (acc * 256 + b.toNat + 1) * 256 ^ bytes.length := ih _
      _ ≤ (acc + 1) * 256 * 256 ^ bytes.length := Nat.mul_le_mul_right _ hacc
      _ = (acc + 1) * 256 ^ (bytes.length + 1) := by ring

theorem valueOf_lt (bytes : List UInt8) : valueOf bytes < 256 ^ bytes.length := by
  have hlt := foldl_lt bytes 0
  rwa [Nat.zero_add, Nat.one_mul] at hlt

def read (mem : Memory) : Nat → Nat → List UInt8
  | _, 0 => []
  | p, n + 1 => mem p :: read mem (p + 1) n

def Holds (mem : Memory) (p : Nat) (bytes : List UInt8) : Prop := read mem p bytes.length = bytes

/-- Two memories that do not differ in this range. -/
def Agree (mem mem' : Memory) (p n : Nat) : Prop := ∀ i, p ≤ i → i < p + n → mem i = mem' i

section
variable {mem mem' : Memory} {p n m : Nat} {bytes bytes' : List UInt8} {b : UInt8}

theorem read_succ (mem : Memory) (p n : Nat) :
    read mem p (n + 1) = mem p :: read mem (p + 1) n := rfl

theorem length_read (mem : Memory) (p n : Nat) : (read mem p n).length = n := by
  induction n generalizing p with
  | zero => rfl
  | succ n ih => rw [read_succ, List.length_cons, ih]

theorem read_add (mem : Memory) (p m n : Nat) :
    read mem p (m + n) = read mem p m ++ read mem (p + m) n := by
  induction m generalizing p with
  | zero => simp [read]
  | succ m ih =>
    rw [Nat.succ_add, read_succ, read_succ, ih, List.cons_append, Nat.add_right_comm, Nat.add_assoc]

theorem holds_nil : Holds mem p [] := rfl

theorem holds_cons : Holds mem p (b :: bytes) ↔ mem p = b ∧ Holds mem (p + 1) bytes := by
  rw [Holds, List.length_cons, read_succ, List.cons.injEq]
  rfl

theorem holds_append :
    Holds mem p (bytes ++ bytes') ↔ Holds mem p bytes ∧ Holds mem (p + bytes.length) bytes' := by
  induction bytes generalizing p with
  | nil => simp [holds_nil]
  | cons b bytes ih =>
    rw [List.cons_append, holds_cons, holds_cons, ih, and_assoc, List.length_cons,
      Nat.add_right_comm, Nat.add_assoc]

/-- Of what a memory holds from one place on, the shorter begins the longer. -/
theorem Holds.eq_append (h : Holds mem p bytes) (h' : Holds mem p bytes')
    (hle : bytes.length ≤ bytes'.length) : ∃ rest, bytes' = bytes ++ rest := by
  have hread := read_add mem p bytes.length (bytes'.length - bytes.length)
  rw [Nat.add_sub_cancel' hle] at hread
  exact ⟨_, h'.symm.trans (hread.trans (congrArg (· ++ _) h))⟩

theorem holds_of_getD (h : ∀ i, i < bytes.length → mem (p + i) = bytes.getD i 0) :
    Holds mem p bytes := by
  induction bytes generalizing p with
  | nil => exact holds_nil
  | cons b bytes ih =>
    refine holds_cons.mpr ⟨by simpa using h 0 (by simp), ih fun i hi => ?_⟩
    have hnext := h (i + 1) (by simpa using hi)
    rwa [← Nat.add_assoc, Nat.add_right_comm] at hnext

theorem Agree.mono (h : Agree mem mem' p n) {q : Nat} (hq : p ≤ q) (hm : q + m ≤ p + n) :
    Agree mem mem' q m := fun i hi hlt => h i (hq.trans hi) (hlt.trans_le hm)

theorem Agree.read (h : Agree mem mem' p n) : read mem p n = read mem' p n := by
  induction n generalizing p with
  | zero => rfl
  | succ n ih =>
    rw [read_succ, read_succ, h p le_rfl (by omega), ih (h.mono (by omega) (by omega))]

end

def cstr (bytes : List UInt8) : List UInt8 := bytes.takeWhile (· ≠ 0)

/-- A copy that stops behind the first zero, or after so many bytes. -/
def scan (mem : Memory) : Nat → Nat → List UInt8 × Bool
  | _, 0 => ([], false)
  | p, n + 1 =>
    if mem p = 0 then ([0], true)
    else ((mem p :: (scan mem (p + 1) n).1), (scan mem (p + 1) n).2)

section
variable {mem mem' : Memory} {p n : Nat} {s bytes : List UInt8}

theorem zero_notMem_cstr (bytes : List UInt8) : 0 ∉ cstr bytes := by
  intro h
  simpa using List.mem_takeWhile_imp h

theorem cstr_append_zero (h : 0 ∉ s) (bytes : List UInt8) : cstr (s ++ 0 :: bytes) = s := by
  induction s with
  | nil => simp [cstr]
  | cons b s ih =>
    obtain ⟨hb, hs⟩ := not_or.mp (mt List.mem_cons.mpr h)
    have hb' : b ≠ 0 := fun hzero => hb hzero.symm
    rw [cstr] at ih ⊢
    rw [List.cons_append, List.takeWhile_cons_of_pos (by simpa using hb'), ih hs]

theorem eq_cstr_append (h : 0 ∈ bytes) :
    bytes = cstr bytes ++ 0 :: bytes.drop ((cstr bytes).length + 1) := by
  induction bytes with
  | nil => exact absurd h List.not_mem_nil
  | cons b bytes ih =>
    by_cases hb : b = 0
    · simp [cstr, hb]
    · have hmem : 0 ∈ bytes := (List.mem_cons.mp h).resolve_left fun hzero => hb hzero.symm
      have hcons : cstr (b :: bytes) = b :: cstr bytes :=
        List.takeWhile_cons_of_pos (by simpa using hb)
      rw [hcons, List.length_cons, List.drop_succ_cons, List.cons_append, ← ih hmem]

theorem length_cstr_lt (h : 0 ∈ bytes) : (cstr bytes).length < bytes.length := by
  have hlength := congrArg List.length (eq_cstr_append h)
  rw [List.length_append, List.length_cons] at hlength
  omega

theorem scan_succ (mem : Memory) (p n : Nat) :
    scan mem p (n + 1) = if mem p = 0 then ([0], true)
      else (mem p :: (scan mem (p + 1) n).1, (scan mem (p + 1) n).2) := rfl

theorem length_scan_le (mem : Memory) (p n : Nat) : (scan mem p n).1.length ≤ n := by
  induction n generalizing p with
  | zero => exact le_rfl
  | succ n ih =>
    rw [scan_succ]
    split
    · simp
    · exact Nat.succ_le_succ (ih (p + 1))

/-- What was copied is a string with its zero when the zero was reached. -/
theorem scan_terminated (h : (scan mem p n).2 = true) :
    ∃ s, 0 ∉ s ∧ (scan mem p n).1 = s ++ [0] ∧ Holds mem p (s ++ [0]) := by
  induction n generalizing p with
  | zero => exact absurd h (by simp [scan])
  | succ n ih =>
    rw [scan_succ] at h ⊢
    by_cases hp : mem p = 0
    · exact ⟨[], List.not_mem_nil, by simp [hp], holds_cons.mpr ⟨hp, holds_nil⟩⟩
    · rw [if_neg hp] at h ⊢
      obtain ⟨s, hs, hscan, hholds⟩ := ih h
      refine ⟨mem p :: s, mt List.mem_cons.mp ?_, by simp only [hscan, List.cons_append],
        holds_cons.mpr ⟨rfl, hholds⟩⟩
      exact not_or.mpr ⟨fun hzero => hp hzero.symm, hs⟩

/-- A string that is shorter than the limit is copied with its zero. -/
theorem scan_eq (hs : 0 ∉ s) (hholds : Holds mem p (s ++ [0])) (hn : s.length < n) :
    scan mem p n = (s ++ [0], true) := by
  induction s generalizing p n with
  | nil =>
    obtain ⟨hzero, -⟩ := holds_cons.mp hholds
    cases n with
    | zero => exact absurd hn (Nat.not_lt_zero _)
    | succ n => rw [scan_succ, if_pos hzero]; rfl
  | cons b s ih =>
    obtain ⟨hb, hs⟩ := not_or.mp (mt List.mem_cons.mpr hs)
    obtain ⟨hp, hholds⟩ := holds_cons.mp hholds
    cases n with
    | zero => exact absurd hn (Nat.not_lt_zero _)
    | succ n =>
      have hrest := ih hs hholds (by simpa using hn)
      rw [scan_succ, if_neg fun hzero => hb (hzero.symm.trans hp), hrest, hp]
      rfl

theorem Agree.scan (h : Agree mem mem' p n) : scan mem p n = scan mem' p n := by
  induction n generalizing p with
  | zero => rfl
  | succ n ih =>
    rw [scan_succ, scan_succ, h p le_rfl (by omega), ih (h.mono (by omega) (by omega))]

end

end Cta.Lib.Wire

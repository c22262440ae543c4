import Cta.TapeFile.Structures

/-! What a reader looks for in the labels. -/
namespace Cta.TapeFile.HeaderChecker
open Cta.Lib.Numerals Cta.TapeFile.Structures

inductive HeaderBase where
  | octal
  | decimal
  | hexadecimal
  deriving DecidableEq, Repr

def HeaderBase.toNat : HeaderBase → Nat
  | .octal => 8
  | .decimal => 10
  | .hexadecimal => 16

def isSpace (c : Char) : Bool := c.toNat = 32 || (9 ≤ c.toNat && c.toNat ≤ 13)

def unsigned : Text → Text
  | '-' :: s | '+' :: s => s
  | s => s

/-- So is the prefix of a hexadecimal number. -/
def unprefixed (base : Nat) (s : Text) : Text :=
  match s with
  | '0' :: 'x' :: rest | '0' :: 'X' :: rest => if base = 16 then rest else s
  | _ => s

/-- What `>>` of a string stream puts into an unsigned 64-bit number: zero if there is no number,
the largest one if it is too large, and a negative number wraps around. -/
def extractNumber (base : Nat) (s : Text) : Nat :=
  let s := s.dropWhile isSpace
  let ds := readDigits base (unprefixed base (unsigned s))
  let n := value base ds
  if ds = [] then 0
  else if 2 ^ 64 ≤ n then 2 ^ 64 - 1
  else if s.head? = some '-' then (2 ^ 64 - n) % 2 ^ 64
  else n

def checkHeaderNumericalField (headerField : Text) (value : Nat) (base : HeaderBase) : Bool :=
  value = extractNumber base.toNat headerField

/-- A number as `atol` reads it from a field of at most 18 characters. -/
def atol (s : Text) : Int :=
  let s := s.dropWhile isSpace
  let n := value 10 (readDigits 10 (unsigned s))
  if s.head? = some '-' then -n else n

def text (s : Text) : String := String.ofList s

def checkVOL1 (vol1 : VOL1) (volId : Text) : Option String :=
  if vol1.VSN ≠ volId then
    some ("[HeaderChecker::checkVOL1()] - VSN of tape (" ++ text vol1.VSN ++
      ") is not the one requested (" ++ text volId ++ ")")
  else none

def checkHDR1 (hdr1 : HDR1EOF1) (archiveFileID : Nat) (volId : Text) : Option String :=
  if !checkHeaderNumericalField hdr1.fileId archiveFileID .hexadecimal then
    some ("[HeaderChecker::checkHDR1] - Invalid fileid detected: (0x)\"" ++ text hdr1.fileId ++
      "\". Wanted: 0x" ++ text (numeral 16 archiveFileID) ++ "\n")
  else if hdr1.VSN ≠ volId then
    some ("[HeaderChecker::checkHDR1] - Wrong volume ID info found in hdr1: " ++ text hdr1.VSN ++
      ". Wanted: " ++ text volId)
  else none

def checkUHL1 (uhl1 : UHL1UTL1) (fSeq : Nat) : Option String :=
  if !checkHeaderNumericalField uhl1.actualfSeq fSeq .decimal then
    some ("[HeaderChecker::checkUHL1] - Invalid fseq detected in uhl1: \"" ++
      text uhl1.actualfSeq ++ "\". Wanted: " ++ toString fSeq)
  else none

def checkUTL1 (utl1 : UHL1UTL1) (fSeq : Nat) : Option String :=
  if !checkHeaderNumericalField utl1.actualfSeq fSeq .decimal then
    some ("[HeaderChecker::checkUTL1] - Invalid fseq detected in utl1: \"" ++
      text utl1.actualfSeq ++ "\". Wanted: " ++ toString fSeq)
  else none

theorem checkVOL1_none {vol1 : VOL1} {volId : Text} :
    checkVOL1 vol1 volId = none ↔ vol1.VSN = volId := by
  simp [checkVOL1]

theorem checkHeaderNumericalField_hexadecimal (headerField : Text) (n : Nat) :
    checkHeaderNumericalField headerField n .hexadecimal =
      decide (extractNumber 16 headerField = n) :=
  decide_eq_decide.mpr eq_comm

theorem checkHeaderNumericalField_decimal (headerField : Text) (n : Nat) :
    checkHeaderNumericalField headerField n .decimal =
      decide (extractNumber 10 headerField = n) :=
  decide_eq_decide.mpr eq_comm

theorem checkHDR1_none {hdr1 : HDR1EOF1} {archiveFileID : Nat} {volId : Text} :
    checkHDR1 hdr1 archiveFileID volId = none ↔
      extractNumber 16 hdr1.fileId = archiveFileID ∧ hdr1.VSN = volId := by
  unfold checkHDR1
  rw [checkHeaderNumericalField_hexadecimal]
  by_cases hid : extractNumber 16 hdr1.fileId = archiveFileID
  · simp [hid]
  · simp [hid]

theorem checkUHL1_none {uhl1 : UHL1UTL1} {fSeq : Nat} :
    checkUHL1 uhl1 fSeq = none ↔ extractNumber 10 uhl1.actualfSeq = fSeq := by
  rw [checkUHL1, checkHeaderNumericalField_decimal]
  simp

theorem checkUTL1_none {utl1 : UHL1UTL1} {fSeq : Nat} :
    checkUTL1 utl1 fSeq = none ↔ extractNumber 10 utl1.actualfSeq = fSeq := by
  rw [checkUTL1, checkHeaderNumericalField_decimal]
  simp

/-- A text that begins with a digit, without any letter that could be part of a prefix. -/
structure Plain (s : Text) : Prop where
  head : ∀ c, s.head? = some c → isSpace c = false ∧ c ≠ '-' ∧ c ≠ '+'
  prefixLetters : 'x' ∉ s ∧ 'X' ∉ s

theorem dropWhile_plain {s : Text} (h : Plain s) : s.dropWhile isSpace = s := by
  cases s with
  | nil => rfl
  | cons c s => simp [(h.head c rfl).1]

theorem unsigned_plain {s : Text} (h : Plain s) : unsigned s = s := by
  unfold unsigned
  split
  · exact absurd rfl (h.head _ rfl).2.1
  · exact absurd rfl (h.head _ rfl).2.2
  · rfl

theorem unprefixed_plain {s : Text} (h : Plain s) (base : Nat) : unprefixed base s = s := by
  unfold unprefixed
  split
  · exact absurd (by simp) h.prefixLetters.1
  · exact absurd (by simp) h.prefixLetters.2
  · rfl

theorem head_plain {s : Text} (h : Plain s) : s.head? ≠ some '-' := fun hs =>
  (h.head _ hs).2.1 rfl

theorem extractNumber_plain {s : Text} (h : Plain s) {base n : Nat}
    (hne : readDigits base s ≠ []) (hn : value base (readDigits base s) = n) (hlt : n < 2 ^ 64) :
    extractNumber base s = n := by
  unfold extractNumber
  simp only [dropWhile_plain h, unsigned_plain h, unprefixed_plain h, if_neg hne, hn,
    if_neg (Nat.not_le.mpr hlt), if_neg (head_plain h)]

theorem atol_plain {s : Text} (h : Plain s) {n : Nat} (hn : value 10 (readDigits 10 s) = n) :
    atol s = n := by
  unfold atol
  simp only [dropWhile_plain h, unsigned_plain h, hn, if_neg (head_plain h)]

/-- Digits and spaces are neither a sign nor part of a prefix, and digits are no spaces. -/
theorem digitChar_plain : ∀ d < 16,
    (isSpace (Nat.digitChar d) = false ∧ Nat.digitChar d ≠ '-' ∧ Nat.digitChar d ≠ '+' ∧
      Nat.digitChar d ≠ 'x' ∧ Nat.digitChar d ≠ 'X') ∧
    (isSpace (Nat.digitChar d).toUpper = false ∧ (Nat.digitChar d).toUpper ≠ '-' ∧
      (Nat.digitChar d).toUpper ≠ '+' ∧ (Nat.digitChar d).toUpper ≠ 'x' ∧
      (Nat.digitChar d).toUpper ≠ 'X') := by
  decide

theorem significant_ne_nil {b n : Nat} (hn : n ≠ 0) : significant b n ≠ [] := by
  unfold significant
  rw [Ne, List.map_eq_nil_iff, List.reverse_eq_nil_iff]
  exact Nat.digits_ne_nil_iff_ne_zero.mpr hn

theorem plain_of_cons {c : Char} {s : Text} (hc : isSpace c = false ∧ c ≠ '-' ∧ c ≠ '+')
    (hx : ∀ d ∈ c :: s, d ≠ 'x' ∧ d ≠ 'X') : Plain (c :: s) where
  head d hd := by
    obtain rfl := Option.some.inj hd
    exact hc
  prefixLetters := ⟨fun h => (hx _ h).1 rfl, fun h => (hx _ h).2 rfl⟩

/-- The number of a file is read back from its field. -/
theorem extractNumber_fileId {archiveFileID : Nat} (h : archiveFileID ≠ 0)
    (hlt : archiveFileID < 2 ^ 64) :
    extractNumber 16 (setString 17 ((numeral 16 archiveFileID).map Char.toUpper)) =
      archiveFileID := by
  have hnumeral : numeral 16 archiveFileID = significant 16 archiveFileID := if_neg h
  have hlength : ((significant 16 archiveFileID).map Char.toUpper).length ≤ 17 := by
    rw [List.length_map]
    have := length_significant_le (b := 16) (n := archiveFileID) (w := 16) (by omega)
      (by omega)
    omega
  rw [hnumeral, setString, List.take_of_length_le hlength]
  generalize 17 - ((significant 16 archiveFileID).map Char.toUpper).length = k
  have hrest : NoDigit 16 (List.replicate k ' ') := by
    intro c hc
    rw [List.eq_of_mem_replicate (List.mem_of_mem_head? hc)]
    rfl
  have hvalue := value_toUpper (b := 16) (n := archiveFileID) (by omega) (by omega) hrest
  obtain ⟨c, s, hs⟩ := List.exists_cons_of_ne_nil (significant_ne_nil (b := 16) h)
  have hdigit : ∀ d ∈ significant 16 archiveFileID, ∃ n < 16, d = Nat.digitChar n := by
    intro d hd
    obtain ⟨n, hn, rfl⟩ := List.mem_map.mp hd
    exact ⟨n, digits_lt (by omega) n hn, rfl⟩
  obtain ⟨m, hm, rfl⟩ := hdigit c (hs ▸ List.mem_cons_self)
  have hplain : Plain ((significant 16 archiveFileID).map Char.toUpper ++ List.replicate k ' ') := by
    rw [hs, List.map_cons, List.cons_append]
    have hm' := (digitChar_plain m hm).2
    refine plain_of_cons ⟨hm'.1, hm'.2.1, hm'.2.2.1⟩ fun d hd => ?_
    rw [← List.cons_append, ← List.map_cons, ← hs] at hd
    cases List.mem_append.mp hd with
    | inl hd =>
      obtain ⟨e, he, rfl⟩ := List.mem_map.mp hd
      obtain ⟨n, hn, rfl⟩ := hdigit e he
      exact (digitChar_plain n hn).2.2.2.2
    | inr hd =>
      rw [List.eq_of_mem_replicate hd]
      decide
  refine extractNumber_plain hplain ?_ hvalue hlt
  intro hnil
  rw [hnil] at hvalue
  exact h hvalue.symm

theorem setInt_padded {width n : Nat} (h : n < 10 ^ width) :
    setInt width n = padded 10 width n := by
  have hmod : (n : Int).tmod (10 ^ width) = n := by
    refine Int.tmod_eq_of_lt (by omega) ?_
    exact_mod_cast h
  unfold setInt
  simp only [hmod, Int.natAbs_natCast]
  rw [if_neg (by omega), List.nil_append, List.take_of_length_le]
  rw [length_padded (by omega) h]

theorem plain_padded {width n : Nat} (hwidth : 0 < width) (h : n < 10 ^ width) :
    Plain (padded 10 width n) ∧ readDigits 10 (padded 10 width n) ≠ [] := by
  have hdigit : ∀ d ∈ padded 10 width n, ∃ m < 10, d = Nat.digitChar m := by
    intro d hd
    cases List.mem_append.mp hd with
    | inl hd => exact ⟨0, by omega, List.eq_of_mem_replicate hd⟩
    | inr hd =>
      obtain ⟨m, hm, rfl⟩ := List.mem_map.mp hd
      exact ⟨m, digits_lt (by omega) m hm, rfl⟩
  have hlength := length_padded (b := 10) (by omega) h
  cases hs : padded 10 width n with
  | nil =>
    rw [hs] at hlength
    rw [← hlength] at hwidth
    cases hwidth
  | cons c s =>
    rw [hs] at hdigit
    obtain ⟨m, hm, rfl⟩ := hdigit c List.mem_cons_self
    have hm' := (digitChar_plain m (by omega)).1
    refine ⟨plain_of_cons ⟨hm'.1, hm'.2.1, hm'.2.2.1⟩ fun d hd => ?_, ?_⟩
    · obtain ⟨k, hk, rfl⟩ := hdigit d hd
      exact (digitChar_plain k (by omega)).1.2.2.2
    · simp [readDigits, (digitValue_digitChar hm (by omega)).1]

theorem value_setInt {width n : Nat} (h : n < 10 ^ width) :
    value 10 (readDigits 10 (setInt width n)) = n := by
  have hvalue := value_padded (b := 10) (w := width) (n := n) (r := []) (by omega)
    (by omega) (by simp [NoDigit])
  rw [setInt_padded h]
  simpa using hvalue

theorem extractNumber_setInt {width n : Nat} (hwidth : 0 < width) (h : n < 10 ^ width)
    (hlt : n < 2 ^ 64) : extractNumber 10 (setInt width n) = n := by
  obtain ⟨hplain, hne⟩ := plain_padded hwidth h
  rw [← setInt_padded h] at hplain hne
  exact extractNumber_plain hplain hne (value_setInt h) hlt

theorem atol_setInt {width n : Nat} (hwidth : 0 < width) (h : n < 10 ^ width) :
    atol (setInt width n) = n := by
  have hplain := (plain_padded hwidth h).1
  rw [← setInt_padded h] at hplain
  exact atol_plain hplain (value_setInt h)

end Cta.TapeFile.HeaderChecker

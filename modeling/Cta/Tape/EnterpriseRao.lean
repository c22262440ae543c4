import Mathlib.Data.Int.DivMod
import Mathlib.Data.List.Range
import Cta.Lib.Numerals
import Cta.Lib.Wire

/-! The recommended access order of an enterprise drive: the files are numbered, and the drive
sends their numbers back in the order in which it wants to read them. -/
namespace Cta.Tape.EnterpriseRao
open Cta.Lib.Numerals Cta.Lib.Wire

structure RetrieveJob where
  blockId : UInt64
  fileSize : UInt64
  deriving DecidableEq, Repr

structure blockLims where
  fseq : List Char
  begin_ : UInt64
  end_ : UInt64
  deriving DecidableEq, Repr

/-- `udsName` has ten characters, and the numbers have eight bytes. -/
structure udsDescriptor_t where
  udsName : List Char
  beginLogicalObjID : List UInt8
  endLogicalObjID : List UInt8
  deriving DecidableEq, Repr

inductive Failure where
  | badArrayNewLength | bufferOverrun
  deriving DecidableEq, Repr

def zeroStruct (n : ℕ) : List Char := List.replicate n '\x00'

def cstr (field : List Char) : List Char := field.takeWhile (· ≠ '\x00')

def strncpy (dest source : List Char) (n : ℕ) : List Char :=
  let text := (cstr source).take n
  text ++ zeroStruct (n - text.length) ++ dest.drop n

def strcpy (dest source : List Char) : List Char :=
  cstr source ++ '\x00' :: dest.drop ((cstr source).length + 1)

def atoi (s : List Char) : ℕ := value 10 (readDigits 10 s)

@[irreducible] def int (n : ℕ) : ℤ := Int.bmod n (2 ^ 32)

def real_params_len (udSize : ℕ) : Except Failure ℕ :=
  let len := 8 + 32 * udSize
  if int len < 0 then .error .badArrayNewLength
  else if int len < len then .error .bufferOverrun
  else .ok len

def toDescriptor (file : blockLims) : udsDescriptor_t where
  udsName := strncpy (zeroStruct 10) file.fseq 10
  beginLogicalObjID := bytesOf 8 file.begin_.toNat
  endLogicalObjID := bytesOf 8 file.end_.toNat

def ofDescriptor (ud : udsDescriptor_t) : blockLims where
  fseq := strcpy (zeroStruct 10) ud.udsName
  begin_ := UInt64.ofNat (valueOf ud.beginLogicalObjID)
  end_ := UInt64.ofNat (valueOf ud.endLogicalObjID)

def generateRAO (files : List blockLims) (maxSupported : ℤ) :
    Except Failure (List udsDescriptor_t) :=
  let udSize := min (int files.length) maxSupported
  if udSize < 0 then .error .badArrayNewLength
  else do
    let _ ← real_params_len udSize.toNat
    return (files.take udSize.toNat).map toDescriptor

/-- What the drive sends is no more than what it was sent, so it is not cut off. -/
def receiveRAO (files : List blockLims) (received : List udsDescriptor_t) :
    Except Failure (List blockLims) := do
  let _ ← real_params_len (int files.length).toNat
  return received.map ofDescriptor

def queryRAO (drive : List udsDescriptor_t → List udsDescriptor_t) (files : List blockLims)
    (maxSupported : ℤ) : Except Failure (List blockLims) := do
  let sent ← generateRAO files maxSupported
  receiveRAO files (drive sent)

def c_blockSize : UInt64 := 262144

def lims (i : UInt32) (job : RetrieveJob) : blockLims where
  fseq := strncpy (zeroStruct 10) (numeral 10 i.toNat) 4
  begin_ := job.blockId
  end_ := job.blockId + 8 + (job.fileSize + c_blockSize - 1) / c_blockSize

structure Progress where
  i : UInt32 := 0
  files : List blockLims := []
  raoOrder : List ℕ := []
  queries : ℕ := 0
  deriving DecidableEq, Repr

def ids (files : List blockLims) : List ℕ := files.map fun file => atoi file.fseq

section
variable (drive : ℕ → List udsDescriptor_t → List udsDescriptor_t) (m_maxFilesSupported : UInt64)

def addJob (njobs : ℕ) (s : Progress) (job : RetrieveJob) : Except Failure Progress :=
  let files := s.files ++ [lims s.i job]
  if files.length = m_maxFilesSupported.toNat ∨
      (s.i.toNat = njobs - 1 ∧ files.length > 1) then do
    let sorted ← queryRAO (drive s.queries) files (int m_maxFilesSupported.toNat)
    return ⟨s.i + 1, [], s.raoOrder ++ ids sorted, s.queries + 1⟩
  else .ok { s with i := s.i + 1, files := files }

def performRAO (jobs : List RetrieveJob) :
    ℕ → Progress → Option (Except Failure (List ℕ))
  | 0, _ => none
  | fuel + 1, s =>
    match jobs[s.i.toNat]? with
    | none => some (.ok (s.raoOrder ++ ids s.files))
    | some job =>
      match addJob drive m_maxFilesSupported jobs.length s job with
      | .error failure => some (.error failure)
      | .ok s' => performRAO jobs fuel s'

/-- The order is a permutation, so that each job is taken once. -/
structure Reorders (jobs : List RetrieveJob) (raoOrder : List ℕ) : Prop where
  perm : raoOrder.Perm (List.range jobs.length)
  once : (raoOrder.filterMap fun i => jobs[i]?).Perm jobs

def Permutes (jobs : List RetrieveJob) : Prop :=
  ∃ fuel raoOrder, performRAO drive m_maxFilesSupported jobs fuel {} = some (.ok raoOrder) ∧
    Reorders jobs raoOrder

end

def Named (digits : List ℕ) (file : blockLims) : Prop :=
  digits.length ≤ 4 ∧ (∀ d ∈ digits, d < 10) ∧
    file.fseq = digits.map Nat.digitChar ++ zeroStruct (10 - digits.length)

section
variable {digits : List ℕ} {file : blockLims} {files : List blockLims} {n : ℕ}

theorem cstr_append_zeroStruct {text : List Char} (h : '\x00' ∉ text) (n : ℕ) :
    cstr (text ++ zeroStruct n) = text := by
  have hall : ∀ c ∈ text, decide (c ≠ '\x00') = true := by
    intro c hc
    simpa using ne_of_mem_of_not_mem hc h
  rw [cstr, List.takeWhile_append_of_pos hall]
  cases n <;> simp [zeroStruct, List.replicate_succ]

theorem digitChar_ne_zero {d : ℕ} (hd : d < 10) : Nat.digitChar d ≠ '\x00' := by
  interval_cases d <;> decide

theorem zero_notMem_map (h : ∀ d ∈ digits, d < 10) : '\x00' ∉ digits.map Nat.digitChar := by
  simp only [List.mem_map, not_exists, not_and]
  exact fun d hd => digitChar_ne_zero (h d hd)

theorem numeral_eq_map (n : ℕ) : ∃ digits : List ℕ, numeral 10 n = digits.map Nat.digitChar ∧
    (∀ d ∈ digits, d < 10) ∧ value 10 digits = n ∧ (n < 10000 → digits.length ≤ 4) := by
  by_cases hn : n = 0
  · exact ⟨[0], by simp [numeral, hn, Nat.digitChar], by simp, by simp [value, hn], by simp⟩
  · refine ⟨(Nat.digits 10 n).reverse, by simp [numeral, hn, significant],
      digits_lt (by decide), value_digits 10 n, fun hlt => ?_⟩
    rw [List.length_reverse]
    exact (Nat.digits_length_le_iff (by decide) n).mpr hlt

theorem Named.atoi_eq (h : Named digits file) : atoi file.fseq = value 10 digits := by
  obtain ⟨-, hdigits, hfseq⟩ := h
  have hrest : NoDigit 10 (zeroStruct (10 - digits.length)) := by
    intro c hc
    have hzero : c = '\x00' := List.eq_of_mem_replicate (List.mem_of_mem_head? hc)
    rw [hzero]
    decide
  rw [atoi, hfseq, readDigits_map (fun d hd => (digitValue_digitChar (hdigits d hd) (by decide)).1)
    hrest]

theorem Named.atoi_lt (h : Named digits file) : atoi file.fseq < 10000 := by
  rw [h.atoi_eq, ← List.reverse_reverse digits, value_reverse]
  calc
    _ < 10 ^ digits.reverse.length := Nat.ofDigits_lt_base_pow_length (by decide)
      fun d hd => h.2.1 d (List.mem_reverse.mp hd)
    _ ≤ 10 ^ 4 := Nat.pow_le_pow_right (by decide) (by rw [List.length_reverse]; exact h.1)

theorem named_lims (i : UInt32) (job : RetrieveJob) : ∃ digits, Named digits (lims i job) ∧
    (i.toNat < 10000 → value 10 digits = i.toNat) := by
  obtain ⟨digits, hnumeral, hdigits, hvalue, hlength⟩ := numeral_eq_map i.toNat
  have htake : ∀ d ∈ digits.take 4, d < 10 := fun d hd => hdigits d (List.mem_of_mem_take hd)
  refine ⟨digits.take 4, ⟨by simp, htake, ?_⟩, fun hi => ?_⟩
  · have hcstr : cstr (numeral 10 i.toNat) = digits.map Nat.digitChar := by
      rw [hnumeral]
      simpa [zeroStruct] using cstr_append_zeroStruct (zero_notMem_map hdigits) 0
    have hle : (digits.take 4).length ≤ 4 := List.length_take_le _ _
    simp only [lims, strncpy, hcstr, ← List.map_take, List.length_map, zeroStruct,
      List.drop_replicate, List.append_assoc, ← List.replicate_add]
    congr 2
    omega
  · rw [List.take_of_length_le (hlength hi), hvalue]

theorem Named.ofDescriptor_toDescriptor (h : Named digits file) :
    ofDescriptor (toDescriptor file) = file := by
  obtain ⟨hlength, hdigits, hfseq⟩ := h
  have htext := zero_notMem_map hdigits
  have hcstr : cstr file.fseq = digits.map Nat.digitChar := by
    rw [hfseq, cstr_append_zeroStruct htext]
  have hname : (toDescriptor file).udsName = file.fseq := by
    have htake : (digits.map Nat.digitChar).take 10 = digits.map Nat.digitChar :=
      List.take_of_length_le (by rw [List.length_map]; omega)
    simp only [toDescriptor, strncpy, hcstr, htake, List.length_map]
    rw [hfseq]
    simp [zeroStruct]
  have hback : strcpy (zeroStruct 10) file.fseq = file.fseq := by
    have hzero : 10 - digits.length = 10 - (digits.length + 1) + 1 := by omega
    simp only [strcpy, hcstr, List.length_map, zeroStruct, List.drop_replicate,
      ← List.replicate_succ]
    rw [hfseq, zeroStruct, hzero]
  have hnumber (v : UInt64) : UInt64.ofNat (valueOf (bytesOf 8 v.toNat)) = v := by
    rw [valueOf_bytesOf, ← UInt64.toNat_inj, UInt64.toNat_ofNat']
    have := v.toNat_lt
    omega
  cases file
  simp only [ofDescriptor, hname, hback, blockLims.mk.injEq, true_and]
  exact ⟨hnumber _, hnumber _⟩

theorem ids_lt (h : ∀ file ∈ files, ∃ digits, Named digits file) :
    ∀ id ∈ ids files, id < 10000 := by
  intro id hid
  obtain ⟨file, hfile, rfl⟩ := List.mem_map.mp hid
  exact (h file hfile).elim fun _ hnamed => hnamed.atoi_lt

end

section
variable {drive : ℕ → List udsDescriptor_t → List udsDescriptor_t} {m : UInt64}
  {jobs : List RetrieveJob} {files sorted : List blockLims} {maxSupported : ℤ}

theorem int_eq {n : ℕ} (h : n < 2 ^ 31) : int n = n := by
  unfold int
  apply Int.bmod_eq_of_le <;> omega

theorem generateRAO_eq {sent : List udsDescriptor_t}
    (h : generateRAO files maxSupported = .ok sent) :
    sent = (files.take (min (int files.length) maxSupported).toNat).map toDescriptor := by
  simp only [generateRAO] at h
  split at h
  · cases h
  · cases hlen : real_params_len (min (int files.length) maxSupported).toNat with
    | error failure => rw [hlen] at h; cases h
    | ok len =>
      rw [hlen] at h
      exact (Except.ok.inj h).symm

theorem receiveRAO_eq {received : List udsDescriptor_t}
    (h : receiveRAO files received = .ok sorted) : sorted = received.map ofDescriptor := by
  unfold receiveRAO at h
  cases hlen : real_params_len (int files.length).toNat with
  | error failure => rw [hlen] at h; cases h
  | ok len =>
    rw [hlen] at h
    exact (Except.ok.inj h).symm

theorem queryRAO_perm {drive : List udsDescriptor_t → List udsDescriptor_t}
    (hdrive : ∀ sent, (drive sent).Perm sent)
    (hnamed : ∀ file ∈ files, ∃ digits, Named digits file)
    (h : queryRAO drive files maxSupported = .ok sorted) :
    sorted.Perm (files.take (min (int files.length) maxSupported).toNat) := by
  unfold queryRAO at h
  cases hsent : generateRAO files maxSupported with
  | error failure => rw [hsent] at h; cases h
  | ok sent =>
    simp only [hsent, bind, Except.bind] at h
    have hback : ∀ k, ∀ file ∈ files.take k, (ofDescriptor ∘ toDescriptor) file = id file :=
      fun k file hfile => (hnamed file (List.mem_of_mem_take hfile)).elim
        fun _ hnamed => hnamed.ofDescriptor_toDescriptor
    have hall (k : ℕ) : ((files.take k).map toDescriptor).map ofDescriptor = files.take k := by
      rw [List.map_map, List.map_congr_left (hback k), List.map_id]
    have hmap := (hdrive sent).map ofDescriptor
    have hfiles := congrArg (List.map ofDescriptor) (generateRAO_eq hsent)
    rw [hall] at hfiles
    rwa [hfiles, ← receiveRAO_eq h] at hmap

theorem queryRAO_ok {drive : List udsDescriptor_t → List udsDescriptor_t}
    (hlength : files.length ≤ 10000) (hall : files.length ≤ maxSupported) :
    ∃ sorted, queryRAO drive files maxSupported = .ok sorted := by
  have hmin : min (int files.length) maxSupported = files.length := by
    rw [int_eq (by omega), min_eq_left hall]
  have hlen : real_params_len files.length = .ok (8 + 32 * files.length) := by
    simp only [real_params_len]
    rw [int_eq (by omega), if_neg (by omega), if_neg (by omega)]
  have hpos : ¬(files.length : ℤ) < 0 := by omega
  have hsent : generateRAO files maxSupported = .ok (files.map toDescriptor) := by
    simp only [generateRAO]
    rw [hmin, if_neg hpos, Int.toNat_natCast, hlen, List.take_length]
    rfl
  refine ⟨(drive (files.map toDescriptor)).map ofDescriptor, ?_⟩
  simp only [queryRAO, hsent, receiveRAO]
  rw [int_eq (by omega), Int.toNat_natCast, hlen]
  rfl

def added (s : Progress) (job : RetrieveJob) : List blockLims := s.files ++ [lims s.i job]

/-- The drive is asked about these files: there are as many as it supports, or no more come. -/
def Asks (m : UInt64) (njobs : ℕ) (i : UInt32) (files : List blockLims) : Prop :=
  files.length = m.toNat ∨ (i.toNat = njobs - 1 ∧ files.length > 1)

variable {s s' : Progress} {job : RetrieveJob} {njobs : ℕ} {raoOrder : List ℕ}

theorem named_added (job : RetrieveJob)
    (hnamed : ∀ file ∈ s.files, ∃ digits, Named digits file) :
    ∀ file ∈ added s job, ∃ digits, Named digits file := by
  intro file hfile
  rcases List.mem_append.mp hfile with hfile | hfile
  · exact hnamed file hfile
  · obtain rfl := List.mem_singleton.mp hfile
    exact (named_lims s.i job).imp fun _ h => h.1

theorem addJob_cases (hdrive : ∀ k sent, (drive k sent).Perm sent)
    (hnamed : ∀ file ∈ s.files, ∃ digits, Named digits file)
    (h : addJob drive m njobs s job = .ok s') :
    s'.i = s.i + 1 ∧
      ((Asks m njobs s.i (added s job) ∧ s'.files = [] ∧ ∃ sorted : List blockLims,
          sorted.Perm ((added s job).take
            (min (int (added s job).length) (int m.toNat)).toNat) ∧
          s'.raoOrder = s.raoOrder ++ ids sorted) ∨
        (¬Asks m njobs s.i (added s job) ∧ s'.files = added s job ∧
          s'.raoOrder = s.raoOrder)) := by
  simp only [addJob] at h
  split at h
  · rename_i hasks
    cases hquery : queryRAO (drive s.queries) (s.files ++ [lims s.i job]) (int m.toNat) with
    | error failure => rw [hquery] at h; cases h
    | ok sorted =>
      rw [hquery] at h
      obtain rfl := Except.ok.inj h
      exact ⟨rfl, .inl ⟨hasks, rfl, sorted,
        queryRAO_perm (hdrive s.queries) (named_added job hnamed) hquery, rfl⟩⟩
  · rename_i hasks
    obtain rfl := Except.ok.inj h
    exact ⟨rfl, .inr ⟨hasks, rfl, rfl⟩⟩

theorem performRAO_run (Inv : Progress → Prop)
    (hstep : ∀ s s' job, Inv s → jobs[s.i.toNat]? = some job →
      addJob drive m jobs.length s job = .ok s' → Inv s') {fuel : ℕ} (hs : Inv s)
    (h : performRAO drive m jobs fuel s = some (.ok raoOrder)) :
    ∃ s', Inv s' ∧ jobs.length ≤ s'.i.toNat ∧ raoOrder = s'.raoOrder ++ ids s'.files := by
  induction fuel generalizing s with
  | zero => cases h
  | succ fuel ih =>
    rw [performRAO] at h
    split at h
    · rename_i hnone
      obtain rfl := Except.ok.inj (Option.some.inj h)
      exact ⟨s, hs, List.getElem?_eq_none_iff.mp hnone, rfl⟩
    · rename_i job hjob
      split at h
      · cases h
      · rename_i s' hadd
        exact ih (hstep s s' job hs hjob hadd) h

/-- Whatever is read back has at most four digits. -/
structure Short (s : Progress) : Prop where
  named : ∀ file ∈ s.files, ∃ digits, Named digits file
  small : ∀ id ∈ s.raoOrder, id < 10000

theorem short_start : Short {} := ⟨nofun, nofun⟩

theorem Short.addJob (hs : Short s) (hdrive : ∀ k sent, (drive k sent).Perm sent)
    (h : addJob drive m njobs s job = .ok s') : Short s' := by
  have hadded := named_added job hs.named
  obtain ⟨-, ⟨-, hfiles, sorted, hperm, horder⟩ | ⟨-, hfiles, horder⟩⟩ :=
    addJob_cases hdrive hs.named h
  · refine ⟨by rw [hfiles]; exact nofun, fun id hid => ?_⟩
    rw [horder] at hid
    rcases List.mem_append.mp hid with hid | hid
    · exact hs.small id hid
    · exact ids_lt (fun file hfile =>
        hadded file (List.mem_of_mem_take (hperm.mem_iff.mp hfile))) id hid
  · exact ⟨by rwa [hfiles], by rw [horder]; exact hs.small⟩

theorem Permutes.length_le (hdrive : ∀ k sent, (drive k sent).Perm sent)
    (h : Permutes drive m jobs) : jobs.length ≤ 10000 := by
  obtain ⟨fuel, raoOrder, hrun, hperm, -⟩ := h
  obtain ⟨s, hs, -, horder⟩ :=
    performRAO_run Short (fun s s' job hs _ hadd => hs.addJob hdrive hadd) short_start hrun
  by_contra! hlong
  have hmem : 10000 ∈ raoOrder := hperm.mem_iff.mpr (List.mem_range.mpr hlong)
  rw [horder] at hmem
  rcases List.mem_append.mp hmem with hmem | hmem
  · exact absurd (hs.small _ hmem) (by decide)
  · exact absurd (ids_lt hs.named _ hmem) (by decide)

theorem toNat_succ {i : UInt32} (hi : i.toNat < 10000) : (i + 1).toNat = i.toNat + 1 := by
  rw [UInt32.toNat_add]
  have : (1 : UInt32).toNat = 1 := rfl
  omega

/-- The drive is sent all the files that it is asked about. -/
def Fits (m : UInt64) (njobs : ℕ) : Prop := 1 < njobs → (min njobs m.toNat : ℕ) ≤ int m.toNat

/-- All jobs up to now are in the order or wait for the next query. -/
structure Kept (m : UInt64) (njobs : ℕ) (s : Progress) : Prop where
  inside : s.i.toNat ≤ njobs
  named : ∀ file ∈ s.files, ∃ digits, Named digits file
  room : s.files.length < m.toNat
  waiting : s.files.length ≤ s.i.toNat
  perm : (s.raoOrder ++ ids s.files).Perm (List.range s.i.toNat)

theorem ids_added (s : Progress) (job : RetrieveJob) (hi : s.i.toNat < 10000) :
    ids (added s job) = ids s.files ++ [s.i.toNat] := by
  obtain ⟨digits, hnamed, hvalue⟩ := named_lims s.i job
  rw [ids, added, List.map_append, List.map_singleton, hnamed.atoi_eq, hvalue hi, ids]

theorem int_le_of_asks (hfits : Fits m njobs) (hshort : njobs ≤ 10000) {n : ℕ} (hn : n ≤ njobs)
    (hm : n ≤ m.toNat) (hasks : n = m.toNat ∨ n > 1) : (n : ℤ) ≤ int m.toNat := by
  by_cases hone : 1 < njobs
  · exact (Int.ofNat_le.mpr (le_min hn hm)).trans (hfits hone)
  · have hmn : n = m.toNat := hasks.resolve_right (by omega)
    rw [int_eq (by omega), hmn]

theorem Kept.addJob (hdrive : ∀ k sent, (drive k sent).Perm sent) (hs : Kept m njobs s)
    (hfits : Fits m njobs) (hshort : njobs ≤ 10000) (hi : s.i.toNat < njobs) (job : RetrieveJob) :
    ∃ s', addJob drive m njobs s job = .ok s' ∧ s'.i.toNat = s.i.toNat + 1 ∧
      Kept m njobs s' := by
  have hlength : (added s job).length = s.files.length + 1 := by simp [added]
  have hroom := hs.room
  have hwaiting := hs.waiting
  have hsucc := toNat_succ (i := s.i) (by omega)
  have hall (hasks : Asks m njobs s.i (added s job)) :
      ((added s job).length : ℤ) ≤ int m.toNat :=
    int_le_of_asks hfits hshort (by omega) (by omega) (hasks.imp_right fun h => h.2)
  obtain ⟨s', hadd⟩ : ∃ s', EnterpriseRao.addJob drive m njobs s job = .ok s' := by
    simp only [EnterpriseRao.addJob]
    split
    · rename_i hasks
      obtain ⟨sorted, hquery⟩ : ∃ sorted,
          queryRAO (drive s.queries) (added s job) (int m.toNat) = .ok sorted :=
        queryRAO_ok (by omega) (hall hasks)
      rw [added] at hquery
      exact ⟨_, by rw [hquery]; rfl⟩
    · exact ⟨_, rfl⟩
  have hids := ids_added s job (by omega)
  have hrange : (s.raoOrder ++ ids (added s job)).Perm (List.range (s.i.toNat + 1)) := by
    rw [hids, ← List.append_assoc, List.range_succ]
    exact hs.perm.append_right _
  obtain ⟨hi', hcases⟩ := addJob_cases hdrive hs.named hadd
  rw [← hi'] at hsucc
  refine ⟨s', hadd, hsucc, ?_⟩
  rcases hcases with ⟨hasks, hfiles, sorted, hperm, horder⟩ | ⟨hasks, hfiles, horder⟩
  · rw [min_eq_left ((int_eq (by omega)).trans_le (hall hasks)), int_eq (by omega),
      Int.toNat_natCast, List.take_length] at hperm
    refine ⟨by omega, by rw [hfiles]; exact nofun, by rw [hfiles]; exact Nat.zero_lt_of_lt hroom,
      by rw [hfiles]; exact Nat.zero_le _, ?_⟩
    rw [hfiles, horder, hsucc]
    have hsorted : (ids sorted).Perm (ids (added s job)) :=
      hperm.map fun file : blockLims => atoi file.fseq
    have hnone : ids [] = [] := rfl
    rw [hnone, List.append_nil]
    exact (hsorted.append_left s.raoOrder).trans hrange
  · have hfull : (added s job).length ≠ m.toNat := fun hfull => hasks (.inl hfull)
    refine ⟨by omega, by rw [hfiles]; exact named_added job hs.named, by rw [hfiles]; omega,
      by rw [hfiles]; omega, ?_⟩
    rwa [hfiles, horder, hsucc]

theorem Kept.performRAO (hdrive : ∀ k sent, (drive k sent).Perm sent)
    (hs : Kept m jobs.length s) (hfits : Fits m jobs.length) (hshort : jobs.length ≤ 10000) :
    ∃ raoOrder, performRAO drive m jobs (jobs.length - s.i.toNat + 1) s = some (.ok raoOrder) ∧
      raoOrder.Perm (List.range jobs.length) := by
  induction hleft : jobs.length - s.i.toNat generalizing s with
  | zero =>
    have hend : s.i.toNat = jobs.length := by have := hs.inside; omega
    have hnone : jobs[s.i.toNat]? = none := List.getElem?_eq_none hend.ge
    exact ⟨s.raoOrder ++ ids s.files, by simp [EnterpriseRao.performRAO, hnone], hend ▸ hs.perm⟩
  | succ left ih =>
    have hi : s.i.toNat < jobs.length := by omega
    have hjob : jobs[s.i.toNat]? = some jobs[s.i.toNat] := List.getElem?_eq_getElem hi
    obtain ⟨s', hadd, hsucc, hs'⟩ := hs.addJob hdrive hfits hshort hi jobs[s.i.toNat]
    obtain ⟨raoOrder, hrun, hperm⟩ := ih hs' (by omega)
    refine ⟨raoOrder, ?_, hperm⟩
    rw [EnterpriseRao.performRAO, hjob]
    simp only [hadd, hrun]

theorem performRAO_ok (hm : 1 ≤ m) (hdrive : ∀ k sent, (drive k sent).Perm sent)
    (hfits : Fits m jobs.length) (hshort : jobs.length ≤ 10000) :
    ∃ raoOrder, performRAO drive m jobs (jobs.length + 1) {} = some (.ok raoOrder) ∧
      raoOrder.Perm (List.range jobs.length) := by
  have hstart : Kept m jobs.length {} :=
    ⟨Nat.zero_le _, nofun, UInt64.le_iff_toNat_le.mp hm, le_rfl, .refl _⟩
  exact hstart.performRAO hdrive hfits hshort

theorem toNat_min_lt {a b : ℤ} {n : ℕ} (hn : 0 < n) (hb : b < n) : (min a b).toNat < n := by
  omega

/-- One query loses files when the drive is sent fewer than there are. -/
def Lost (njobs : ℕ) (s : Progress) : Prop :=
  (s.i.toNat = s.files.length ∧ s.raoOrder = [] ∧ s.files.length < njobs) ∨
    (s.i.toNat = njobs ∧ s.raoOrder.length < njobs ∧ s.files = [])

theorem Lost.addJob (hdrive : ∀ k sent, (drive k sent).Perm sent)
    (hnamed : ∀ file ∈ s.files, ∃ digits, Named digits file) (hs : Lost njobs s)
    (hi : s.i.toNat < njobs) (hshort : njobs ≤ 10000) (hone : 1 < njobs) (hm : njobs < m.toNat)
    (hfew : int m.toNat < njobs) (h : addJob drive m njobs s job = .ok s') : Lost njobs s' := by
  obtain ⟨hcount, horder, -⟩ | ⟨hend, -⟩ := hs
  · have hlength : (added s job).length = s.files.length + 1 := by simp [added]
    have hsucc := toNat_succ (i := s.i) (by omega)
    obtain ⟨hi', ⟨hasks, hfiles, sorted, hperm, horder'⟩ | ⟨hasks, hfiles, horder'⟩⟩ :=
      addJob_cases hdrive hnamed h
    · obtain ⟨hlast, -⟩ : s.i.toNat = njobs - 1 ∧ _ := hasks.resolve_left (by omega)
      have hsorted : (ids sorted).length < njobs := by
        rw [ids, List.length_map, hperm.length_eq]
        exact (List.length_take_le _ _).trans_lt (toNat_min_lt (by omega) hfew)
      refine .inr ⟨by rw [hi', hsucc]; omega, ?_, hfiles⟩
      rwa [horder', horder]
    · have hlast : ¬s.i.toNat = njobs - 1 := fun hlast =>
        hasks (.inr ⟨hlast, by omega⟩)
      exact .inl ⟨by rw [hi', hsucc, hfiles]; omega, by rw [horder', horder],
        by rw [hfiles]; omega⟩
  · omega

theorem Permutes.fits (hdrive : ∀ k sent, (drive k sent).Perm sent) (h : Permutes drive m jobs) :
    Fits m jobs.length := by
  have hshort := h.length_le hdrive
  obtain ⟨fuel, raoOrder, hrun, hperm, -⟩ := h
  intro hone
  by_contra! hfew
  have hm : jobs.length < m.toNat := by
    by_contra! hm
    rw [int_eq (by omega), min_eq_right hm] at hfew
    exact lt_irrefl _ hfew
  rw [min_eq_left hm.le] at hfew
  have hstart : Short {} ∧ Lost jobs.length {} :=
    ⟨short_start, .inl ⟨rfl, rfl, Nat.zero_lt_of_lt hone⟩⟩
  obtain ⟨s, ⟨-, hs⟩, hend, horder⟩ := performRAO_run
    (fun s => Short s ∧ Lost jobs.length s) (fun s s' job hs hjob hadd =>
      ⟨hs.1.addJob hdrive hadd, hs.2.addJob hdrive hs.1.named (List.getElem?_eq_some_iff.mp hjob).1
        hshort hone hm hfew hadd⟩) hstart hrun
  have hall : raoOrder.length = jobs.length := by rw [hperm.length_eq, List.length_range]
  obtain ⟨hcount, -, hless⟩ | ⟨-, hless, hfiles⟩ := hs
  · omega
  · rw [horder, hfiles, ids, List.map_nil, List.append_nil] at hall
    omega

theorem filterMap_range (jobs : List RetrieveJob) :
    ((List.range jobs.length).filterMap fun i => jobs[i]?) = jobs := by
  induction jobs with
  | nil => rfl
  | cons job jobs ih =>
    rw [List.length_cons, List.range_succ_eq_map, List.filterMap_cons, List.filterMap_map]
    exact congrArg (job :: ·) ih

/-- Up to 10000 jobs, if the number of files is still the same as an `int`. -/
theorem permutes_iff (hm : 1 ≤ m) (hdrive : ∀ k sent, (drive k sent).Perm sent) :
    Permutes drive m jobs ↔ jobs.length ≤ 10000 ∧ Fits m jobs.length := by
  constructor
  · exact fun h => ⟨h.length_le hdrive, h.fits hdrive⟩
  · rintro ⟨hshort, hfits⟩
    obtain ⟨raoOrder, hrun, hperm⟩ := performRAO_ok hm hdrive hfits hshort
    refine ⟨_, raoOrder, hrun, hperm, ?_⟩
    have honce := hperm.filterMap fun i => jobs[i]?
    rwa [filterMap_range] at honce

theorem permutes_iff_two : Permutes (fun _ => List.reverse) 30 (List.replicate 2 ⟨0, 0⟩) :=
  (permutes_iff (by decide) fun _ => List.reverse_perm).mpr
    ⟨by decide, fun _ => by rw [int_eq (by decide)]; decide⟩

/-- The last job of 10001 is taken for job 1000. -/
theorem not_permutes_10001 :
    ¬Permutes (fun _ => List.reverse) 30 (List.replicate 10001 ⟨0, 0⟩) := by
  intro h
  have hle := h.length_le fun _ => List.reverse_perm
  rw [List.length_replicate] at hle
  exact absurd hle (by decide)

end

end Cta.Tape.EnterpriseRao

import Cta.Common.Crc

/-! Writing and reading blocks on a drive with logical block protection. -/
namespace Cta.Tape.DriveGeneric
open Cta.Common.Crc

inductive LbpToUse where
  | disabled
  | crc32cReadWrite
  | crc32cReadOnly
  deriving DecidableEq, Repr

def CRC32CLength : Nat := 4
def CRC32CSeed : Word := 0xFFFFFFFF#32

abbrev Errno := Nat
def ENOMEM : Errno := 12
def ENOSPC : Errno := 28

inductive Thrown where
  | memException (message : String)
  | errnum (errno : Errno) (message : String)
  | unexpectedSize (context : String)
  | exception (message : String)
  deriving DecidableEq, Repr

/-- A record on tape. There is no such thing as a zero length block, and `read` returns its
length as a signed 64-bit number. -/
structure Record where
  bytes : List Byte
  nonempty : bytes ≠ []
  fits : bytes.length < 2 ^ 63
  deriving DecidableEq

/-- What the machine does to a call: its processor, whether memory can be allocated, the error
of the system call, if any, and the one of an earlier call. -/
structure Machine where
  sse42 : Bool
  allocates : Bool
  errno : Option Errno
  lastErrno : Errno
  deriving DecidableEq, Repr

/-- `read` of the tape device: a whole record, or an error if it does not fit. -/
def Machine.read (m : Machine) (r : Record) (count : Nat) : Except Errno (List Byte) :=
  match m.errno with
  | some e => .error e
  | none => if r.bytes.length ≤ count then .ok r.bytes else .error ENOMEM

def Machine.write (m : Machine) (block : List Byte) : Except Errno (List Byte) :=
  match m.errno with
  | some e => .error e
  | none => .ok block

def writeBlock (m : Machine) (lbpToUse : LbpToUse) (data : List Byte) : Except Thrown (List Byte) :=
  match lbpToUse with
  | .crc32cReadWrite =>
    if m.allocates then
      let count := data.length
      let dataWithCrc32c := data ++ List.replicate CRC32CLength 0
      -- the size is passed as a 32-bit number
      let (countWithCrc32c, dataWithCrc32c) :=
        addCrc32cToMemoryBlock m.sse42 CRC32CSeed (count % 2 ^ 32) dataWithCrc32c
      if countWithCrc32c ≠ count + CRC32CLength then
        .error (.errnum m.lastErrno ("Failed in DriveGeneric::writeBlock: incorrect length for block" ++
          " with crc32c"))
      else
        match m.write (dataWithCrc32c.take countWithCrc32c) with
        | .ok block => .ok block
        | .error e =>
          .error (.errnum e "Failed ST write with crc32c in DriveGeneric::writeBlock")
    else
      .error (.memException ("Failed to allocate memory " ++
        " for a new MemBlock in DriveGeneric::writeBlock!"))
  | .crc32cReadOnly =>
    .error (.exception ("In DriveGeneric::writeBlock: " ++
      "trying to write a block in CRC-readonly mode"))
  | .disabled =>
    match m.write data with
    | .ok block => .ok block
    | .error e => .error (.errnum e "Failed ST write in DriveGeneric::writeBlock")

def withoutCrc32c (res : Nat) : Nat := (((res : Int) - CRC32CLength) % 2 ^ 64).toNat

def readBlock (m : Machine) (lbpToUse : LbpToUse) (r : Record) (count : Nat) :
    Except Thrown (List Byte) :=
  match lbpToUse with
  | .crc32cReadWrite | .crc32cReadOnly =>
    if m.allocates then
      match m.read r (count + CRC32CLength) with
      | .error e =>
        .error (.errnum e "In DriveGeneric::readBlock: Failed ST read (with checksum)")
      | .ok dataWithCrc32c =>
        let res := dataWithCrc32c.length
        if res = 0 then .ok []
        else
          let dataLenWithoutCrc32c := withoutCrc32c res
          if 0 ≥ dataLenWithoutCrc32c then
            .error (.exception
              "In DriveGeneric::readBlock: wrong data block size, checksum cannot fit")
          else if verifyCrc32cForMemoryBlockWithCrc32c m.sse42 CRC32CSeed (res % 2 ^ 32)
              dataWithCrc32c then
            .ok (dataWithCrc32c.take dataLenWithoutCrc32c)
          else .error (.exception "In DriveGeneric::readBlock: Failed checksum verification")
    else .error (.memException "In DriveGeneric::readBlock: Failed to allocate memory")
  | .disabled =>
    match m.read r count with
    | .error e => .error (.errnum e "In DriveGeneric::readBlock: Failed ST read")
    | .ok block => .ok block

def readExactBlock (m : Machine) (lbpToUse : LbpToUse) (r : Record) (data : List Byte)
    (context : String) : Except Thrown (List Byte) :=
  let count := data.length
  match lbpToUse with
  | .crc32cReadWrite | .crc32cReadOnly =>
    if m.allocates then
      match m.read r (count + CRC32CLength) with
      | .error e =>
        if e = ENOSPC then .error (.unexpectedSize context)
        else .error (.errnum e
          (context ++ ": Failed ST read with crc32c in DriveGeneric::readExactBlock"))
      | .ok dataWithCrc32c =>
        let res := dataWithCrc32c.length
        if withoutCrc32c res ≠ count then .error (.unexpectedSize context)
        else if verifyCrc32cForMemoryBlockWithCrc32c m.sse42 CRC32CSeed (res % 2 ^ 32)
            dataWithCrc32c then
          .ok (dataWithCrc32c.take count)
        else
          -- an exception is made here and not thrown
          .ok data
    else
      .error (.memException ("Failed to allocate memory " ++
        " for a new MemBlock in DriveGeneric::readBlock!"))
  | .disabled =>
    match m.read r count with
    | .error e =>
      if e = ENOSPC then .error (.unexpectedSize context)
      else .error (.errnum e (context ++ ": Failed ST read in DriveGeneric::readExactBlock"))
    | .ok block =>
      if block.length ≠ count then .error (.unexpectedSize context) else .ok block

def Matches (r : Record) : Prop :=
  4 < r.bytes.length ∧ r.bytes.drop (r.bytes.length - 4) =
    crcBytes (crc32c_sw CRC32CSeed (r.bytes.take (r.bytes.length - 4)))

/-- The check that is made of a record. Its length is passed as a 32-bit number. -/
def Verified (m : Machine) (r : Record) : Prop :=
  verifyCrc32cForMemoryBlockWithCrc32c m.sse42 CRC32CSeed (r.bytes.length % 2 ^ 32) r.bytes = true

def Protected (r : Record) : Except Thrown (List Byte) → Prop
  | .error _ => True
  | .ok payload => Matches r ∧ payload = r.bytes.take (r.bytes.length - 4)

variable {m : Machine} {r : Record}

theorem withoutCrc32c_of_le {n : Nat} (h : 4 ≤ n) (hn : n < 2 ^ 63) : withoutCrc32c n = n - 4 := by
  unfold withoutCrc32c CRC32CLength
  omega

theorem verified_iff_of_lt (hr : r.bytes.length < 2 ^ 32) : Verified m r ↔ Matches r := by
  unfold Verified Matches
  rw [Nat.mod_eq_of_lt hr, verify_iff _ _ (Nat.le_refl _), List.take_length]

theorem read_eq (h : m.errno = none) (count : Nat) :
    m.read r count =
      if r.bytes.length ≤ count then .ok r.bytes else .error ENOMEM := by
  simp [Machine.read, h]

theorem Verified.length (h : Verified m r) : 4 < r.bytes.length := by
  have := ((verify_iff _ _ (Nat.mod_le _ _)).mp h).1
  have := Nat.mod_le r.bytes.length (2 ^ 32)
  omega

def Machine.Fails (m : Machine) : Prop := m.allocates = false ∨ m.errno ≠ none

theorem Machine.not_fails (h : ¬m.Fails) : m.allocates = true ∧ m.errno = none := by
  simpa [Machine.Fails] using h

theorem readBlock_mode {l : LbpToUse} (hl : l ≠ .disabled) (count : Nat) :
    readBlock m l r count = readBlock m .crc32cReadOnly r count := by
  cases l with
  | disabled => exact absurd rfl hl
  | crc32cReadWrite => rfl
  | crc32cReadOnly => rfl

theorem readExactBlock_mode {l : LbpToUse} (hl : l ≠ .disabled) (data : List Byte) (c : String) :
    readExactBlock m l r data c = readExactBlock m .crc32cReadOnly r data c := by
  cases l with
  | disabled => exact absurd rfl hl
  | crc32cReadWrite => rfl
  | crc32cReadOnly => rfl

theorem read_of_long (count : Nat) (h : m.Fails ∨ count < r.bytes.length)
    (ha : m.allocates = true) : ∃ e, m.read r count = .error e := by
  unfold Machine.read
  cases he : m.errno with
  | some e => exact ⟨e, rfl⟩
  | none =>
    have hlong : ¬r.bytes.length ≤ count := by
      simpa [Machine.Fails, ha, he] using h
    exact ⟨ENOMEM, by simp [hlong]⟩

theorem readBlock_of_fails {count : Nat} (h : m.Fails ∨ count + 4 < r.bytes.length) :
    ∃ e, readBlock m .crc32cReadOnly r count = .error e := by
  cases ha : m.allocates with
  | false =>
    unfold readBlock
    rw [ha]
    exact ⟨_, rfl⟩
  | true =>
    obtain ⟨e, he⟩ := read_of_long (count + CRC32CLength) h ha
    unfold readBlock
    simp only [ha, he, if_true]
    exact ⟨_, rfl⟩

theorem readExactBlock_of_fails {data : List Byte} {c : String}
    (h : m.Fails ∨ data.length + 4 < r.bytes.length) :
    ∃ e, readExactBlock m .crc32cReadOnly r data c = .error e := by
  cases ha : m.allocates with
  | false =>
    unfold readExactBlock
    rw [ha]
    exact ⟨_, rfl⟩
  | true =>
    obtain ⟨e, he⟩ := read_of_long (data.length + CRC32CLength) h ha
    unfold readExactBlock
    simp only [ha, he, if_true]
    split
    · exact ⟨_, rfl⟩
    · exact ⟨_, rfl⟩

theorem readBlock_of_read {count : Nat} (h : ¬m.Fails) (hc : r.bytes.length ≤ count + 4) :
    (Verified m r ∧ readBlock m .crc32cReadOnly r count =
        .ok (r.bytes.take (r.bytes.length - 4))) ∨
      (¬Verified m r ∧ ∃ e, readBlock m .crc32cReadOnly r count = .error e) := by
  obtain ⟨ha, he⟩ := Machine.not_fails h
  have hread : m.read r (count + CRC32CLength) = .ok r.bytes := by
    simp [read_eq he, CRC32CLength, hc]
  have hne : r.bytes.length ≠ 0 := by simpa using r.nonempty
  unfold readBlock
  simp only [ha, hread, if_true, if_neg hne]
  by_cases hv : Verified m r
  · have hlen := hv.length
    have hsize := withoutCrc32c_of_le (by omega) r.fits
    have hpos : ¬0 ≥ withoutCrc32c r.bytes.length := by omega
    left
    refine ⟨hv, ?_⟩
    unfold Verified at hv
    rw [if_neg hpos, if_pos hv, hsize]
  · right
    refine ⟨hv, ?_⟩
    unfold Verified at hv
    split
    · exact ⟨_, rfl⟩
    · exact ⟨_, rfl⟩

theorem readExactBlock_of_read {data : List Byte} {c : String} (h : ¬m.Fails)
    (hc : r.bytes.length ≤ data.length + 4) :
    (withoutCrc32c r.bytes.length ≠ data.length ∧
        ∃ e, readExactBlock m .crc32cReadOnly r data c = .error e) ∨
      (withoutCrc32c r.bytes.length = data.length ∧ Verified m r ∧
        readExactBlock m .crc32cReadOnly r data c = .ok (r.bytes.take (r.bytes.length - 4))) ∨
      (withoutCrc32c r.bytes.length = data.length ∧ ¬Verified m r ∧
        readExactBlock m .crc32cReadOnly r data c = .ok data) := by
  obtain ⟨ha, he⟩ := Machine.not_fails h
  have hread : m.read r (data.length + CRC32CLength) = .ok r.bytes := by
    simp [read_eq he, CRC32CLength, hc]
  unfold readExactBlock
  simp only [ha, hread, if_true]
  by_cases hs : withoutCrc32c r.bytes.length = data.length
  · right
    simp only [hs, ne_eq, not_true, if_false, true_and]
    by_cases hv : Verified m r
    · left
      have hlen := hv.length
      have hsize := withoutCrc32c_of_le (by omega) r.fits
      refine ⟨hv, ?_⟩
      unfold Verified at hv
      rw [if_pos hv, ← hs, hsize]
    · right
      refine ⟨hv, ?_⟩
      unfold Verified at hv
      rw [if_neg hv]
  · left
    rw [if_pos hs]
    exact ⟨hs, _, rfl⟩

/-- When a mismatch that the check of the record finds, or does not find, makes no harm. -/
def ReadBlockOk (m : Machine) (r : Record) (count : Nat) : Prop :=
  m.Fails ∨ count + 4 < r.bytes.length ∨ ¬Verified m r ∨ Matches r

def ReadExactBlockOk (m : Machine) (r : Record) (data : List Byte) : Prop :=
  m.Fails ∨ data.length + 4 < r.bytes.length ∨ withoutCrc32c r.bytes.length ≠ data.length ∨
    (Matches r ∧ (Verified m r ∨ data = r.bytes.take (r.bytes.length - 4)))

theorem protected_of_error {e : Except Thrown (List Byte)} (h : ∃ t, e = .error t) :
    Protected r e := by
  obtain ⟨t, rfl⟩ := h
  trivial

theorem readBlock_protected_iff {l : LbpToUse} (hl : l ≠ .disabled) (count : Nat) :
    Protected r (readBlock m l r count) ↔ ReadBlockOk m r count := by
  rw [readBlock_mode hl]
  by_cases hf : m.Fails
  · exact ⟨fun _ => .inl hf, fun _ => protected_of_error (readBlock_of_fails (.inl hf))⟩
  by_cases hlong : count + 4 < r.bytes.length
  · exact ⟨fun _ => .inr (.inl hlong),
      fun _ => protected_of_error (readBlock_of_fails (.inr hlong))⟩
  cases readBlock_of_read hf (Nat.le_of_not_lt hlong) with
  | inl h =>
    rw [h.2]
    simp [Protected, ReadBlockOk, hf, hlong, h.1]
  | inr h => exact ⟨fun _ => .inr (.inr (.inl h.1)), fun _ => protected_of_error h.2⟩

theorem readExactBlock_protected_iff {l : LbpToUse} (hl : l ≠ .disabled) (data : List Byte)
    (c : String) : Protected r (readExactBlock m l r data c) ↔ ReadExactBlockOk m r data := by
  rw [readExactBlock_mode hl]
  by_cases hf : m.Fails
  · exact ⟨fun _ => .inl hf, fun _ => protected_of_error (readExactBlock_of_fails (.inl hf))⟩
  by_cases hlong : data.length + 4 < r.bytes.length
  · exact ⟨fun _ => .inr (.inl hlong),
      fun _ => protected_of_error (readExactBlock_of_fails (.inr hlong))⟩
  cases readExactBlock_of_read (c := c) hf (Nat.le_of_not_lt hlong) with
  | inl h => exact ⟨fun _ => .inr (.inr (.inl h.1)), fun _ => protected_of_error h.2⟩
  | inr h =>
    cases h with
    | inl h =>
      rw [h.2.2]
      simp [Protected, ReadExactBlockOk, hf, hlong, h.1, h.2.1]
    | inr h =>
      rw [h.2.2]
      simp [Protected, ReadExactBlockOk, hf, hlong, h.1, h.2.1]

theorem writeBlock_ok {data block : List Byte}
    (h : writeBlock m .crc32cReadWrite data = .ok block) :
    data ≠ [] ∧ data.length + 4 < 2 ^ 32 ∧
    block = data ++ crcBytes (crc32c_sw CRC32CSeed data) := by
  unfold writeBlock CRC32CLength at h
  have hmod := Nat.mod_lt data.length (show 0 < 2 ^ 32 by decide)
  by_cases ha : m.allocates = true
  · simp only [ha, if_true] at h
    by_cases hz : data.length % 2 ^ 32 = 0
    · rw [hz, addCrc32cToMemoryBlock_zero] at h
      have hne : 0 ≠ data.length + 4 := by omega
      simp only [ne_eq, hne, not_false_eq_true, if_true] at h
      cases h
    · split at h
      · cases h
      · next hlen =>
        rw [addCrc32cToMemoryBlock_size _ _ hz, ne_eq, not_not] at hlen
        have hsmall : data.length + 4 < 2 ^ 32 := by omega
        have hcnt : data.length % 2 ^ 32 = data.length := Nat.mod_eq_of_lt (by omega)
        have hall : (data.length + 4) % 2 ^ 32 = data.length + 4 := Nat.mod_eq_of_lt hsmall
        have htake : (data ++ List.replicate 4 (0 : Byte)).take data.length = data := by simp
        have hdrop : (data ++ List.replicate 4 (0 : Byte)).drop (data.length + 4) = [] := by simp
        rw [hcnt] at hz h
        rw [addCrc32cToMemoryBlock_eq _ _ hz hsmall.le (by simp), hall, htake, hdrop,
          List.append_nil, crc32c_eq, htake] at h
        unfold Machine.write at h
        cases he : m.errno with
        | some e =>
          rw [he] at h
          cases h
        | none =>
          rw [he] at h
          refine ⟨?_, hsmall, ?_⟩
          · intro hnil
            simp [hnil] at hz
          · have hfull : (data ++ crcBytes (crc32c_sw CRC32CSeed data)).take (data.length + 4) =
                data ++ crcBytes (crc32c_sw CRC32CSeed data) := by
              apply List.take_of_length_le
              simp [crcBytes_length]
            rw [hfull] at h
            exact (Except.ok.inj h).symm
  · simp [ha] at h

theorem read_written {data block : List Byte} (hw : writeBlock m .crc32cReadWrite data = .ok block)
    (hr : r.bytes = block) {m' : Machine} (hm : ¬m'.Fails) :
    (∀ count, data.length ≤ count → readBlock m' .crc32cReadOnly r count = .ok data) ∧
      ∀ buffer c, buffer.length = data.length →
        readExactBlock m' .crc32cReadOnly r buffer c = .ok data := by
  obtain ⟨hne, hsmall, hblock⟩ := writeBlock_ok hw
  have hpos : 0 < data.length := List.length_pos_iff.mpr hne
  have hlen : r.bytes.length = data.length + 4 := by
    rw [hr, hblock, List.length_append, crcBytes_length]
  have htake : r.bytes.take (r.bytes.length - 4) = data := by
    rw [hlen, hr, hblock]
    simp
  have hmatch : Matches r := by
    refine ⟨by omega, ?_⟩
    rw [htake, hlen, hr, hblock]
    simp
  have hver : Verified m' r := (verified_iff_of_lt (by omega)).mpr hmatch
  constructor
  · intro count hc
    cases readBlock_of_read hm (show r.bytes.length ≤ count + 4 by omega) with
    | inl h => rw [h.2, htake]
    | inr h => exact absurd hver h.1
  · intro buffer c hb
    have hsize := withoutCrc32c_of_le (show 4 ≤ r.bytes.length by omega) r.fits
    cases readExactBlock_of_read (c := c) hm (show r.bytes.length ≤ buffer.length + 4 by omega) with
    | inl h => exact absurd (by omega) h.1
    | inr h =>
      cases h with
      | inl h => rw [h.2.2, htake]
      | inr h => exact absurd hver h.2.1

/-- `readBlock` hands over nothing that does not match, while the length fits in 32 bits;
`readExactBlock` does not refuse a record of the expected length that does not match. What was
written is read back by both. -/
theorem lbp_enforced_iff {l : LbpToUse} (hl : l ≠ .disabled) (m : Machine) (r : Record)
    (count : Nat) (data : List Byte) (context : String) :
    ((Protected r (readBlock m l r count) ∧ Protected r (readExactBlock m l r data context)) ↔
      (ReadBlockOk m r count ∧ ReadExactBlockOk m r data)) ∧
      ∀ w payload, writeBlock w .crc32cReadWrite payload = .ok r.bytes → ¬m.Fails →
        (payload.length ≤ count → readBlock m l r count = .ok payload) ∧
          (data.length = payload.length → readExactBlock m l r data context = .ok payload) := by
  constructor
  · rw [readBlock_protected_iff hl, readExactBlock_protected_iff hl]
  · intro w payload hw hm
    obtain ⟨hblock, hexact⟩ := read_written hw rfl hm
    rw [readBlock_mode hl, readExactBlock_mode hl]
    exact ⟨hblock count, hexact data context⟩

def zeros : Record := ⟨List.replicate 5 0, by decide, by decide⟩

def goodMachine : Machine := ⟨true, true, none, 0⟩

/-- One byte as it is written to the tape. -/
def written : Record := ⟨[7, 186, 55, 183, 134], by decide, by decide⟩

theorem lbp_enforced_iff_written :
    (Protected written (readBlock goodMachine .crc32cReadWrite written 1) ∧
      Protected written (readExactBlock goodMachine .crc32cReadWrite written [0] "HDR1")) ∧
      readBlock goodMachine .crc32cReadWrite written 1 = .ok [7] ∧
      readExactBlock goodMachine .crc32cReadWrite written [0] "HDR1" = .ok [7] := by
  have hmode : LbpToUse.crc32cReadWrite ≠ .disabled := by decide
  have hmatches : Matches written := ⟨by decide, by decide +kernel⟩
  have hverified : Verified goodMachine written := (verified_iff_of_lt (by decide)).mpr hmatches
  obtain ⟨hiff, hback⟩ := lbp_enforced_iff hmode goodMachine written 1 [0] "HDR1"
  refine ⟨hiff.mpr ⟨.inr (.inr (.inr hmatches)), .inr (.inr (.inr ⟨hmatches, .inl hverified⟩))⟩, ?_⟩
  obtain ⟨hblock, hexact⟩ := hback goodMachine [7] (by decide +kernel) (by simp [Machine.Fails,
    goodMachine])
  exact ⟨hblock (by decide), hexact rfl⟩

/-- The caller is told that its buffer holds a block, and no CRC was right. -/
theorem mismatch_accepted :
    readExactBlock goodMachine .crc32cReadWrite zeros [7] "HDR1" = .ok [7] ∧
      ¬Protected zeros (readExactBlock goodMachine .crc32cReadWrite zeros [7] "HDR1") := by
  have hok : readExactBlock goodMachine .crc32cReadWrite zeros [7] "HDR1" = .ok [7] := by
    decide +kernel
  refine ⟨hok, ?_⟩
  rw [hok]
  intro h
  have hpayload : ([7] : List Byte) = [0] := h.2
  exact absurd hpayload (by decide)

end Cta.Tape.DriveGeneric

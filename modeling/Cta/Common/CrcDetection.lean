import Cta.Common.Crc

/-! What the CRC of a memory block detects. -/
namespace Cta.Common.Crc
open Cta.Lib.ReflectedCrc

/-- The bits of a byte as the reflected CRC takes them, the lowest one first. -/
def bitsOfByte (d : Byte) : List Bool := (List.range 8).map d.getLsbD

def bits (block : List Byte) : List Bool := block.flatMap bitsOfByte

def crc32cBitwise (crcInit : Word) (block : List Byte) : Word :=
  remainder polynomial crcInit (bits block) ^^^ 0xFFFFFFFF#32

def Burst (n : Nat) (block changed : List Byte) : Prop :=
  ∃ before bs cs after, bits block = before ++ bs ++ after ∧ bits changed = before ++ cs ++ after ∧
    bs.length = cs.length ∧ bs.length ≤ n ∧ bs ≠ cs

/-- The block that was extended is accepted by any machine, and with a burst in it by none. -/
def Guarded (sse42 : Bool) (crcInit : Word) (cnt : Nat) (start : List Byte) : Prop :=
  let extended := addCrc32cToMemoryBlock sse42 crcInit cnt start
  ∀ sse42', verifyCrc32cForMemoryBlockWithCrc32c sse42' crcInit extended.1 extended.2 = true ∧
    ∀ changed, Burst 32 (extended.2.take extended.1) changed →
      verifyCrc32cForMemoryBlockWithCrc32c sse42' crcInit extended.1
        (changed ++ extended.2.drop extended.1) = false

theorem bits_append (block block' : List Byte) :
    bits (block ++ block') = bits block ++ bits block' :=
  List.flatMap_append

theorem length_bits (block : List Byte) : (bits block).length = 8 * block.length := by
  induction block with
  | nil => rfl
  | cons d block ih =>
    have hcons : bits (d :: block) = bitsOfByte d ++ bits block := rfl
    rw [hcons, List.length_append, ih, List.length_cons, bitsOfByte, List.length_map,
      List.length_range]
    omega

theorem crc32Instruction_eq (crc : Word) (d : Byte) :
    crc32Instruction crc d = remainder polynomial crc (bitsOfByte d) := by
  have hlength : (bitsOfByte d).length = 8 := rfl
  have hle : (bitsOfByte d).length ≤ 32 := by omega
  have hword : wordOf 32 (bitsOfByte d) = d.setWidth 32 := by
    apply BitVec.eq_of_getLsbD_eq
    intro i _
    rw [getLsbD_wordOf hle, getLsbD_byte, bitsOfByte]
    by_cases hi : i < 8
    · simp [hi]
    · simp [hi]
  rw [remainder_eq polynomial hle, hlength, hword]
  rfl

theorem foldl_crc32Instruction (crc : Word) (block : List Byte) :
    block.foldl crc32Instruction crc = remainder polynomial crc (bits block) := by
  induction block generalizing crc with
  | nil => rfl
  | cons d block ih =>
    have hcons : bits (d :: block) = bitsOfByte d ++ bits block := rfl
    rw [List.foldl_cons, ih, crc32Instruction_eq, hcons, remainder_append]

theorem crc32c_sw_eq_bitwise (crcInit : Word) (block : List Byte) :
    crc32c_sw crcInit block = crc32cBitwise crcInit block := by
  have hstep : tableStep = crc32Instruction := by
    funext crc d
    exact tableStep_eq crc d
  rw [crc32c_sw, hstep, foldl_crc32Instruction]
  rfl

theorem bits_crcBytes (crc : Word) : bits (crcBytes crc) = (List.range 32).map crc.getLsbD := by
  simp [bits, bitsOfByte, crcBytes, List.range_succ]

theorem wordOf_bits_crcBytes (crc : Word) : wordOf 32 (bits (crcBytes crc)) = crc := by
  apply BitVec.eq_of_getLsbD_eq
  intro i hi
  rw [getLsbD_wordOf (by simp [length_bits]), bits_crcBytes]
  simp [hi]

def residue : Word := (divide polynomial)^[32] 0xFFFFFFFF#32

theorem remainder_with_crc (crcInit : Word) (data : List Byte) :
    remainder polynomial crcInit (bits (data ++ crcBytes (crc32c_sw crcInit data))) = residue := by
  have hlength : (bits (crcBytes (crc32c_sw crcInit data))).length = 32 := by simp [length_bits]
  rw [bits_append, remainder_append, remainder_eq polynomial hlength.le, hlength,
    wordOf_bits_crcBytes, crc32c_sw_eq_bitwise, crc32cBitwise, ← BitVec.xor_assoc, BitVec.xor_self,
    BitVec.zero_xor]
  rfl

theorem remainder_of_accepted {sse42 : Bool} {crcInit : Word} {block behind : List Byte}
    (h : verifyCrc32cForMemoryBlockWithCrc32c sse42 crcInit block.length (block ++ behind) = true) :
    remainder polynomial crcInit (bits block) = residue := by
  obtain ⟨hlt, hcrc⟩ := (verify_iff sse42 crcInit (by simp)).mp h
  have hdata : (block ++ behind).take (block.length - 4) = block.take (block.length - 4) :=
    List.take_append_of_le_length (Nat.sub_le _ _)
  rw [List.take_left, hdata] at hcrc
  rw [← remainder_with_crc crcInit (block.take (block.length - 4)), ← hcrc, List.take_append_drop]

theorem length_of_burst {n : Nat} {block changed : List Byte} (h : Burst n block changed) :
    changed.length = block.length := by
  obtain ⟨before, bs, cs, after, hbits, hbits', hlength, -, -⟩ := h
  have heq : (bits changed).length = (bits block).length := by
    rw [hbits, hbits', List.length_append, List.length_append, List.length_append,
      List.length_append, hlength]
  rw [length_bits, length_bits] at heq
  omega

theorem rejected_of_burst {sse42 sse42' : Bool} {crcInit : Word}
    {block changed behind behind' : List Byte}
    (h : verifyCrc32cForMemoryBlockWithCrc32c sse42 crcInit block.length (block ++ behind) = true)
    (hburst : Burst 32 block changed) :
    verifyCrc32cForMemoryBlockWithCrc32c sse42' crcInit block.length (changed ++ behind') =
      false := by
  rw [← length_of_burst hburst]
  refine Bool.eq_false_iff.mpr fun h' => ?_
  obtain ⟨before, bs, cs, after, hbits, hbits', hlength, hle, hne⟩ := hburst
  have hsame := (remainder_of_accepted h).trans (remainder_of_accepted h').symm
  rw [hbits, hbits'] at hsame
  exact remainder_ne_of_burst (by decide) hle hlength hne crcInit before after hsame

theorem guarded_iff (sse42 : Bool) (crcInit : Word) {cnt : Nat} {start : List Byte}
    (hcnt : cnt ≠ 0) (hsize : cnt < 2 ^ 32) (hroom : cnt + 4 ≤ start.length) :
    Guarded sse42 crcInit cnt start ↔ cnt + 4 < 2 ^ 32 := by
  constructor
  · intro h
    by_contra hlarge
    have hsmall : (cnt + 4) % 2 ^ 32 ≤ 4 := by omega
    have haccepted := (h sse42).1
    rw [addCrc32cToMemoryBlock_size sse42 crcInit hcnt start,
      verifyCrc32cForMemoryBlockWithCrc32c, if_pos hsmall] at haccepted
    exact Bool.false_ne_true haccepted
  · intro hsmall sse42'
    have hextended := addCrc32cToMemoryBlock_eq sse42 crcInit hcnt hsmall.le hroom
    rw [Nat.mod_eq_of_lt hsmall, crc32c_eq] at hextended
    rw [hextended]
    generalize hdata : start.take cnt = data
    have hdata' : data.length = cnt := by
      rw [← hdata]
      exact List.length_take_of_le (by omega)
    generalize hblock : data ++ crcBytes (crc32c_sw crcInit data) = block
    have hlength : block.length = cnt + 4 := by
      rw [← hblock, List.length_append, crcBytes_length, hdata']
    have haccepted : ∀ sse42 behind, verifyCrc32cForMemoryBlockWithCrc32c sse42 crcInit
        block.length (block ++ behind) = true := by
      intro sse42 behind
      refine (verify_iff sse42 crcInit (by simp)).mpr ⟨by omega, ?_⟩
      have htake : (block ++ behind).take (block.length - 4) = data := by
        rw [hlength, Nat.add_sub_cancel, ← hblock, ← hdata', List.append_assoc, List.take_left]
      rw [List.take_left, htake, hlength, Nat.add_sub_cancel, ← hblock, ← hdata', List.drop_left]
    simp only [← hlength, List.take_left, List.drop_left]
    exact ⟨haccepted sse42' _, fun changed => rejected_of_burst (haccepted sse42' [])⟩

/-- The two implementations are the bitwise CRC32C, and a block that was extended is guarded unless
its size with the CRC is more than a 32-bit number. -/
theorem crc32c_detects_iff (crcInit : Word) (block : List Byte) :
    (crc32c_sw crcInit block = crc32cBitwise crcInit block ∧
      crc32c_hw crcInit block = crc32cBitwise crcInit block) ∧
    ∀ (sse42 : Bool) (cnt : Nat) (start : List Byte),
      cnt ≠ 0 → cnt < 2 ^ 32 → cnt + 4 ≤ start.length →
        (Guarded sse42 crcInit cnt start ↔ cnt + 4 < 2 ^ 32) := by
  have hsw := crc32c_sw_eq_bitwise crcInit block
  refine ⟨⟨hsw, ?_⟩, fun sse42 cnt start => guarded_iff sse42 crcInit⟩
  rw [crc32c_hw_eq_sw, hsw]

theorem crc32c_detects_iff_one_byte :
    Guarded true 0xFFFFFFFF#32 1 [0x31, 0, 0, 0, 0] :=
  ((crc32c_detects_iff 0xFFFFFFFF#32 [0x31]).2 true 1 [0x31, 0, 0, 0, 0] (by decide) (by decide)
    (by decide)).mpr (by decide)

theorem four_GiB_not_guarded :
    ¬Guarded false 0xFFFFFFFF#32 (2 ^ 32 - 4) (List.replicate (2 ^ 32) 0) := by
  intro h
  have hlength : (List.replicate (2 ^ 32) (0 : Byte)).length = 2 ^ 32 := List.length_replicate
  have hsmall := (guarded_iff false 0xFFFFFFFF#32 (by decide) (by decide) hlength.ge).mp h
  exact absurd hsmall (by decide)

end Cta.Common.Crc

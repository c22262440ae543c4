import Cta.Lib.ReflectedCrc

/-! CRC32C of memory blocks. -/
namespace Cta.Common.Crc
open Cta.Lib.ReflectedCrc

abbrev Byte := BitVec 8
abbrev Word := BitVec 32

def crcTable : Array Word := #[
    0x00000000, 0xF26B8303, 0xE13B70F7, 0x1350F3F4, 0xC79A971F, 0x35F1141C, 0x26A1E7E8, 0xD4CA64EB,
    0x8AD958CF, 0x78B2DBCC, 0x6BE22838, 0x9989AB3B, 0x4D43CFD0, 0xBF284CD3, 0xAC78BF27, 0x5E133C24,
    0x105EC76F, 0xE235446C, 0xF165B798, 0x030E349B, 0xD7C45070, 0x25AFD373, 0x36FF2087, 0xC494A384,
    0x9A879FA0, 0x68EC1CA3, 0x7BBCEF57, 0x89D76C54, 0x5D1D08BF, 0xAF768BBC, 0xBC267848, 0x4E4DFB4B,
    0x20BD8EDE, 0xD2D60DDD, 0xC186FE29, 0x33ED7D2A, 0xE72719C1, 0x154C9AC2, 0x061C6936, 0xF477EA35,
    0xAA64D611, 0x580F5512, 0x4B5FA6E6, 0xB93425E5, 0x6DFE410E, 0x9F95C20D, 0x8CC531F9, 0x7EAEB2FA,
    0x30E349B1, 0xC288CAB2, 0xD1D83946, 0x23B3BA45, 0xF779DEAE, 0x05125DAD, 0x1642AE59, 0xE4292D5A,
    0xBA3A117E, 0x4851927D, 0x5B016189, 0xA96AE28A, 0x7DA08661, 0x8FCB0562, 0x9C9BF696, 0x6EF07595,
    0x417B1DBC, 0xB3109EBF, 0xA0406D4B, 0x522BEE48, 0x86E18AA3, 0x748A09A0, 0x67DAFA54, 0x95B17957,
    0xCBA24573, 0x39C9C670, 0x2A993584, 0xD8F2B687, 0x0C38D26C, 0xFE53516F, 0xED03A29B, 0x1F682198,
    0x5125DAD3, 0xA34E59D0, 0xB01EAA24, 0x42752927, 0x96BF4DCC, 0x64D4CECF, 0x77843D3B, 0x85EFBE38,
    0xDBFC821C, 0x2997011F, 0x3AC7F2EB, 0xC8AC71E8, 0x1C661503, 0xEE0D9600, 0xFD5D65F4, 0x0F36E6F7,
    0x61C69362, 0x93AD1061, 0x80FDE395, 0x72966096, 0xA65C047D, 0x5437877E, 0x4767748A, 0xB50CF789,
    0xEB1FCBAD, 0x197448AE, 0x0A24BB5A, 0xF84F3859, 0x2C855CB2, 0xDEEEDFB1, 0xCDBE2C45, 0x3FD5AF46,
    0x7198540D, 0x83F3D70E, 0x90A324FA, 0x62C8A7F9, 0xB602C312, 0x44694011, 0x5739B3E5, 0xA55230E6,
    0xFB410CC2, 0x092A8FC1, 0x1A7A7C35, 0xE811FF36, 0x3CDB9BDD, 0xCEB018DE, 0xDDE0EB2A, 0x2F8B6829,
    0x82F63B78, 0x709DB87B, 0x63CD4B8F, 0x91A6C88C, 0x456CAC67, 0xB7072F64, 0xA457DC90, 0x563C5F93,
    0x082F63B7, 0xFA44E0B4, 0xE9141340, 0x1B7F9043, 0xCFB5F4A8, 0x3DDE77AB, 0x2E8E845F, 0xDCE5075C,
    0x92A8FC17, 0x60C37F14, 0x73938CE0, 0x81F80FE3, 0x55326B08, 0xA759E80B, 0xB4091BFF, 0x466298FC,
    0x1871A4D8, 0xEA1A27DB, 0xF94AD42F, 0x0B21572C, 0xDFEB33C7, 0x2D80B0C4, 0x3ED04330, 0xCCBBC033,
    0xA24BB5A6, 0x502036A5, 0x4370C551, 0xB11B4652, 0x65D122B9, 0x97BAA1BA, 0x84EA524E, 0x7681D14D,
    0x2892ED69, 0xDAF96E6A, 0xC9A99D9E, 0x3BC21E9D, 0xEF087A76, 0x1D63F975, 0x0E330A81, 0xFC588982,
    0xB21572C9, 0x407EF1CA, 0x532E023E, 0xA145813D, 0x758FE5D6, 0x87E466D5, 0x94B49521, 0x66DF1622,
    0x38CC2A06, 0xCAA7A905, 0xD9F75AF1, 0x2B9CD9F2, 0xFF56BD19, 0x0D3D3E1A, 0x1E6DCDEE, 0xEC064EED,
    0xC38D26C4, 0x31E6A5C7, 0x22B65633, 0xD0DDD530, 0x0417B1DB, 0xF67C32D8, 0xE52CC12C, 0x1747422F,
    0x49547E0B, 0xBB3FFD08, 0xA86F0EFC, 0x5A048DFF, 0x8ECEE914, 0x7CA56A17, 0x6FF599E3, 0x9D9E1AE0,
    0xD3D3E1AB, 0x21B862A8, 0x32E8915C, 0xC083125F, 0x144976B4, 0xE622F5B7, 0xF5720643, 0x07198540,
    0x590AB964, 0xAB613A67, 0xB831C993, 0x4A5A4A90, 0x9E902E7B, 0x6CFBAD78, 0x7FAB5E8C, 0x8DC0DD8F,
    0xE330A81A, 0x115B2B19, 0x020BD8ED, 0xF0605BEE, 0x24AA3F05, 0xD6C1BC06, 0xC5914FF2, 0x37FACCF1,
    0x69E9F0D5, 0x9B8273D6, 0x88D28022, 0x7AB90321, 0xAE7367CA, 0x5C18E4C9, 0x4F48173D, 0xBD23943E,
    0xF36E6F75, 0x0105EC76, 0x12551F82, 0xE03E9C81, 0x34F4F86A, 0xC69F7B69, 0xD5CF889D, 0x27A40B9E,
    0x79B737BA, 0x8BDCB4B9, 0x988C474D, 0x6AE7C44E, 0xBE2DA0A5, 0x4C4623A6, 0x5F16D052, 0xAD7D5351]

def tableStep (crc : Word) (d : Byte) : Word :=
  (crc >>> 8) ^^^ crcTable.getD (d.setWidth 32 ^^^ (crc &&& 0xFF#32)).toNat 0

def crc32c_sw (crcInit : Word) (block : List Byte) : Word :=
  block.foldl tableStep crcInit ^^^ 0xFFFFFFFF#32

def polynomial : Word := 0x82F63B78#32

def crc32Instruction (crc : Word) (d : Byte) : Word :=
  (divide polynomial)^[8] (crc ^^^ d.setWidth 32)

def crc32c_intel_le_hw_8b (crcInit : Word) (data : List Byte) : Word :=
  data.foldl crc32Instruction crcInit

/-- The instruction on eight bytes, the one at the lowest address first. -/
def crc32c_intel_le_hw_64b (crcInit : Word) (data : List Byte) : Word :=
  (data.take 8).foldl crc32Instruction crcInit

/-- The loop over `iquotient` groups of eight bytes, and the bytes that are left. -/
def hwLoop : Nat → Word → List Byte → Word × List Byte
  | 0, crc, block => (crc, block)
  | iquotient + 1, crc, block =>
    hwLoop iquotient (crc32c_intel_le_hw_64b crc block) (block.drop 8)

def crc32c_hw (crcInit : Word) (block : List Byte) : Word :=
  let r := hwLoop (block.length / 8) crcInit block
  crc32c_intel_le_hw_8b r.1 r.2 ^^^ 0xFFFFFFFF#32

/-- The CRC of the first `cnt` bytes from `start` on, on a processor with or without SSE 4.2. -/
def crc32c (sse42 : Bool) (crcInit : Word) (cnt : Nat) (start : List Byte) : Word :=
  if sse42 then crc32c_hw crcInit (start.take cnt) else crc32c_sw crcInit (start.take cnt)

/-- The four bytes of a CRC, the lowest first, whatever the machine's own order. -/
def crcBytes (crc : Word) : List Byte :=
  [crc.setWidth 8, (crc >>> 8).setWidth 8, (crc >>> 16).setWidth 8, (crc >>> 24).setWidth 8]

@[simp] theorem crcBytes_length (crc : Word) : (crcBytes crc).length = 4 := rfl

/-- The memory behind `cnt` bytes gets the CRC. The positions and the size with the CRC are 32-bit
numbers. -/
def addCrc32cToMemoryBlock (sse42 : Bool) (crcInit : Word) (cnt : Nat) (start : List Byte) :
    Nat × List Byte :=
  if cnt = 0 then (0, start)
  else
    let crc := crc32c sse42 crcInit cnt start
    let start := start.set ((cnt + 0) % 2 ^ 32) (crc.setWidth 8)
    let start := start.set ((cnt + 1) % 2 ^ 32) ((crc >>> 8).setWidth 8)
    let start := start.set ((cnt + 2) % 2 ^ 32) ((crc >>> 16).setWidth 8)
    let start := start.set ((cnt + 3) % 2 ^ 32) ((crc >>> 24).setWidth 8)
    ((cnt + 4) % 2 ^ 32, start)

def verifyCrc32cForMemoryBlockWithCrc32c (sse42 : Bool) (crcInit : Word) (cnt : Nat)
    (start : List Byte) : Bool :=
  if cnt ≤ 4 then false
  else
    let crccmp := crc32c sse42 crcInit (cnt - 4) start
    let byte (i : Nat) : Word := (start.getD i 0).setWidth 32
    let crcblk := byte (cnt - 4) ||| byte (cnt - 3) <<< 8 ||| byte (cnt - 2) <<< 16 |||
      byte (cnt - 1) <<< 24
    crccmp = crcblk

theorem crcTable_eq :
    ∀ d : Byte, crcTable.getD d.toNat 0 = (divide polynomial)^[8] (d.setWidth 32) := by
  decide +kernel

theorem getLsbD_mask (i : Nat) : (0xFF#32).getLsbD i = decide (i < 8) := by
  have hmask : 0xFF#32 = (BitVec.allOnes 8).setWidth 32 := rfl
  rw [hmask, BitVec.getLsbD_setWidth, BitVec.getLsbD_allOnes]
  by_cases hi : i < 8
  · simp [hi, show i < 32 by omega]
  · simp [hi]

theorem getLsbD_byte (d : Byte) (i : Nat) :
    (d.setWidth 32).getLsbD i = (decide (i < 8) && d.getLsbD i) := by
  rw [BitVec.getLsbD_setWidth]
  by_cases hi : i < 8
  · simp [hi, show i < 32 by omega]
  · simp [hi, BitVec.getLsbD_of_ge d i (by omega)]

theorem tableStep_eq (crc : Word) (d : Byte) : tableStep crc d = crc32Instruction crc d := by
  let low : Byte := (crc ^^^ d.setWidth 32).setWidth 8
  have hlow : ∀ i, (low.setWidth 32).getLsbD i =
      (decide (i < 8) && (crc ^^^ d.setWidth 32).getLsbD i) := by
    intro i
    rw [getLsbD_byte]
    by_cases hi : i < 8
    · simp [low, hi, show i < 32 by omega]
    · simp [hi]
  have hindex : d.setWidth 32 ^^^ (crc &&& 0xFF#32) = low.setWidth 32 := by
    apply BitVec.eq_of_getLsbD_eq
    intro i _
    rw [hlow, BitVec.getLsbD_xor, BitVec.getLsbD_and, BitVec.getLsbD_xor, getLsbD_mask,
      getLsbD_byte]
    cases crc.getLsbD i <;> cases d.getLsbD i <;> cases decide (i < 8) <;> rfl
  have hshift : (crc ^^^ d.setWidth 32) >>> 8 = crc >>> 8 := by
    apply BitVec.eq_of_getLsbD_eq
    intro i _
    have hout : ¬8 + i < 8 := by omega
    rw [BitVec.getLsbD_ushiftRight, BitVec.getLsbD_ushiftRight, BitVec.getLsbD_xor, getLsbD_byte]
    simp [hout]
  have hnat : (low.setWidth 32).toNat = low.toNat := BitVec.toNat_setWidth_of_le (by decide)
  unfold tableStep crc32Instruction
  rw [hindex, hnat, crcTable_eq, iterate_divide_eq polynomial 8 _ _ hlow, hshift]

theorem hwLoop_eq (n : Nat) (crc : Word) (block : List Byte) :
    (hwLoop n crc block).2.foldl crc32Instruction (hwLoop n crc block).1 =
      block.foldl crc32Instruction crc := by
  induction n generalizing crc block with
  | zero => rfl
  | succ n ih =>
    calc
      (hwLoop (n + 1) crc block).2.foldl crc32Instruction (hwLoop (n + 1) crc block).1
          = (block.drop 8).foldl crc32Instruction ((block.take 8).foldl crc32Instruction crc) :=
        ih _ _
      _ = block.foldl crc32Instruction crc := by
        rw [← List.foldl_append, List.take_append_drop]

theorem crc32c_hw_eq_sw (crcInit : Word) (block : List Byte) :
    crc32c_hw crcInit block = crc32c_sw crcInit block := by
  have hstep : tableStep = crc32Instruction := by
    funext crc d
    exact tableStep_eq crc d
  unfold crc32c_sw
  rw [hstep, ← hwLoop_eq (block.length / 8)]
  rfl

theorem crc32c_eq (sse42 : Bool) (crcInit : Word) (cnt : Nat) (start : List Byte) :
    crc32c sse42 crcInit cnt start = crc32c_sw crcInit (start.take cnt) := by
  unfold crc32c
  split
  · exact crc32c_hw_eq_sw crcInit _
  · rfl

theorem addCrc32cToMemoryBlock_zero (sse42 : Bool) (crcInit : Word) (start : List Byte) :
    addCrc32cToMemoryBlock sse42 crcInit 0 start = (0, start) := rfl

theorem addCrc32cToMemoryBlock_size (sse42 : Bool) (crcInit : Word) {cnt : Nat} (hcnt : cnt ≠ 0)
    (start : List Byte) :
    (addCrc32cToMemoryBlock sse42 crcInit cnt start).1 = (cnt + 4) % 2 ^ 32 := by
  unfold addCrc32cToMemoryBlock
  rw [if_neg hcnt]

theorem addCrc32cToMemoryBlock_eq (sse42 : Bool) (crcInit : Word) {cnt : Nat} {start : List Byte}
    (hcnt : cnt ≠ 0) (hsmall : cnt + 4 ≤ 2 ^ 32) (hroom : cnt + 4 ≤ start.length) :
    addCrc32cToMemoryBlock sse42 crcInit cnt start =
      ((cnt + 4) % 2 ^ 32,
        start.take cnt ++ crcBytes (crc32c sse42 crcInit cnt start) ++ start.drop (cnt + 4)) := by
  have hsplit : start = start.take cnt ++ (start.drop cnt).take 4 ++ start.drop (cnt + 4) := by
    rw [List.append_assoc, ← List.drop_drop, List.take_append_drop, List.take_append_drop]
  have hroom' : ((start.drop cnt).take 4).length = 4 := by
    rw [List.length_take, List.length_drop]
    omega
  obtain ⟨a, b, c, d, hbehind⟩ : ∃ a b c d, (start.drop cnt).take 4 = [a, b, c, d] := by
    match (start.drop cnt).take 4, hroom' with
    | [a, b, c, d], _ => exact ⟨a, b, c, d, rfl⟩
  have hlength : (start.take cnt).length = cnt := List.length_take_of_le (by omega)
  unfold addCrc32cToMemoryBlock
  rw [if_neg hcnt]
  simp only [Nat.mod_eq_of_lt (show cnt + 0 < 2 ^ 32 by omega),
    Nat.mod_eq_of_lt (show cnt + 1 < 2 ^ 32 by omega),
    Nat.mod_eq_of_lt (show cnt + 2 < 2 ^ 32 by omega),
    Nat.mod_eq_of_lt (show cnt + 3 < 2 ^ 32 by omega)]
  congr 1
  generalize crc32c sse42 crcInit cnt start = crc
  rw [hbehind] at hsplit
  generalize start.take cnt = data at hsplit hlength
  rw [hsplit, ← hlength]
  simp [crcBytes]

theorem getLsbD_word (b₀ b₁ b₂ b₃ : Byte) (i : Nat) :
    (b₀.setWidth 32 ||| b₁.setWidth 32 <<< 8 ||| b₂.setWidth 32 <<< 16 |||
      b₃.setWidth 32 <<< 24).getLsbD i =
      if i < 8 then b₀.getLsbD i else if i < 16 then b₁.getLsbD (i - 8)
      else if i < 24 then b₂.getLsbD (i - 16) else b₃.getLsbD (i - 24) := by
  simp only [BitVec.getLsbD_or, BitVec.getLsbD_shiftLeft, getLsbD_byte]
  by_cases h0 : i < 8
  · simp [h0, show i < 16 by omega, show i < 24 by omega]
  by_cases h1 : i < 16
  · simp [h0, h1, show i < 24 by omega, show i < 32 by omega, show i - 8 < 8 by omega]
  by_cases h2 : i < 24
  · simp [h0, h1, h2, show i < 32 by omega, show i - 16 < 8 by omega,
      show ¬ i - 8 < 8 by omega]
  by_cases h3 : i < 32
  · simp [h0, h1, h2, h3, show i - 24 < 8 by omega, show ¬ i - 8 < 8 by omega,
      show ¬ i - 16 < 8 by omega]
  · simp [h0, h1, h2, h3, BitVec.getLsbD_of_ge b₃ (i - 24) (by omega)]

theorem crcBytes_spec (crc : Word) (b₀ b₁ b₂ b₃ : Byte) :
    crc = (b₀.setWidth 32 ||| b₁.setWidth 32 <<< 8 ||| b₂.setWidth 32 <<< 16 |||
      b₃.setWidth 32 <<< 24) ↔ crcBytes crc = [b₀, b₁, b₂, b₃] := by
  have hbyte : ∀ (n : Nat) (b : Byte), (crc >>> n).setWidth 8 = b ↔
      ∀ i < 8, crc.getLsbD (n + i) = b.getLsbD i := by
    intro n b
    rw [BitVec.eq_of_getLsbD_eq_iff]
    refine forall₂_congr fun i hi => ?_
    rw [BitVec.getLsbD_setWidth, BitVec.getLsbD_ushiftRight]
    simp [hi]
  have hzero : crc.setWidth 8 = (crc >>> 0).setWidth 8 := by simp
  unfold crcBytes
  rw [hzero]
  simp only [List.cons.injEq, and_true, hbyte]
  rw [BitVec.eq_of_getLsbD_eq_iff]
  simp only [getLsbD_word]
  constructor
  · intro h
    refine ⟨fun i hi => ?_, fun i hi => ?_, fun i hi => ?_, fun i hi => ?_⟩
    · simpa [hi] using h i (by omega)
    · simpa [show ¬8 + i < 8 by omega, show 8 + i < 16 by omega] using h (8 + i) (by omega)
    · simpa [show ¬16 + i < 8 by omega, show ¬16 + i < 16 by omega,
        show 16 + i < 24 by omega] using h (16 + i) (by omega)
    · simpa [show ¬24 + i < 8 by omega, show ¬24 + i < 16 by omega,
        show ¬24 + i < 24 by omega] using h (24 + i) (by omega)
  · intro ⟨h0, h1, h2, h3⟩ i hi
    by_cases c0 : i < 8
    · simpa [c0] using h0 i c0
    by_cases c1 : i < 16
    · have := h1 (i - 8) (by omega)
      rw [show 8 + (i - 8) = i by omega] at this
      simpa [c0, c1] using this
    by_cases c2 : i < 24
    · have := h2 (i - 16) (by omega)
      rw [show 16 + (i - 16) = i by omega] at this
      simpa [c0, c1, c2] using this
    · have := h3 (i - 24) (by omega)
      rw [show 24 + (i - 24) = i by omega] at this
      simpa [c0, c1, c2] using this

theorem drop_take_eq {cnt : Nat} {start : List Byte} (h : 4 < cnt) (hcnt : cnt ≤ start.length) :
    (start.take cnt).drop (cnt - 4) = [start.getD (cnt - 4) 0, start.getD (cnt - 3) 0,
      start.getD (cnt - 2) 0, start.getD (cnt - 1) 0] := by
  apply List.ext_getElem
  · simp
    omega
  · intro i hi _
    have hi : i < 4 := by
      simp at hi
      omega
    match i, hi with
    | 0, _ => simp [List.getElem?_eq_getElem (show cnt - 4 < start.length by omega)]
    | 1, _ => simp [List.getElem?_eq_getElem (show cnt - 3 < start.length by omega),
        show cnt - 4 + 1 = cnt - 3 by omega]
    | 2, _ => simp [List.getElem?_eq_getElem (show cnt - 2 < start.length by omega),
        show cnt - 4 + 2 = cnt - 2 by omega]
    | 3, _ => simp [List.getElem?_eq_getElem (show cnt - 1 < start.length by omega),
        show cnt - 4 + 3 = cnt - 1 by omega]

theorem verify_iff (sse42 : Bool) (seed : Word) {cnt : Nat} {start : List Byte}
    (hcnt : cnt ≤ start.length) :
    verifyCrc32cForMemoryBlockWithCrc32c sse42 seed cnt start = true ↔
      4 < cnt ∧ (start.take cnt).drop (cnt - 4) =
        crcBytes (crc32c_sw seed (start.take (cnt - 4))) := by
  unfold verifyCrc32cForMemoryBlockWithCrc32c
  split
  · next h => simp [show ¬4 < cnt by omega]
  · next h =>
    have hlt : 4 < cnt := by omega
    simp only [crc32c_eq, decide_eq_true_eq]
    rw [crcBytes_spec, drop_take_eq hlt hcnt]
    simp [hlt, eq_comm]

example : crc32c_sw 0xFFFFFFFF#32 [0x31, 0x32, 0x33, 0x34, 0x35, 0x36, 0x37, 0x38, 0x39] =
    0xE3069283#32 := by
  decide +kernel

end Cta.Common.Crc

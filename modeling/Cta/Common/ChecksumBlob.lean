import Cta.Lib.Numerals
import Cta.Lib.Wire

/-! The checksums of a file: as 32-bit numbers, as bytes and as hexadecimal texts. -/
namespace Cta.Common.Checksum
open Cta.Lib.Numerals Cta.Lib.Wire

inductive ChecksumType where
  | NONE | ADLER32 | CRC32 | CRC32C | MD5 | SHA1
  deriving DecidableEq, Repr

namespace ChecksumType

def name : ChecksumType → String
  | NONE => "NONE"
  | ADLER32 => "ADLER32"
  | CRC32 => "CRC32"
  | CRC32C => "CRC32C"
  | MD5 => "MD5"
  | SHA1 => "SHA1"

def expectedLength : ChecksumType → ℕ
  | NONE => 0
  | ADLER32 | CRC32 | CRC32C => 4
  | MD5 => 16
  | SHA1 => 20

def all : List ChecksumType := [NONE, ADLER32, CRC32, CRC32C, MD5, SHA1]

theorem mem_all (type : ChecksumType) : type ∈ all := by cases type <;> decide

end ChecksumType

open ChecksumType

inductive Failure where
  | checksumValueMismatch (message : String)
  | checksumTypeMismatch (message : String)
  | checksumBlobSizeMismatch (message : String)
  deriving DecidableEq, Repr

def withoutPrefix (hexString : List Char) : List Char :=
  if hexString.take 2 = ['0', 'x'] ∨ hexString.take 2 = ['0', 'X'] then hexString.drop 2
  else hexString

def evenDigits (hexString : List Char) : List Char :=
  if hexString.length % 2 = 1 then '0' :: hexString else hexString

/-- Only hexadecimal digits are given to it here: no sign, blank or `0x` of its own. -/
def strtol (digits : List Char) : ℕ := value 16 (readDigits 16 digits)

/-- `none`: the loop has not ended after so many rounds. Its counter has 32 bits. -/
def byteArrayLoop (hexString : List Char) : ℕ → UInt32 → List UInt8 → Option (List UInt8)
  | 0, _, _ => none
  | fuel + 1, i, bytearray =>
    if i.toNat < hexString.length then
      let byte := UInt8.ofNat (strtol ((hexString.drop i.toNat).take 2))
      byteArrayLoop hexString fuel (i + 2) (byte :: bytearray)
    else some bytearray

def HexToByteArray (fuel : ℕ) (hexString : List Char) : Option (List UInt8) :=
  byteArrayLoop (evenDigits (withoutPrefix hexString)) fuel 0 []

def ByteArrayToHex (bytearray : List UInt8) : List Char :=
  if bytearray.isEmpty then ['0'] else bytearray.reverse.flatMap fun c => padded 16 2 c.toNat

def Returns (hexString : List Char) (bytearray : List UInt8) : Prop :=
  ∃ fuel, HexToByteArray fuel hexString = some bytearray

@[ext] structure ChecksumBlob where
  m_cs : ChecksumType → Option (List UInt8) := fun _ => none

namespace ChecksumBlob
variable (blob other : ChecksumBlob)

/-- What the iterators of the map go through. -/
def entries : List (ChecksumType × List UInt8) :=
  all.filterMap fun type => (blob.m_cs type).map (type, ·)

def set (type : ChecksumType) (cs : List UInt8) : ChecksumBlob where
  m_cs := fun t => if t = type then some cs else blob.m_cs t

/-- Zeros behind the value make up its length. -/
def insert (type : ChecksumType) (value : List UInt8) : Except Failure ChecksumBlob :=
  if value.length > type.expectedLength then
    .error (.checksumValueMismatch ("Checksum length type=" ++ type.name ++ " expected=" ++
      toString type.expectedLength ++ " actual=" ++ toString value.length))
  else .ok (blob.set type (value ++ List.replicate (type.expectedLength - value.length) 0))

/-- The bytes, the least significant one first. -/
def littleEndian : ℕ → ℕ → List UInt8
  | 0, _ => []
  | n + 1, value => UInt8.ofNat (value % 256) :: littleEndian n (value / 256)

def insertInteger (type : ChecksumType) (value : UInt32) : Except Failure ChecksumBlob :=
  match type with
  | ADLER32 | CRC32 | CRC32C => .ok (blob.set type (littleEndian 4 value.toNat))
  | _ => .error (.checksumTypeMismatch (type.name ++ " is not a 32-bit checksum"))

def validateEntries : List (ChecksumType × List UInt8) → List (ChecksumType × List UInt8) →
    Except Failure Unit
  | (type1, cs1) :: entries1, (type2, cs2) :: entries2 =>
    if type1 ≠ type2 then
      .error (.checksumTypeMismatch
        ("Checksum type expected=" ++ type1.name ++ " actual=" ++ type2.name))
    else if cs1 ≠ cs2 then
      .error (.checksumValueMismatch ("Checksum value expected=0x" ++
        String.ofList (ByteArrayToHex cs1) ++ " actual=0x" ++ String.ofList (ByteArrayToHex cs2)))
    else validateEntries entries1 entries2
  | _, _ => .ok ()

def validate : Except Failure Unit :=
  if blob.entries.length ≠ other.entries.length then
    .error (.checksumBlobSizeMismatch ("Checksum blob size does not match. expected=" ++
      toString blob.entries.length ++ " actual=" ++ toString other.entries.length))
  else validateEntries blob.entries other.entries

end ChecksumBlob

open ChecksumBlob

def IsHex (c : Char) : Prop := ∃ d, digitValue 16 c = some d

/-- Up to eight digits that give the number. -/
structure IsTextOf (n : UInt32) (text : List Char) : Prop where
  hex : ∀ c ∈ text, IsHex c
  short : text.length ≤ 8
  number : value 16 (readDigits 16 text) = n.toNat

def prefixes : List (List Char) := [[], ['0', 'x'], ['0', 'X']]

def lowerCase (text : List Char) : List Char := text.map Char.toLower

/-- An integer and its text are the same checksum, bytes and texts are read back, and only equal
blobs are valid. -/
structure Agree (blob other : ChecksumBlob) (v : List UInt8) (h : List Char) : Prop where
  inserted : ∀ type ∈ [ADLER32, CRC32, CRC32C], ∀ n text, IsTextOf n text →
    ∀ mark ∈ prefixes, ∃ bytearray, Returns (mark ++ text) bytearray ∧
      ∃ blob', blob.insert type bytearray = .ok blob' ∧
        blob.insertInteger type n = .ok blob' ∧ blob'.validate blob' = .ok ()
  bytes : Returns (ByteArrayToHex v) v
  hex : ∀ mark ∈ prefixes, ∃ bytearray, Returns (mark ++ h) bytearray ∧
    ByteArrayToHex bytearray = lowerCase (evenDigits h)
  validated : blob.validate other = .ok () ↔ ∀ type, blob.m_cs type = other.m_cs type

section
variable {blob other : ChecksumBlob} {type : ChecksumType} {cs : List UInt8}

theorem mem_entries : (type, cs) ∈ blob.entries ↔ blob.m_cs type = some cs := by
  simp only [entries, List.mem_filterMap, Option.map_eq_some_iff, Prod.mk.injEq]
  constructor
  · rintro ⟨_, -, _, h, rfl, rfl⟩
    exact h
  · exact fun h => ⟨type, mem_all type, cs, h, rfl, rfl⟩

theorem validateEntries_ok {entries1 entries2 : List (ChecksumType × List UInt8)}
    (hlength : entries1.length = entries2.length) :
    validateEntries entries1 entries2 = .ok () ↔ entries1 = entries2 := by
  induction entries1 generalizing entries2 with
  | nil => simp [validateEntries, List.eq_nil_of_length_eq_zero hlength.symm]
  | cons entry1 entries1 ih =>
    cases entries2 with
    | nil => cases hlength
    | cons entry2 entries2 =>
      obtain ⟨type1, cs1⟩ := entry1
      obtain ⟨type2, cs2⟩ := entry2
      have hrest := ih (Nat.succ.inj hlength)
      rw [validateEntries]
      split
      · rename_i htype
        simp [htype]
      · rename_i htype
        split
        · rename_i hcs
          simp [hcs]
        · rename_i hcs
          rw [hrest, not_not.mp htype, not_not.mp hcs, List.cons.injEq]
          simp

theorem validate_ok : blob.validate other = .ok () ↔
    ∀ type, blob.m_cs type = other.m_cs type := by
  unfold validate
  constructor
  · intro h type
    split at h
    · cases h
    · rename_i hlength
      have hentries := (validateEntries_ok (not_not.mp hlength)).mp h
      refine Option.ext fun cs => ?_
      rw [← mem_entries, ← mem_entries, hentries]
  · intro h
    obtain rfl : blob = other := ChecksumBlob.ext (funext h)
    rw [if_neg (by simp)]
    exact (validateEntries_ok rfl).mpr rfl

end

def pairBytes : List Char → List UInt8
  | a :: b :: digits => UInt8.ofNat (strtol [a, b]) :: pairBytes digits
  | _ => []

section
variable {hexString h mark : List Char} {a b : Char} {v : List UInt8}

theorem byteArrayLoop_eq (hlt : hexString.length < 2 ^ 32) {k : ℕ} {i : UInt32}
    (hk : hexString.length = i.toNat + 2 * k) (bytearray : List UInt8) :
    byteArrayLoop hexString (k + 1) i bytearray =
      some ((pairBytes (hexString.drop i.toNat)).reverse ++ bytearray) := by
  induction k generalizing i bytearray with
  | zero =>
    rw [byteArrayLoop, if_neg (by omega), List.drop_of_length_le (by omega)]
    rfl
  | succ k ih =>
    have hi : i.toNat < hexString.length := by omega
    have hi' : i.toNat + 1 < hexString.length := by omega
    have hnext : (i + 2).toNat = i.toNat + 2 := by
      rw [UInt32.toNat_add]
      have : (2 : UInt32).toNat = 2 := rfl
      omega
    have hdrop : hexString.drop i.toNat =
        hexString[i.toNat] :: hexString[i.toNat + 1] :: hexString.drop (i.toNat + 2) := by
      rw [List.drop_eq_getElem_cons hi, List.drop_eq_getElem_cons hi']
    rw [byteArrayLoop, if_pos hi, ih (by omega), hnext, hdrop, pairBytes, List.reverse_cons,
      List.append_assoc]
    rfl

theorem byteArrayLoop_none (hge : 2 ^ 32 ≤ hexString.length) (fuel : ℕ) (i : UInt32)
    (bytearray : List UInt8) : byteArrayLoop hexString fuel i bytearray = none := by
  induction fuel generalizing i bytearray with
  | zero => rfl
  | succ fuel ih => rw [byteArrayLoop, if_pos (i.toNat_lt.trans_le hge), ih]

theorem length_evenDigits (h : List Char) : (evenDigits h).length = h.length + h.length % 2 := by
  unfold evenDigits
  split
  · rename_i hodd
    rw [List.length_cons, hodd]
  · omega

theorem returns_pairBytes (hexString : List Char)
    (hlt : (evenDigits (withoutPrefix hexString)).length < 2 ^ 32) :
    Returns hexString (pairBytes (evenDigits (withoutPrefix hexString))).reverse := by
  have heven := length_evenDigits (withoutPrefix hexString)
  refine ⟨(evenDigits (withoutPrefix hexString)).length / 2 + 1, ?_⟩
  have hloop := byteArrayLoop_eq hlt (k := (evenDigits (withoutPrefix hexString)).length / 2)
    (i := 0) (by have : (0 : UInt32).toNat = 0 := rfl; omega) []
  rwa [List.append_nil] at hloop

theorem Returns.length_lt (hreturns : Returns hexString v) :
    (evenDigits (withoutPrefix hexString)).length < 2 ^ 32 := by
  obtain ⟨fuel, hfuel⟩ := hreturns
  by_contra! hge
  rw [HexToByteArray, byteArrayLoop_none hge] at hfuel
  cases hfuel

theorem not_isHex_x : ¬IsHex 'x' ∧ ¬IsHex 'X' := by
  have hnone : digitValue 16 'x' = none ∧ digitValue 16 'X' = none := by decide
  constructor
  · rintro ⟨d, hd⟩
    rw [hnone.1] at hd
    cases hd
  · rintro ⟨d, hd⟩
    rw [hnone.2] at hd
    cases hd

theorem withoutPrefix_of_hex (hhex : ∀ c ∈ h, IsHex c) (hmark : mark ∈ prefixes) :
    withoutPrefix (mark ++ h) = h := by
  have hnone : ¬(h.take 2 = ['0', 'x'] ∨ h.take 2 = ['0', 'X']) := by
    rintro (htake | htake)
    · exact not_isHex_x.1 (hhex _ (List.mem_of_mem_take (i := 2) (htake ▸ by simp)))
    · exact not_isHex_x.2 (hhex _ (List.mem_of_mem_take (i := 2) (htake ▸ by simp)))
  have hcases : mark = [] ∨ mark = ['0', 'x'] ∨ mark = ['0', 'X'] := by
    simpa [prefixes] using hmark
  obtain rfl | rfl | rfl := hcases
  · exact if_neg hnone
  · exact if_pos (.inl rfl)
  · exact if_pos (.inr rfl)

theorem isHex_evenDigits (hhex : ∀ c ∈ h, IsHex c) : ∀ c ∈ evenDigits h, IsHex c := by
  unfold evenDigits
  split
  · intro c hc
    obtain rfl | hc := List.mem_cons.mp hc
    · exact ⟨0, by decide⟩
    · exact hhex c hc
  · exact hhex

theorem readDigits_cons {d : ℕ} (ha : digitValue 16 a = some d) :
    readDigits 16 (a :: h) = d :: readDigits 16 h := by
  rw [readDigits, ha]

theorem strtol_pair {x y : ℕ} (ha : digitValue 16 a = some x) (hb : digitValue 16 b = some y) :
    (UInt8.ofNat (strtol [a, b])).toNat = x * 16 + y ∧
      padded 16 2 (UInt8.ofNat (strtol [a, b])).toNat = lowerCase [a, b] := by
  obtain ⟨hx, hlowera⟩ := digitValue_lower ha
  obtain ⟨hy, hlowerb⟩ := digitValue_lower hb
  have hvalue : strtol [a, b] = x * 16 + y := by
    rw [strtol, readDigits_cons ha, readDigits_cons hb]
    simp [value, readDigits]
  have htoNat : (UInt8.ofNat (strtol [a, b])).toNat = x * 16 + y := by
    rw [UInt8.toNat_ofNat', hvalue]
    omega
  refine ⟨htoNat, ?_⟩
  rw [htoNat, padded_two (by decide) hx hy, lowerCase, List.map_cons, List.map_singleton, hlowera,
    hlowerb]

/-- Hexadecimal digits become lower case on the way to bytes and back. -/
theorem flatMap_pairBytes (hhex : ∀ c ∈ h, IsHex c) (heven : h.length % 2 = 0) :
    ((pairBytes h).flatMap fun c => padded 16 2 c.toNat) = lowerCase h := by
  induction h using pairBytes.induct with
  | case1 a b digits ih =>
    obtain ⟨x, hx⟩ := hhex a (by simp)
    obtain ⟨y, hy⟩ := hhex b (by simp)
    have hdigits := ih (fun c hc => hhex c (by simp [hc]))
      (by simp only [List.length_cons] at heven; omega)
    rw [pairBytes, List.flatMap_cons, hdigits, (strtol_pair hx hy).2]
    rfl
  | case2 digits hshort =>
    match digits, hshort, heven with
    | [], _, _ => rfl
    | [_], _, heven => cases heven
    | a :: b :: digits, hshort, _ => exact absurd rfl (hshort a b digits)

theorem foldl_pairBytes (hhex : ∀ c ∈ h, IsHex c) (heven : h.length % 2 = 0) (acc : ℕ) :
    (pairBytes h).foldl (fun n b => n * 256 + b.toNat) acc =
      (readDigits 16 h).foldl (fun n d => n * 16 + d) acc := by
  induction h using pairBytes.induct generalizing acc with
  | case1 a b digits ih =>
    obtain ⟨x, hx⟩ := hhex a (by simp)
    obtain ⟨y, hy⟩ := hhex b (by simp)
    have hdigits := ih (fun c hc => hhex c (by simp [hc]))
      (by simp only [List.length_cons] at heven; omega)
    rw [pairBytes, List.foldl_cons, hdigits, (strtol_pair hx hy).1, readDigits_cons hx,
      readDigits_cons hy, List.foldl_cons, List.foldl_cons]
    congr 1
    omega
  | case2 digits hshort =>
    match digits, hshort, heven with
    | [], _, _ => rfl
    | [_], _, heven => cases heven
    | a :: b :: digits, hshort, _ => exact absurd rfl (hshort a b digits)

theorem length_pairBytes (h : List Char) : (pairBytes h).length = h.length / 2 := by
  induction h using pairBytes.induct with
  | case1 a b digits ih =>
    rw [pairBytes, List.length_cons, ih]
    simp only [List.length_cons]
    omega
  | case2 digits hshort =>
    match digits, hshort with
    | [], _ => rfl
    | [_], _ => simp [pairBytes]
    | a :: b :: digits, hshort => exact absurd rfl (hshort a b digits)

theorem value_evenDigits (h : List Char) :
    value 16 (readDigits 16 (evenDigits h)) = value 16 (readDigits 16 h) := by
  unfold evenDigits
  split
  · rw [readDigits_cons (d := 0) (by decide)]
    rfl
  · rfl

theorem pairBytes_flatMap (v : List UInt8) :
    pairBytes (v.flatMap fun c => padded 16 2 c.toNat) = v := by
  induction v with
  | nil => rfl
  | cons c v ih =>
    have hc := c.toNat_lt
    have hsplit : c.toNat = c.toNat / 16 * 16 + c.toNat % 16 := by omega
    have hdigits := padded_two (b := 16) (x := c.toNat / 16) (y := c.toNat % 16) (by decide)
      (by omega) (Nat.mod_lt _ (by decide))
    rw [← hsplit] at hdigits
    have hback : strtol (padded 16 2 c.toNat) = c.toNat := by
      have hvalue := value_padded (b := 16) (w := 2) (n := c.toNat) (r := []) (by decide) le_rfl
        nofun
      rwa [List.append_nil] at hvalue
    rw [List.flatMap_cons, hdigits, List.cons_append, List.singleton_append, pairBytes, ih,
      ← hdigits, hback, UInt8.ofNat_toNat]

theorem isHex_padded (c : UInt8) : ∀ d ∈ padded 16 2 c.toNat, IsHex d := by
  have hc := c.toNat_lt
  have hsplit : c.toNat = c.toNat / 16 * 16 + c.toNat % 16 := by omega
  have hx : c.toNat / 16 < 16 := by omega
  have hy : c.toNat % 16 < 16 := Nat.mod_lt _ (by decide)
  rw [hsplit, padded_two (by decide) hx hy]
  intro d hd
  rcases List.mem_cons.mp hd with rfl | hd
  · exact ⟨_, (digitValue_digitChar hx le_rfl).1⟩
  · obtain rfl := List.mem_singleton.mp hd
    exact ⟨_, (digitValue_digitChar hy le_rfl).1⟩

theorem ByteArrayToHex_eq (hv : v ≠ []) :
    ByteArrayToHex v = v.reverse.flatMap fun c => padded 16 2 c.toNat := by
  rw [ByteArrayToHex, if_neg (by simpa using hv)]

theorem length_ByteArrayToHex (hv : v ≠ []) : (ByteArrayToHex v).length = 2 * v.length := by
  have hpadded (c : UInt8) : (padded 16 2 c.toNat).length = 2 :=
    length_padded (by decide) c.toNat_lt
  rw [ByteArrayToHex_eq hv, List.length_flatMap]
  simp [hpadded, Nat.mul_comm]

theorem withoutPrefix_ByteArrayToHex (hv : v ≠ []) :
    evenDigits (withoutPrefix (ByteArrayToHex v)) = ByteArrayToHex v := by
  have hhex : ∀ c ∈ ByteArrayToHex v, IsHex c := by
    intro c hc
    rw [ByteArrayToHex_eq hv] at hc
    obtain ⟨d, -, hd⟩ := List.mem_flatMap.mp hc
    exact isHex_padded d c hd
  have hmark : withoutPrefix ([] ++ ByteArrayToHex v) = ByteArrayToHex v :=
    withoutPrefix_of_hex hhex (by decide)
  rw [List.nil_append] at hmark
  rw [hmark, evenDigits, if_neg (by rw [length_ByteArrayToHex hv]; omega)]

theorem returns_ByteArrayToHex (hv : v ≠ []) :
    Returns (ByteArrayToHex v) v ↔ v.length < 2 ^ 31 := by
  constructor
  · intro h
    have hlt := h.length_lt
    rw [withoutPrefix_ByteArrayToHex hv, length_ByteArrayToHex hv] at hlt
    omega
  · intro hlt
    have hreturns := returns_pairBytes (ByteArrayToHex v)
      (by rw [withoutPrefix_ByteArrayToHex hv, length_ByteArrayToHex hv]; omega)
    rw [withoutPrefix_ByteArrayToHex hv, ByteArrayToHex_eq hv, pairBytes_flatMap,
      List.reverse_reverse] at hreturns
    rwa [ByteArrayToHex_eq hv]

theorem returns_hex (hh : h ≠ []) (hhex : ∀ c ∈ h, IsHex c) :
    (∀ mark ∈ prefixes, ∃ bytearray, Returns (mark ++ h) bytearray ∧
      ByteArrayToHex bytearray = lowerCase (evenDigits h)) ↔ h.length < 2 ^ 32 - 1 := by
  have hlength := length_evenDigits h
  constructor
  · intro hreturns
    obtain ⟨bytearray, hback, -⟩ := hreturns [] (by decide)
    have hlt := hback.length_lt
    rw [withoutPrefix_of_hex hhex (by decide)] at hlt
    omega
  · intro hlt mark hmark
    have hreturns := returns_pairBytes (mark ++ h)
      (by rw [withoutPrefix_of_hex hhex hmark]; omega)
    rw [withoutPrefix_of_hex hhex hmark] at hreturns
    refine ⟨_, hreturns, ?_⟩
    have hne : (pairBytes (evenDigits h)).reverse ≠ [] := by
      have hpos := List.length_pos_iff.mpr hh
      rw [ne_eq, List.reverse_eq_nil_iff, ← List.length_eq_zero_iff, length_pairBytes]
      omega
    rw [ByteArrayToHex_eq hne, List.reverse_reverse,
      flatMap_pairBytes (isHex_evenDigits hhex) (by omega)]

end

theorem littleEndian_zero (n : ℕ) : littleEndian n 0 = List.replicate n 0 := by
  induction n with
  | zero => rfl
  | succ n ih =>
    rw [littleEndian, Nat.zero_mod, Nat.zero_div, ih]
    rfl

theorem reverse_append_zeros (bytes : List UInt8) {n : ℕ} (hn : bytes.length ≤ n) :
    bytes.reverse ++ List.replicate (n - bytes.length) 0 = littleEndian n (valueOf bytes) := by
  induction bytes using List.reverseRecOn generalizing n with
  | nil => simp [valueOf, littleEndian_zero]
  | append_singleton bytes b ih =>
    rw [List.length_append, List.length_singleton] at hn
    obtain ⟨n, rfl⟩ : ∃ n', n = n' + 1 := ⟨n - 1, by omega⟩
    have hvalue : valueOf (bytes ++ [b]) = valueOf bytes * 256 + b.toNat := by
      rw [valueOf, List.foldl_append]
      rfl
    have hb := b.toNat_lt
    have hlow : (valueOf bytes * 256 + b.toNat) % 256 = b.toNat := by omega
    have hhigh : (valueOf bytes * 256 + b.toNat) / 256 = valueOf bytes := by omega
    rw [hvalue, littleEndian, hlow, hhigh, UInt8.ofNat_toNat, ← ih (by omega)]
    simp [Nat.add_sub_add_right]

theorem insert_text {blob : ChecksumBlob} {type : ChecksumType}
    (htype : type ∈ [ADLER32, CRC32, CRC32C]) {n : UInt32} {text : List Char}
    (htext : IsTextOf n text) {mark : List Char} (hmark : mark ∈ prefixes) :
    ∃ bytearray, Returns (mark ++ text) bytearray ∧
      ∃ blob', blob.insert type bytearray = .ok blob' ∧
        blob.insertInteger type n = .ok blob' ∧ blob'.validate blob' = .ok () := by
  have hshort := htext.short
  have heven := length_evenDigits text
  have hreturns := returns_pairBytes (mark ++ text)
    (by rw [withoutPrefix_of_hex htext.hex hmark]; omega)
  rw [withoutPrefix_of_hex htext.hex hmark] at hreturns
  have hlength := length_pairBytes (evenDigits text)
  have hexpected : type.expectedLength = 4 ∧ ∀ n : UInt32,
      blob.insertInteger type n = .ok (blob.set type (littleEndian 4 n.toNat)) := by
    simp only [List.mem_cons, List.not_mem_nil, or_false] at htype
    obtain rfl | rfl | rfl := htype <;> exact ⟨rfl, fun _ => rfl⟩
  have hvalue : valueOf (pairBytes (evenDigits text)) = n.toNat := by
    have hfold := foldl_pairBytes (isHex_evenDigits htext.hex) (by omega) 0
    rw [valueOf, hfold]
    exact (value_evenDigits text).trans htext.number
  refine ⟨_, hreturns, blob.set type (littleEndian 4 n.toNat), ?_, hexpected.2 n,
    validate_ok.mpr fun _ => rfl⟩
  have hbytes := reverse_append_zeros (pairBytes (evenDigits text)) (n := 4) (by omega)
  rw [hvalue] at hbytes
  rw [ChecksumBlob.insert, hexpected.1, List.length_reverse, if_neg (by omega), hbytes]

/-- The texts agree as long as their digits are counted with 32 bits. -/
theorem agree_iff {blob other : ChecksumBlob} {v : List UInt8} {h : List Char} (hv : v ≠ [])
    (hh : h ≠ []) (hhex : ∀ c ∈ h, IsHex c) :
    Agree blob other v h ↔ v.length < 2 ^ 31 ∧ h.length < 2 ^ 32 - 1 := by
  constructor
  · intro hagree
    exact ⟨(returns_ByteArrayToHex hv).mp hagree.bytes, (returns_hex hh hhex).mp hagree.hex⟩
  · rintro ⟨hbytes, hdigits⟩
    exact ⟨fun type htype n text htext mark hmark => insert_text htype htext hmark,
      (returns_ByteArrayToHex hv).mpr hbytes, (returns_hex hh hhex).mpr hdigits, validate_ok⟩

def adlerOnly : ChecksumBlob := ({} : ChecksumBlob).set ADLER32 [1, 2, 3, 4]

def adlerAndCrc : ChecksumBlob := adlerOnly.set CRC32C [5, 6, 7, 8]

theorem agree_iff_two_types : Agree adlerAndCrc adlerOnly [171, 205] ['a', 'B', 'c'] := by
  have hhex : ∀ c ∈ ['a', 'B', 'c'], IsHex c := by
    simp only [List.forall_mem_cons]
    exact ⟨⟨10, by decide⟩, ⟨11, by decide⟩, ⟨12, by decide⟩, nofun⟩
  exact (agree_iff (by decide) (by decide) hhex).mpr ⟨by decide, by decide⟩

/-- The bytes of two GiB are not read back. -/
theorem not_agree_two_GiB : ¬Agree {} {} (List.replicate (2 ^ 31) 0) ['B'] := by
  intro hagree
  have hne : List.replicate (2 ^ 31) (0 : UInt8) ≠ [] := fun hnil =>
    absurd (List.replicate_eq_nil_iff _ |>.mp hnil) (by decide)
  have hlt := (returns_ByteArrayToHex hne).mp hagree.bytes
  rw [List.length_replicate] at hlt
  exact lt_irrefl _ hlt

end Cta.Common.Checksum

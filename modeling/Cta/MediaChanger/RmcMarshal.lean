import Cta.Lib.Transactions
import Cta.Lib.Wire

/-! The messages that ask the media changer daemon for a mount or an unmount, as the client
writes them. -/
namespace Cta.MediaChanger.RmcMarshal
open Cta.Lib.Triples Cta.Lib.Transactions Cta.Lib.Wire

def RMC_MAGIC : UInt32 := 0x120D0301
def RMC_MOUNT : UInt32 := 4
def RMC_UNMOUNT : UInt32 := 5
def CA_MAXVIDLEN : Nat := 6

inductive Failure
  | bufferTooSmall (required actual : Nat)
  | lengthMismatch (expected actual : Nat)
  | sourceTooSmall (expected actual : Nat)
  | sourceLengthZero
  | destinationLengthZero
  | terminatorNotReached
  deriving DecidableEq, Repr

structure CharArray (n : Nat) where
  bytes : List UInt8
  length : bytes.length = n

namespace CharArray
variable {n : Nat}

def str (a : CharArray n) : List UInt8 := cstr a.bytes

def Terminated (a : CharArray n) : Prop := 0 ∈ a.bytes

def zero (n : Nat) : CharArray n := ⟨List.replicate n 0, List.length_replicate⟩

/-- The first bytes are written over; there are not more of them than the array has. -/
def overwrite (a : CharArray n) (copied : List UInt8) (h : copied.length ≤ n) : CharArray n where
  bytes := copied ++ a.bytes.drop copied.length
  length := by rw [List.length_append, List.length_drop, a.length]; omega

end CharArray

structure RmcMountMsgBody where
  uid : UInt32
  gid : UInt32
  unusedLoader : CharArray 1
  vid : CharArray (CA_MAXVIDLEN + 1)
  side : UInt16
  drvOrd : UInt16

structure RmcUnmountMsgBody where
  uid : UInt32
  gid : UInt32
  unusedLoader : CharArray 1
  vid : CharArray (CA_MAXVIDLEN + 1)
  drvOrd : UInt16
  force : UInt16

/-- What the two have in common: they end in two numbers. -/
structure MsgBody where
  uid : UInt32
  gid : UInt32
  unusedLoader : CharArray 1
  vid : CharArray (CA_MAXVIDLEN + 1)
  first : UInt16
  second : UInt16

def RmcMountMsgBody.layout (b : RmcMountMsgBody) : MsgBody :=
  ⟨b.uid, b.gid, b.unusedLoader, b.vid, b.side, b.drvOrd⟩

def RmcUnmountMsgBody.layout (b : RmcUnmountMsgBody) : MsgBody :=
  ⟨b.uid, b.gid, b.unusedLoader, b.vid, b.drvOrd, b.force⟩

def RmcMountMsgBody.ofLayout (b : MsgBody) : RmcMountMsgBody :=
  ⟨b.uid, b.gid, b.unusedLoader, b.vid, b.first, b.second⟩

def RmcUnmountMsgBody.ofLayout (b : MsgBody) : RmcUnmountMsgBody :=
  ⟨b.uid, b.gid, b.unusedLoader, b.vid, b.first, b.second⟩

structure MessageHeader where
  magic : UInt32
  reqType : UInt32
  lenOrStatus : UInt32
  deriving DecidableEq, Repr

def marshalUint16 (src : UInt16) : List UInt8 := bytesOf 2 src.toNat

def marshalUint32 (src : UInt32) : List UInt8 := bytesOf 4 src.toNat

def marshalString (src : List UInt8) : List UInt8 := src ++ [0]

/-- The bytes that are written to a buffer of this length. The strings have to be terminated in
their arrays: `strlen` and `strcpy` do not stop elsewhere. -/
def marshalMsg (reqType : UInt32) (dstLen : Nat) (src : MsgBody) : Except Failure (List UInt8) := do
  let bodyLen := 4 + 4 + (src.unusedLoader.str.length + 1) + (src.vid.str.length + 1) + 2 + 2
  let totalLen := 4 + 4 + 4 + bodyLen
  if totalLen > dstLen then throw (.bufferTooSmall totalLen dstLen)
  let header := marshalUint32 RMC_MAGIC ++ marshalUint32 reqType ++
    marshalUint32 (UInt32.ofNat totalLen)
  let body := marshalUint32 src.uid ++ marshalUint32 src.gid ++
    marshalString src.unusedLoader.str ++ marshalString src.vid.str ++
    marshalUint16 src.first ++ marshalUint16 src.second
  let nbBytesMarshalled := (header ++ body).length
  if totalLen ≠ nbBytesMarshalled then throw (.lengthMismatch totalLen nbBytesMarshalled)
  return header ++ body

def RmcMountMsgBody.marshal (dstLen : Nat) (src : RmcMountMsgBody) : Except Failure (List UInt8) :=
  marshalMsg RMC_MOUNT dstLen src.layout

def RmcUnmountMsgBody.marshal (dstLen : Nat) (src : RmcUnmountMsgBody) :
    Except Failure (List UInt8) :=
  marshalMsg RMC_UNMOUNT dstLen src.layout

/-- The source: where it goes on, and how much of it is left. -/
structure Source where
  src : Nat
  srcLen : Nat
  deriving DecidableEq, Repr

def Source.advance (s : Source) (n : Nat) : Source := ⟨s.src + n, s.srcLen - n⟩

def unmarshalUint (mem : Memory) (size : Nat) : EStateM Failure Source Nat := exec fun s =>
  if s.srcLen < size then .error (.sourceTooSmall size s.srcLen)
  else .ok (valueOf (read mem s.src size), s.advance size)

def unmarshalUint16 (mem : Memory) : EStateM Failure Source UInt16 := do
  let n ← unmarshalUint mem 2
  return UInt16.ofNat n

def unmarshalUint32 (mem : Memory) : EStateM Failure Source UInt32 := do
  let n ← unmarshalUint mem 4
  return UInt32.ofNat n

/-- What is copied of a string: not more than the source has, nor than the array takes. -/
def copied (mem : Memory) (n : Nat) (s : Source) : List UInt8 × Bool :=
  scan mem s.src (if s.srcLen < n then s.srcLen else n)

theorem length_copied_le (mem : Memory) (n : Nat) (s : Source) :
    (copied mem n s).1.length ≤ n := by
  refine (length_scan_le _ _ _).trans ?_
  split
  · omega
  · exact le_rfl

def unmarshalString (mem : Memory) {n : Nat} (dst : CharArray n) :
    EStateM Failure Source (CharArray n) := fun s =>
  if s.srcLen = 0 then .error .sourceLengthZero s
  else if n = 0 then .error .destinationLengthZero s
  else if (copied mem n s).2 then
    .ok (dst.overwrite (copied mem n s).1 (length_copied_le mem n s))
      (s.advance (copied mem n s).1.length)
  else .error .terminatorNotReached (s.advance (copied mem n s).1.length)

def unmarshalMsg (mem : Memory) (dst : MsgBody) : EStateM Failure Source MsgBody := do
  let uid ← unmarshalUint32 mem
  let gid ← unmarshalUint32 mem
  let unusedLoader ← unmarshalString mem dst.unusedLoader
  let vid ← unmarshalString mem dst.vid
  let first ← unmarshalUint16 mem
  let second ← unmarshalUint16 mem
  return ⟨uid, gid, unusedLoader, vid, first, second⟩

def RmcMountMsgBody.unmarshal (mem : Memory) (dst : RmcMountMsgBody) :
    EStateM Failure Source RmcMountMsgBody := do
  let b ← unmarshalMsg mem dst.layout
  return .ofLayout b

def RmcUnmountMsgBody.unmarshal (mem : Memory) (dst : RmcUnmountMsgBody) :
    EStateM Failure Source RmcUnmountMsgBody := do
  let b ← unmarshalMsg mem dst.layout
  return .ofLayout b

def MessageHeader.unmarshal (mem : Memory) : EStateM Failure Source MessageHeader := do
  let magic ← unmarshalUint32 mem
  let reqType ← unmarshalUint32 mem
  let lenOrStatus ← unmarshalUint32 mem
  return ⟨magic, reqType, lenOrStatus⟩

/-- What is left is the end of what there was. -/
def Source.Within (start s : Source) : Prop :=
  start.src ≤ s.src ∧ s.src + s.srcLen = start.src + start.srcLen

/-- A decoder that stays in its source, and does not depend on what is outside. -/
structure Bounded {α : Type} (x : Memory → EStateM Failure Source α) : Prop where
  within : ∀ mem start, Keeps (Source.Within start) (x mem)
  reads : ∀ mem mem' s, Agree mem mem' s.src s.srcLen → x mem s = x mem' s

section
variable {α β : Type} {mem mem' : Memory} {s start : Source} {n size : Nat} {str : List UInt8}

@[simp] theorem advance_src : (s.advance n).src = s.src + n := rfl

@[simp] theorem advance_srcLen : (s.advance n).srcLen = s.srcLen - n := rfl

theorem advance_advance {m : Nat} : (s.advance n).advance m = s.advance (n + m) := by
  simp only [Source.advance, Nat.sub_sub, Nat.add_assoc]

theorem Source.Within.advance (h : start.Within s) (hn : n ≤ s.srcLen) :
    start.Within (s.advance n) := by
  refine ⟨h.1.trans (Nat.le_add_right _ _), ?_⟩
  rw [← h.2, advance_src, advance_srcLen]
  omega

theorem Source.Within.agree (h : start.Within s) (hagree : Agree mem mem' start.src start.srcLen) :
    Agree mem mem' s.src s.srcLen :=
  hagree.mono h.1 h.2.le

theorem Bounded.pure (a : α) : Bounded fun _ => pure a where
  within _ _ := Triple.pure fun _ => id
  reads _ _ _ _ := rfl

theorem Bounded.bind {x : Memory → EStateM Failure Source α}
    {f : α → Memory → EStateM Failure Source β} (hx : Bounded x) (hf : ∀ a, Bounded (f a)) :
    Bounded fun mem => x mem >>= fun a => f a mem where
  within mem start := (hx.within mem start).bind fun a => (hf a).within mem start
  reads mem mem' s h := by
    have hx' := hx.reads mem mem' s h
    cases hrun : x mem s with
    | ok a t =>
      have hleft : s.Within t := (hx.within mem s).of_ok ⟨le_rfl, rfl⟩ hrun
      rw [bind_ok hrun, bind_ok (hx'.symm.trans hrun)]
      exact (hf a).reads mem mem' t (hleft.agree h)
    | error e t => rw [bind_error hrun, bind_error (hx'.symm.trans hrun)]

theorem bounded_unmarshalUint (size : Nat) : Bounded fun mem => unmarshalUint mem size where
  within mem start := Keeps.exec fun s n t hs h => by
    split at h
    · cases h
    · next hsize =>
      cases h
      exact hs.advance (Nat.not_lt.mp hsize)
  reads mem mem' s h := by
    unfold unmarshalUint exec
    by_cases hsize : s.srcLen < size
    · simp only [if_pos hsize]
    · have hread := (h.mono le_rfl (Nat.add_le_add_left (Nat.not_lt.mp hsize) _)).read
      simp only [if_neg hsize, hread]

theorem bounded_unmarshalUint16 : Bounded unmarshalUint16 :=
  (bounded_unmarshalUint 2).bind fun _ => .pure _

theorem bounded_unmarshalUint32 : Bounded unmarshalUint32 :=
  (bounded_unmarshalUint 4).bind fun _ => .pure _

theorem length_copied_le_srcLen : (copied mem n s).1.length ≤ s.srcLen := by
  refine (length_scan_le _ _ _).trans ?_
  split
  · exact le_rfl
  · omega

theorem copied_congr (h : Agree mem mem' s.src s.srcLen) : copied mem n s = copied mem' n s := by
  refine (h.mono le_rfl ?_).scan
  split
  · exact le_rfl
  · omega

theorem bounded_unmarshalString (dst : CharArray n) :
    Bounded fun mem => unmarshalString mem dst where
  within mem start s hs := by
    have hnext : start.Within (s.advance (copied mem n s).1.length) :=
      hs.advance length_copied_le_srcLen
    unfold unmarshalString
    by_cases hsource : s.srcLen = 0
    · simpa only [if_pos hsource] using hs
    · by_cases hn : n = 0
      · simpa only [if_neg hsource, if_pos hn] using hs
      · cases hcopied : (copied mem n s).2 with
        | true => simpa only [if_neg hsource, if_neg hn, hcopied, if_true] using hnext
        | false =>
          simpa only [if_neg hsource, if_neg hn, hcopied, Bool.false_eq_true, if_false] using hnext
  reads mem mem' s h := by
    unfold unmarshalString
    simp only [copied_congr h]

theorem bounded_unmarshalMsg (dst : MsgBody) : Bounded fun mem => unmarshalMsg mem dst :=
  bounded_unmarshalUint32.bind fun _ => bounded_unmarshalUint32.bind fun _ =>
    (bounded_unmarshalString _).bind fun _ => (bounded_unmarshalString _).bind fun _ =>
      bounded_unmarshalUint16.bind fun _ => bounded_unmarshalUint16.bind fun _ => .pure _

theorem RmcMountMsgBody.bounded_unmarshal (dst : RmcMountMsgBody) :
    Bounded fun mem => RmcMountMsgBody.unmarshal mem dst :=
  (bounded_unmarshalMsg _).bind fun _ => .pure _

theorem RmcUnmountMsgBody.bounded_unmarshal (dst : RmcUnmountMsgBody) :
    Bounded fun mem => RmcUnmountMsgBody.unmarshal mem dst :=
  (bounded_unmarshalMsg _).bind fun _ => .pure _

theorem unmarshalUint_eq (v : Nat) (h : Holds mem s.src (bytesOf size v)) (hlen : size ≤ s.srcLen) :
    unmarshalUint mem size s = .ok (v % 256 ^ size) (s.advance size) := by
  rw [Holds, length_bytesOf] at h
  rw [unmarshalUint, exec_eq_ok, if_neg (Nat.not_lt.mpr hlen), h, valueOf_bytesOf]

theorem unmarshalUint32_eq (v : UInt32) (h : Holds mem s.src (marshalUint32 v))
    (hlen : 4 ≤ s.srcLen) : unmarshalUint32 mem s = .ok v (s.advance 4) := by
  have hv : v.toNat % 256 ^ 4 = v.toNat := Nat.mod_eq_of_lt v.toNat_lt
  rw [unmarshalUint32, bind_ok (unmarshalUint_eq _ h hlen), hv, UInt32.ofNat_toNat, pure_run]

theorem unmarshalUint16_eq (v : UInt16) (h : Holds mem s.src (marshalUint16 v))
    (hlen : 2 ≤ s.srcLen) : unmarshalUint16 mem s = .ok v (s.advance 2) := by
  have hv : v.toNat % 256 ^ 2 = v.toNat := Nat.mod_eq_of_lt v.toNat_lt
  rw [unmarshalUint16, bind_ok (unmarshalUint_eq _ h hlen), hv, UInt16.ofNat_toNat, pure_run]

/-- A string that fits in the array is found there, with what was behind it. -/
theorem unmarshalString_eq (dst : CharArray n) (h : Holds mem s.src (marshalString str))
    (hstr : 0 ∉ str) (hn : str.length < n) (hlen : str.length + 1 ≤ s.srcLen) :
    ∃ a : CharArray n, a.bytes = str ++ 0 :: dst.bytes.drop (str.length + 1) ∧
      unmarshalString mem dst s = .ok a (s.advance (str.length + 1)) := by
  have hcopied : copied mem n s = (str ++ [0], true) := by
    refine scan_eq hstr h ?_
    split
    · omega
    · exact hn
  have hsource : ¬s.srcLen = 0 := by omega
  have hn' : ¬n = 0 := by omega
  refine ⟨dst.overwrite (copied mem n s).1 (length_copied_le mem n s), ?_, ?_⟩
  · simp only [CharArray.overwrite, hcopied, List.length_append, List.length_singleton,
      List.append_assoc, List.singleton_append]
  · rw [unmarshalString, if_neg hsource, if_neg hn']
    simp only [hcopied, if_true, List.length_append, List.length_singleton]

theorem CharArray.ext {a b : CharArray n} (h : a.bytes = b.bytes) : a = b := by
  cases a
  cases b
  cases h
  rfl

theorem CharArray.length_str_lt {a : CharArray n} (h : a.Terminated) : a.str.length < n :=
  (length_cstr_lt h).trans_eq a.length

theorem unmarshalString_terminated {dst a : CharArray n} {t : Source}
    (h : unmarshalString mem dst s = .ok a t) : a.Terminated := by
  unfold unmarshalString at h
  split at h
  · cases h
  · split at h
    · cases h
    · split at h
      · next hcopied =>
        cases h
        obtain ⟨str, -, hstr, -⟩ := scan_terminated hcopied
        have hmem : 0 ∈ (copied mem n s).1 := by
          rw [copied, hstr]
          exact List.mem_append_right _ (List.mem_singleton.mpr rfl)
        exact List.mem_append_left _ hmem
      · cases h

end

namespace MsgBody

def Terminated (b : MsgBody) : Prop := b.unusedLoader.Terminated ∧ b.vid.Terminated

/-- The same numbers and strings. -/
structure Same (b b' : MsgBody) : Prop where
  uid : b.uid = b'.uid
  gid : b.gid = b'.gid
  unusedLoader : b.unusedLoader.str = b'.unusedLoader.str
  vid : b.vid.str = b'.vid.str
  first : b.first = b'.first
  second : b.second = b'.second

/-- Behind the strings of the second body, the first one has the same bytes. -/
def SameBehind (b b' : MsgBody) : Prop :=
  b.unusedLoader.bytes.drop (b'.unusedLoader.str.length + 1) =
    b'.unusedLoader.bytes.drop (b'.unusedLoader.str.length + 1) ∧
  b.vid.bytes.drop (b'.vid.str.length + 1) = b'.vid.bytes.drop (b'.vid.str.length + 1)

def bytes (b : MsgBody) : List UInt8 :=
  marshalUint32 b.uid ++ (marshalUint32 b.gid ++ (marshalString b.unusedLoader.str ++
    (marshalString b.vid.str ++ (marshalUint16 b.first ++ marshalUint16 b.second))))

theorem length_bytes (b : MsgBody) :
    b.bytes.length = b.unusedLoader.str.length + b.vid.str.length + 14 := by
  simp only [bytes, marshalUint32, marshalUint16, marshalString, List.length_append, length_bytesOf,
    List.length_singleton]
  omega

end MsgBody

@[simp] theorem length_marshalUint32 (v : UInt32) : (marshalUint32 v).length = 4 :=
  length_bytesOf 4 _

@[simp] theorem length_marshalUint16 (v : UInt16) : (marshalUint16 v).length = 2 :=
  length_bytesOf 2 _

@[simp] theorem length_marshalString (str : List UInt8) :
    (marshalString str).length = str.length + 1 := List.length_append

section
variable {mem : Memory} {s : Source}

theorem unmarshalMsg_eq {b : MsgBody} (dst : MsgBody) (hterminated : b.Terminated)
    (h : Holds mem s.src b.bytes) (hlen : b.bytes.length ≤ s.srcLen) :
    ∃ b', unmarshalMsg mem dst s = .ok b' (s.advance b.bytes.length) ∧ b'.Same b ∧
      (dst.SameBehind b → b' = b) := by
  rw [MsgBody.length_bytes] at hlen ⊢
  obtain ⟨huid, h⟩ := holds_append.mp h
  obtain ⟨hgid, h⟩ := holds_append.mp h
  obtain ⟨hloader, h⟩ := holds_append.mp h
  obtain ⟨hvid, h⟩ := holds_append.mp h
  obtain ⟨hfirst, hsecond⟩ := holds_append.mp h
  simp only [length_marshalUint32, length_marshalUint16, length_marshalString] at *
  have huid' := unmarshalUint32_eq b.uid huid (by omega)
  have hgid' := unmarshalUint32_eq (s := s.advance 4) b.gid hgid (by simp; omega)
  obtain ⟨loader, hloaderBytes, hloader'⟩ := unmarshalString_eq (s := (s.advance 4).advance 4)
    dst.unusedLoader hloader (zero_notMem_cstr _) (CharArray.length_str_lt hterminated.1)
    (by simp; omega)
  obtain ⟨vid, hvidBytes, hvid'⟩ := unmarshalString_eq
    (s := ((s.advance 4).advance 4).advance (b.unusedLoader.str.length + 1))
    dst.vid hvid (zero_notMem_cstr _) (CharArray.length_str_lt hterminated.2) (by simp; omega)
  simp only [advance_advance] at hgid' hloader' hvid'
  have hfirst' := unmarshalUint16_eq
    (s := s.advance (4 + 4 + (b.unusedLoader.str.length + 1) + (b.vid.str.length + 1)))
    b.first (by simpa [Nat.add_assoc] using hfirst) (by simp; omega)
  have hsecond' := unmarshalUint16_eq
    (s := s.advance (4 + 4 + (b.unusedLoader.str.length + 1) + (b.vid.str.length + 1) + 2))
    b.second (by simpa [Nat.add_assoc] using hsecond) (by simp; omega)
  rw [advance_advance] at hfirst' hsecond'
  have hend : 4 + 4 + (b.unusedLoader.str.length + 1) + (b.vid.str.length + 1) + 2 + 2 =
      b.unusedLoader.str.length + b.vid.str.length + 14 := by omega
  refine ⟨⟨b.uid, b.gid, loader, vid, b.first, b.second⟩, ?_, ?_, ?_⟩
  · rw [unmarshalMsg, bind_ok huid', bind_ok hgid', bind_ok hloader', bind_ok hvid',
      bind_ok hfirst', bind_ok hsecond', pure_run, hend]
  · have hsame : ∀ {n : Nat} {a : CharArray n} {str rest : List UInt8},
        a.bytes = cstr str ++ 0 :: rest → a.str = cstr str := fun {n a str rest} ha => by
      rw [CharArray.str, ha, cstr_append_zero (zero_notMem_cstr str)]
    exact ⟨rfl, rfl, hsame hloaderBytes, hsame hvidBytes, rfl, rfl⟩
  · intro hbehind
    have hloader : loader = b.unusedLoader := CharArray.ext (by
      rw [hloaderBytes, hbehind.1]
      exact (eq_cstr_append hterminated.1).symm)
    have hvid : vid = b.vid := CharArray.ext (by
      rw [hvidBytes, hbehind.2]
      exact (eq_cstr_append hterminated.2).symm)
    rw [hloader, hvid]

theorem unmarshalMsg_terminated {dst b' : MsgBody} {t : Source}
    (h : unmarshalMsg mem dst s = .ok b' t) : b'.Terminated := by
  obtain ⟨uid, _, -, h⟩ := bind_eq_ok.mp h
  obtain ⟨gid, _, -, h⟩ := bind_eq_ok.mp h
  obtain ⟨loader, _, hloader, h⟩ := bind_eq_ok.mp h
  obtain ⟨vid, _, hvid, h⟩ := bind_eq_ok.mp h
  obtain ⟨first, _, -, h⟩ := bind_eq_ok.mp h
  obtain ⟨second, _, -, h⟩ := bind_eq_ok.mp h
  obtain ⟨rfl, -⟩ := pure_eq_ok.mp h
  exact ⟨unmarshalString_terminated hloader, unmarshalString_terminated hvid⟩

end

def MessageHeader.bytes (h : MessageHeader) : List UInt8 :=
  marshalUint32 h.magic ++ (marshalUint32 h.reqType ++ marshalUint32 h.lenOrStatus)

/-- The header of a message for this body. -/
def MsgBody.header (b : MsgBody) (reqType : UInt32) : MessageHeader :=
  ⟨RMC_MAGIC, reqType, UInt32.ofNat (b.bytes.length + 12)⟩

/-- The message is the header and the body, when the buffer is large enough. -/
theorem marshalMsg_eq_ok {reqType : UInt32} {dstLen : Nat} {b : MsgBody} {message : List UInt8} :
    marshalMsg reqType dstLen b = .ok message ↔
      b.bytes.length + 12 ≤ dstLen ∧ message = (b.header reqType).bytes ++ b.bytes := by
  have htotal : 4 + 4 + 4 + (4 + 4 + (b.unusedLoader.str.length + 1) + (b.vid.str.length + 1) +
      2 + 2) = b.bytes.length + 12 := by
    rw [MsgBody.length_bytes]
    omega
  have hbytes : marshalUint32 RMC_MAGIC ++ marshalUint32 reqType ++
      marshalUint32 (UInt32.ofNat (b.bytes.length + 12)) ++
      (marshalUint32 b.uid ++ marshalUint32 b.gid ++ marshalString b.unusedLoader.str ++
        marshalString b.vid.str ++ marshalUint16 b.first ++ marshalUint16 b.second) =
      (b.header reqType).bytes ++ b.bytes := by
    simp only [MsgBody.header, MessageHeader.bytes, MsgBody.bytes, List.append_assoc]
  have hlength : ((b.header reqType).bytes ++ b.bytes).length = b.bytes.length + 12 := by
    simp only [MessageHeader.bytes, List.length_append, length_marshalUint32]
    omega
  rw [marshalMsg]
  simp only [htotal, hbytes, hlength, ne_eq, not_true_eq_false, if_false]
  by_cases hfits : b.bytes.length + 12 ≤ dstLen
  · rw [if_neg (Nat.not_lt.mpr hfits), and_iff_right hfits, eq_comm]
    exact ⟨fun h => Except.ok.inj h, congrArg Except.ok⟩
  · rw [if_pos (Nat.not_le.mp hfits)]
    exact iff_of_false nofun fun h => hfits h.1

section
variable {mem : Memory} {s : Source}

theorem MessageHeader.unmarshal_eq (header : MessageHeader) (h : Holds mem s.src header.bytes)
    (hlen : 12 ≤ s.srcLen) : MessageHeader.unmarshal mem s = .ok header (s.advance 12) := by
  obtain ⟨hmagic, h⟩ := holds_append.mp h
  obtain ⟨hreqType, hlenOrStatus⟩ := holds_append.mp h
  simp only [length_marshalUint32] at hreqType hlenOrStatus
  have hmagic' := unmarshalUint32_eq header.magic hmagic (by omega)
  have hreqType' := unmarshalUint32_eq (s := s.advance 4) header.reqType hreqType (by simp; omega)
  have hlenOrStatus' := unmarshalUint32_eq (s := (s.advance 4).advance 4) header.lenOrStatus
    hlenOrStatus (by simp; omega)
  simp only [advance_advance] at hreqType' hlenOrStatus'
  rw [MessageHeader.unmarshal, bind_ok hmagic', bind_ok hreqType', bind_ok hlenOrStatus', pure_run]

end

end Cta.MediaChanger.RmcMarshal

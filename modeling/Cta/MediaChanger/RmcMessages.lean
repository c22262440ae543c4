import Cta.MediaChanger.RmcRequests

/-! The messages of the clients against what the media changer daemon decodes. -/
namespace Cta.MediaChanger.RmcMessages
open Cta.Lib.Triples Cta.Lib.Transactions Cta.Lib.Wire
open Cta.MediaChanger.RmcMarshal Cta.MediaChanger.RmcRequests

structure IsMessage (message : List UInt8) (reqType : UInt32) (body : List UInt8) : Prop where
  header : ∀ mem s, Holds mem s.src message → message.length ≤ s.srcLen →
    MessageHeader.unmarshal mem s =
      .ok ⟨RMC_MAGIC, reqType, UInt32.ofNat message.length⟩ (s.advance 12)
  behind : message.drop 12 = body
  length : message.length = 12 + body.length ∧ message.length < 2 ^ 32

section
variable {α β : Type} (layout : α → MsgBody) (marshal : Nat → α → Except Failure (List UInt8))
  (unmarshal : Memory → α → EStateM Failure Source α) (reqType : UInt32)
  (request : Memory → EStateM Argument Nat β)

/-- What becomes of a body: it is marshalled behind its header when the buffer is large enough, the
client finds it again, and the daemon decodes the request that was meant. -/
structure Understood (b : α) (r : β) : Prop where
  fits : ∀ dstLen, 12 + (layout b).bytes.length ≤ dstLen → ∃ message, marshal dstLen b = .ok message
  message : ∀ dstLen message, marshal dstLen b = .ok message →
    IsMessage message reqType (layout b).bytes
  recovered : ∀ mem dst s, Holds mem s.src (layout b).bytes → (layout b).bytes.length ≤ s.srcLen →
    ∃ b', unmarshal mem dst s = .ok b' (s.advance (layout b).bytes.length) ∧
      (layout b').Same (layout b) ∧ ((layout dst).SameBehind (layout b) → b' = b)
  decoded : ∀ mem, Holds mem 0 (layout b).bytes → request mem 0 = .ok r (layout b).bytes.length

/-- Whatever the bytes are, only those of the source are looked at, and the strings end in their
arrays. -/
structure Safe : Prop where
  bounded : ∀ dst, Bounded fun mem => unmarshal mem dst
  terminated : ∀ mem dst s b t, unmarshal mem dst s = .ok b t → (layout b).Terminated

end

section
variable {mem : Memory} {b : MsgBody} {reqType : UInt32}

theorem isMessage_of_bytes {h : MessageHeader} {message body : List UInt8}
    (hmessage : message = h.bytes ++ body)
    (hheader : h = ⟨RMC_MAGIC, reqType, UInt32.ofNat message.length⟩)
    (hlength : message.length < 2 ^ 32) : IsMessage message reqType body := by
  have hbytes : h.bytes.length = 12 := by
    simp only [MessageHeader.bytes, List.length_append, length_marshalUint32]
  refine ⟨fun mem s hholds hlen => ?_, ?_, ?_, hlength⟩
  · rw [hmessage] at hholds
    rw [hmessage, List.length_append, hbytes] at hlen
    rw [← hheader]
    exact h.unmarshal_eq (holds_append.mp hholds).1 (by omega)
  · rw [hmessage, ← hbytes, List.drop_left]
  · rw [hmessage, List.length_append, hbytes]

theorem MsgBody.length_bytes_lt (h : b.Terminated) : b.bytes.length ≤ 20 := by
  have hloader := CharArray.length_str_lt h.1
  have hvid : b.vid.str.length < 7 := CharArray.length_str_lt h.2
  rw [MsgBody.length_bytes]
  omega

theorem isMessage_of_marshalMsg (hterminated : b.Terminated) {dstLen : Nat} {message : List UInt8}
    (h : marshalMsg reqType dstLen b = .ok message) : IsMessage message reqType b.bytes := by
  obtain ⟨-, rfl⟩ := marshalMsg_eq_ok.mp h
  have hlength : ((b.header reqType).bytes ++ b.bytes).length = b.bytes.length + 12 := by
    simp only [MessageHeader.bytes, List.length_append, length_marshalUint32]
    omega
  have hle := MsgBody.length_bytes_lt hterminated
  refine isMessage_of_bytes rfl ?_ (by rw [hlength]; omega)
  rw [hlength, MsgBody.header]

theorem encodes_marshalUint32 (v : UInt32) : Field.Encodes .long v.toNat (marshalUint32 v) := by
  refine ⟨length_marshalUint32 v, ?_⟩
  rw [marshalUint32, valueOf_bytesOf]
  exact (Nat.mod_eq_of_lt v.toNat_lt).symm

theorem encodes_marshalUint16 (v : UInt16) : Field.Encodes .word v.toNat (marshalUint16 v) := by
  refine ⟨length_marshalUint16 v, ?_⟩
  rw [marshalUint16, valueOf_bytesOf]
  exact (Nat.mod_eq_of_lt v.toNat_lt).symm

theorem encoded_bytes (h : b.Terminated) : Encoded rmcSrvMountFields
    (b.uid.toNat, b.gid.toNat, b.unusedLoader.str, b.vid.str, b.first.toNat, b.second.toNat, ⟨⟩)
    b.bytes := by
  have hloader : b.unusedLoader.str.length < CA_MAXRBTNAMELEN + 1 := by
    have hlt := CharArray.length_str_lt h.1
    rw [CA_MAXRBTNAMELEN]
    omega
  refine ⟨_, _, rfl, encodes_marshalUint32 _, _, _, rfl, encodes_marshalUint32 _,
    _, _, rfl, ⟨zero_notMem_cstr _, hloader, rfl⟩,
    _, _, rfl, ⟨zero_notMem_cstr _, CharArray.length_str_lt h.2, rfl⟩,
    _, _, rfl, encodes_marshalUint16 _, _, _, (List.append_nil _).symm, encodes_marshalUint16 _,
    rfl⟩

theorem unmarshallAll_of_encoded {fs : List Field} {vs : Values fs} {bytes : List UInt8}
    (h : Encoded fs vs bytes) (hholds : Holds mem 0 bytes) :
    unmarshallAll mem fs 0 = .ok vs bytes.length :=
  unmarshallAll_eq_ok.mpr ⟨bytes, h, hholds, (Nat.zero_add _).symm⟩

theorem marshallLong_eq {n : Nat} (h : n < 2 ^ 32) : marshallLong n = bytesOf 4 n := by
  have hn : ((n : Int) % 256 ^ 4).toNat = n := by omega
  rw [marshallLong, hn]

theorem marshallLong_toNat (v : UInt32) : marshallLong v.toNat = marshalUint32 v :=
  marshallLong_eq v.toNat_lt

theorem length_marshallWord (n : Int) : (marshallWord n).length = 2 := length_bytesOf 2 _

theorem encodes_marshallWord (n : Int) :
    Field.Encodes .word (n % 2 ^ 16).toNat (marshallWord n) := by
  refine ⟨length_marshallWord n, ?_⟩
  have hvalue : (n % 2 ^ 16).toNat = (n % 256 ^ 2).toNat % 256 ^ 2 := by omega
  rw [marshallWord, valueOf_bytesOf]
  exact hvalue

theorem encoded_rmcMountBody {uid gid : UInt32} {vid : List UInt8} {side drvord : Int}
    (hzero : 0 ∉ vid) (hvid : vid.length ≤ CA_MAXVIDLEN) : Encoded rmcSrvMountFields
    (uid.toNat, gid.toNat, [], vid, (side % 2 ^ 16).toNat, (drvord % 2 ^ 16).toNat, ⟨⟩)
    (rmcMountBody uid gid vid side drvord) := by
  have hlong : ∀ v : UInt32, Field.Encodes .long v.toNat (marshallLong v.toNat) := fun v =>
    marshallLong_toNat v ▸ encodes_marshalUint32 v
  exact ⟨_, _, rfl, hlong uid, _, _, rfl, hlong gid,
    _, _, rfl, ⟨List.not_mem_nil, Nat.succ_pos _, rfl⟩,
    _, _, rfl, ⟨hzero, Nat.lt_succ_of_le hvid, rfl⟩,
    _, _, rfl, encodes_marshallWord side, _, _, (List.append_nil _).symm,
    encodes_marshallWord drvord, rfl⟩

theorem isMessage_rmcMount {uid gid : UInt32} {vid : List UInt8} {side drvord : Int}
    (hvid : vid.length ≤ CA_MAXVIDLEN) :
    IsMessage (rmcMount uid gid vid side drvord) RMC_MOUNT
      (rmcMountBody uid gid vid side drvord) := by
  have hbody : (rmcMountBody uid gid vid side drvord).length = vid.length + 14 := by
    simp only [rmcMountBody, List.length_append, marshallLong_toNat, length_marshalUint32,
      length_marshallWord, marshallString, List.length_singleton, List.nil_append]
    omega
  have hvid' : vid.length ≤ 6 := hvid
  have hmessage : rmcMount uid gid vid side drvord =
      (⟨RMC_MAGIC, RMC_MOUNT, UInt32.ofNat (12 + (vid.length + 14))⟩ : MessageHeader).bytes ++
        rmcMountBody uid gid vid side drvord := by
    have hlen : 12 + (vid.length + 14) =
        (UInt32.ofNat (12 + (vid.length + 14))).toNat := by
      rw [UInt32.toNat_ofNat']
      omega
    rw [rmcMount]
    simp only [hbody]
    rw [hlen, marshallLong_toNat, marshallLong_toNat, marshallLong_toNat, UInt32.ofNat_toNat]
    simp only [MessageHeader.bytes, List.append_assoc]
  have hlength : (rmcMount uid gid vid side drvord).length = 12 + (vid.length + 14) := by
    rw [hmessage, List.length_append, hbody]
    simp only [MessageHeader.bytes, List.length_append, length_marshalUint32]
  exact isMessage_of_bytes hmessage (by rw [hlength]) (by rw [hlength]; omega)

end

theorem mount_understood {b : RmcMountMsgBody} (h : b.layout.Terminated) :
    Understood RmcMountMsgBody.layout RmcMountMsgBody.marshal RmcMountMsgBody.unmarshal RMC_MOUNT
      rmcSrvMountRequest b
      ⟨b.uid.toNat, b.gid.toNat, b.vid.str, b.side.toNat, b.drvOrd.toNat⟩ where
  fits dstLen hlen := ⟨_, marshalMsg_eq_ok.mpr ⟨by omega, rfl⟩⟩
  message dstLen message hmarshal := isMessage_of_marshalMsg h hmarshal
  recovered mem dst s hholds hlen := by
    obtain ⟨b', hb', hsame, heq⟩ := unmarshalMsg_eq dst.layout h hholds hlen
    refine ⟨.ofLayout b', ?_, hsame, fun hbehind => congrArg RmcMountMsgBody.ofLayout (heq hbehind)⟩
    rw [RmcMountMsgBody.unmarshal, bind_ok hb', pure_run]
  decoded mem hholds := by
    rw [rmcSrvMountRequest, bind_ok (unmarshallAll_of_encoded (encoded_bytes h) hholds), pure_run]
    rfl

theorem unmount_understood {b : RmcUnmountMsgBody} (h : b.layout.Terminated) :
    Understood RmcUnmountMsgBody.layout RmcUnmountMsgBody.marshal RmcUnmountMsgBody.unmarshal
      RMC_UNMOUNT rmcSrvUnmountRequest b
      ⟨b.uid.toNat, b.gid.toNat, b.vid.str, b.drvOrd.toNat, b.force.toNat⟩ where
  fits dstLen hlen := ⟨_, marshalMsg_eq_ok.mpr ⟨by omega, rfl⟩⟩
  message dstLen message hmarshal := isMessage_of_marshalMsg h hmarshal
  recovered mem dst s hholds hlen := by
    obtain ⟨b', hb', hsame, heq⟩ := unmarshalMsg_eq dst.layout h hholds hlen
    refine ⟨.ofLayout b', ?_, hsame,
      fun hbehind => congrArg RmcUnmountMsgBody.ofLayout (heq hbehind)⟩
    rw [RmcUnmountMsgBody.unmarshal, bind_ok hb', pure_run]
  decoded mem hholds := by
    have hfields : unmarshallAll mem rmcSrvUnmountFields 0 = .ok _ _ :=
      unmarshallAll_of_encoded (encoded_bytes h) hholds
    rw [rmcSrvUnmountRequest, bind_ok hfields, pure_run]
    rfl

theorem mount_safe : Safe RmcMountMsgBody.layout RmcMountMsgBody.unmarshal where
  bounded := RmcMountMsgBody.bounded_unmarshal
  terminated mem dst s b t h := by
    obtain ⟨b', u, hb', h⟩ := bind_eq_ok.mp h
    obtain ⟨rfl, -⟩ := pure_eq_ok.mp h
    exact unmarshalMsg_terminated hb'

theorem unmount_safe : Safe RmcUnmountMsgBody.layout RmcUnmountMsgBody.unmarshal where
  bounded := RmcUnmountMsgBody.bounded_unmarshal
  terminated mem dst s b t h := by
    obtain ⟨b', u, hb', h⟩ := bind_eq_ok.mp h
    obtain ⟨rfl, -⟩ := pure_eq_ok.mp h
    exact unmarshalMsg_terminated hb'

/-- The messages of the C++ client are understood by the client itself and by the daemon; those of
the C client by the daemon, which obtains the side and the drive ordinal modulo 2^16. -/
theorem messages_understood :
    (∀ b : RmcMountMsgBody, b.layout.Terminated →
      Understood RmcMountMsgBody.layout RmcMountMsgBody.marshal RmcMountMsgBody.unmarshal RMC_MOUNT
        rmcSrvMountRequest b
        ⟨b.uid.toNat, b.gid.toNat, b.vid.str, b.side.toNat, b.drvOrd.toNat⟩) ∧
    (∀ b : RmcUnmountMsgBody, b.layout.Terminated →
      Understood RmcUnmountMsgBody.layout RmcUnmountMsgBody.marshal RmcUnmountMsgBody.unmarshal
        RMC_UNMOUNT rmcSrvUnmountRequest b
        ⟨b.uid.toNat, b.gid.toNat, b.vid.str, b.drvOrd.toNat, b.force.toNat⟩) ∧
    Safe RmcMountMsgBody.layout RmcMountMsgBody.unmarshal ∧
    Safe RmcUnmountMsgBody.layout RmcUnmountMsgBody.unmarshal ∧
    ∀ uid gid vid side drvord, 0 ∉ vid → vid.length ≤ CA_MAXVIDLEN →
      IsMessage (rmcMount uid gid vid side drvord) RMC_MOUNT
        (rmcMountBody uid gid vid side drvord) ∧
      ∀ mem, Holds mem 0 (rmcMountBody uid gid vid side drvord) →
        rmcSrvMountRequest mem 0 = .ok ⟨uid.toNat, gid.toNat, vid, (side % 2 ^ 16).toNat,
          (drvord % 2 ^ 16).toNat⟩ (rmcMountBody uid gid vid side drvord).length := by
  refine ⟨fun b => mount_understood, fun b => unmount_understood, mount_safe, unmount_safe, ?_⟩
  intro uid gid vid side drvord hzero hvid
  refine ⟨isMessage_rmcMount hvid, fun mem hholds => ?_⟩
  rw [rmcSrvMountRequest,
    bind_ok (unmarshallAll_of_encoded (encoded_rmcMountBody hzero hvid) hholds), pure_run]
  rfl

def mountBody (drvOrd : UInt16) : RmcMountMsgBody where
  uid := 1000
  gid := 1000
  unusedLoader := .zero 1
  vid := ⟨[86, 48, 48, 48, 48, 49, 0], rfl⟩
  side := 0
  drvOrd := drvOrd

def memoryOf (bytes : List UInt8) : Memory := fun i => bytes.getD i 0

theorem holds_memoryOf (bytes : List UInt8) : Holds (memoryOf bytes) 0 bytes :=
  holds_of_getD fun i _ => by rw [Nat.zero_add, memoryOf]

theorem messages_understood_drive :
    rmcSrvMountRequest (memoryOf (mountBody 3).layout.bytes) 0 =
      .ok ⟨1000, 1000, [86, 48, 48, 48, 48, 49], 0, 3⟩ 20 ∧
    rmcSrvMountRequest (memoryOf (rmcMountBody 1000 1000 [86, 48, 48, 48, 48, 49] 0 3)) 0 =
      .ok ⟨1000, 1000, [86, 48, 48, 48, 48, 49], 0, 3⟩ 20 := by
  obtain ⟨hmount, -, -, -, hrmcMount⟩ := messages_understood
  have hterminated : (mountBody 3).layout.Terminated := by
    constructor
    · exact List.mem_singleton.mpr rfl
    · change (0 : UInt8) ∈ [86, 48, 48, 48, 48, 49, 0]
      decide
  have hlength : (mountBody 3).layout.bytes.length = 20 := by decide +kernel
  have hlength' : (rmcMountBody 1000 1000 [86, 48, 48, 48, 48, 49] 0 3).length = 20 := by
    decide +kernel
  have hstr : (mountBody 3).vid.str = [86, 48, 48, 48, 48, 49] := by decide +kernel
  constructor
  · rw [((hmount (mountBody 3) hterminated).decoded _ (holds_memoryOf _)), hlength, hstr]
    rfl
  · rw [(hrmcMount 1000 1000 [86, 48, 48, 48, 48, 49] 0 3 (by decide) (by decide)).2 _
      (holds_memoryOf _), hlength']
    rfl

/-- The drive ordinal 65536 of the C client arrives as that of the first drive. -/
theorem drive_ordinal_not_obtained :
    ¬∀ uid gid vid side drvord, 0 ∉ vid → vid.length ≤ CA_MAXVIDLEN →
      ∀ mem, Holds mem 0 (rmcMountBody uid gid vid side drvord) →
        ∃ request n, rmcSrvMountRequest mem 0 = .ok request n ∧ request.vid = vid ∧
          (request.invert : Int) = side ∧ (request.drvord : Int) = drvord := by
  intro hall
  obtain ⟨request, n, hrequest, -, -, hdrvord⟩ := hall 1000 1000 [86, 48, 48, 48, 48, 49] 0 65536
    (by decide) (by decide) _ (holds_memoryOf _)
  rw [rmcSrvMountRequest, bind_ok (unmarshallAll_of_encoded
    (encoded_rmcMountBody (by decide) (by decide)) (holds_memoryOf _)), pure_run] at hrequest
  cases hrequest
  exact absurd hdrvord (by decide)

end Cta.MediaChanger.RmcMessages

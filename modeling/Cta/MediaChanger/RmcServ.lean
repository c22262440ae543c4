import Cta.MediaChanger.RmcHandlers

/-! The media changer daemon on one connection: the request is received, handled and answered. -/
namespace Cta.MediaChanger.RmcServ
open Cta.Lib.Triples Cta.Lib.Wire
open Cta.MediaChanger.RmcRequests Cta.MediaChanger.RmcHandlers

def RMC_REQBUFSZ : Int := 256

inductive Ending
  | closed
  | silent
  deriving DecidableEq, Repr

/-- A client: the bytes that arrive in time, and whether `getpeername` can tell who it is. -/
structure Client where
  stream : List UInt8
  ending : Ending
  peerKnown : Bool
  deriving DecidableEq, Repr

def netreadTimeout (stream : List UInt8) (ending : Ending) (n : Int) : Int × List UInt8 :=
  if n < 0 then (-1, [])
  else if n ≤ stream.length then (n, stream.take n.toNat)
  else match ending with
    | .closed => (0, stream)
    | .silent => (-1, stream)

structure GetReq where
  rc : Int
  reqType : Int
  reqData : List UInt8
  deriving DecidableEq, Repr

def headerField (hdr : List UInt8) (i : Nat) : Int := asInt (valueOf ((hdr.drop (4 * i)).take 4))

/-- The magic number is not looked at, nor is what the second read returns. -/
def rmcGetreq (c : Client) : GetReq :=
  let (l, reqHdr) := netreadTimeout c.stream c.ending 12
  if l = 12 then
    let reqType := headerField reqHdr 1
    let msglen := headerField reqHdr 2
    if msglen > RMC_REQBUFSZ then ⟨-1, reqType, []⟩
    else
      let l := Int.bmod (msglen - 12) (2 ^ 32)
      let (_, reqData) := netreadTimeout (c.stream.drop 12) c.ending l
      if c.peerKnown then ⟨0, reqType, reqData⟩ else ⟨ERMCUNREC, reqType, reqData⟩
  else ⟨ERMCUNREC, 0, []⟩

def requestBuffer (received : List UInt8) (garbage : Memory) : Memory := fun i =>
  if h : i < received.length then received[i] else garbage i

def rmcProcreq (reqType : Int) (lib : Library) (reqData : Memory) : Handled :=
  let handled := match rmcDispatchRqstHandler reqType with
    | some h => h.handle lib reqData
    | none => ⟨none, [], ERMCUNREC⟩
  let illegal : List Reply := if handled.rc = ERMCUNREC then [.msgErr (rmc03 reqType)] else []
  { handled with replies := handled.replies ++ illegal ++ [.rmcRc handled.rc] }

structure Run where
  getreq : GetReq
  handled : Option Handled
  replies : List Reply

def rmcDoit (c : Client) (lib : Library) (garbage : Memory) : Run :=
  let r := rmcGetreq c
  if r.rc = 0 then
    let handled := rmcProcreq r.reqType lib (requestBuffer r.reqData garbage)
    ⟨r, some handled, handled.replies⟩
  else if r.rc > 0 then ⟨r, none, [.rmcRc r.rc]⟩
  else ⟨r, none, []⟩

def Client.reqType (c : Client) : Int := headerField c.stream 1

def Client.lengthField (c : Client) : Int := headerField c.stream 2

def Client.body (c : Client) : List UInt8 := (c.stream.drop 12).take (c.lengthField - 12).toNat

/-- Nothing was decoded behind what was received, or the request was refused with an error. -/
def DecodedWithin (handled : Handled) (received : List UInt8) : Prop :=
  (∃ n, handled.decoded = some n ∧ n ≤ received.length) ∨
    (handled.decoded = none ∧ handled.rc = ERMCUNREC ∧ ∃ text, Reply.msgErr text ∈ handled.replies)

/-- The request was received as a whole, it was not decoded beyond what was received unless it was
refused with an error, and the replies fit in their buffer. -/
structure Run.Proper (run : Run) (c : Client) : Prop where
  complete : run.getreq.rc = 0 → 12 ≤ c.lengthField ∧ c.lengthField ≤ RMC_REQBUFSZ ∧
    c.lengthField = 12 + run.getreq.reqData.length
  decoded : ∀ handled, run.handled = some handled → DecodedWithin handled run.getreq.reqData
  fits : ∀ r ∈ run.replies, r.Fits

def Begins (fs : List Field) (values : Values fs) (bytes : List UInt8) : Prop :=
  ∃ piece rest, bytes = piece ++ rest ∧ Encoded fs values piece

def Handler.Accepts (h : Handler) (lib : Library) (bytes : List UInt8) : Prop :=
  ∃ values, Begins h.fields values bytes ∧ h.refusal lib values = none

def Accepts (lib : Library) (reqType : Int) (bytes : List UInt8) : Prop :=
  ∃ h, rmcDispatchRqstHandler reqType = some h ∧ Handler.Accepts h lib bytes

/-- What the library lists for the request can be sent, if there is memory for it. -/
structure ListsFit (lib : Library) (reqType : Int) (body : List UInt8) : Prop where
  readelem : reqType = 3 → ∀ values elements, Begins rmcSrvReadelem.fields values body →
    rmcSrvReadelem.refusal lib values = none →
    lib.smcReadElemStatus (asInt values.2.2.2.1) (asInt values.2.2.2.2.1)
      (asInt values.2.2.2.2.2.1) = .ok elements →
    lib.malloc (elements.length * 18 + 4) = true → ShortList elements
  findcart : reqType = 2 → ∀ values elements, Begins rmcSrvFindcart.fields values body →
    rmcSrvFindcart.refusal lib values = none →
    lib.smcFindCartridge values.2.2.2.1 (asInt values.2.2.2.2.1) (asInt values.2.2.2.2.2.1)
      (asInt values.2.2.2.2.2.2.1) = .ok elements →
    lib.malloc (elements.length * 18 + 4) = true → ShortList elements

/-- A request that goes no further than the header; or that says the length of a request, arrives as
a whole, is not the beginning of a longer one that would be taken, and has an answer that fits. -/
def Client.Complete (c : Client) (lib : Library) : Prop :=
  c.stream.length < 12 ∨ RMC_REQBUFSZ < c.lengthField ∨ c.peerKnown = false ∨
    (12 ≤ c.lengthField ∧ c.lengthField ≤ c.stream.length ∧
      (∀ rest, Accepts lib c.reqType (c.body ++ rest) → Accepts lib c.reqType c.body) ∧
      ListsFit lib c.reqType c.body)

section
variable {lib : Library} {reqType : Int} {h : Handler} {bytes : List UInt8} {mem : Memory}

def AlwaysFits (h : Handler) : Prop :=
  ∀ lib values, h.refusal lib values = none ∧ ∀ r ∈ (h.act lib values).1, r.Fits

theorem dispatch_cases (hdispatch : rmcDispatchRqstHandler reqType = some h) :
    (reqType = 3 ∧ h = rmcSrvReadelem) ∨ (reqType = 2 ∧ h = rmcSrvFindcart) ∨
      (reqType ≠ 3 ∧ reqType ≠ 2 ∧ AlwaysFits h) := by
  unfold rmcDispatchRqstHandler at hdispatch
  split_ifs at hdispatch with hmount hunmount hexport himport hgetgeom hreadelem hfindcart
  · cases hdispatch
    exact .inr (.inr ⟨by omega, by omega, fun lib values => ⟨rfl, fun r => fits_moved⟩⟩)
  · cases hdispatch
    exact .inr (.inr ⟨by omega, by omega, fun lib values => ⟨rfl, fun r => fits_moved⟩⟩)
  · cases hdispatch
    exact .inr (.inr ⟨by omega, by omega, fun lib values => ⟨rfl, fun r => fits_moved⟩⟩)
  · cases hdispatch
    exact .inr (.inr ⟨by omega, by omega, fun lib values => ⟨rfl, fun r => fits_moved⟩⟩)
  · cases hdispatch
    refine .inr (.inr ⟨by omega, by omega, fun lib values => ⟨rfl, fun r hr => ?_⟩⟩)
    rw [List.mem_singleton.mp hr]
    exact fits_robotInfo lib.robotInfo
  · cases hdispatch
    exact .inl ⟨hreadelem, rfl⟩
  · cases hdispatch
    exact .inr (.inl ⟨hfindcart, rfl⟩)

theorem fits_refusal (hdispatch : rmcDispatchRqstHandler reqType = some h)
    {values : Values h.fields} {text : List Char} (hrefusal : h.refusal lib values = some text) :
    (Reply.msgErr text).Fits := by
  obtain ⟨-, rfl⟩ | ⟨-, rfl⟩ | ⟨-, -, halways⟩ := dispatch_cases hdispatch
  · have hrefusal' : (if asInt values.2.2.2.1 < 0 ∨ asInt values.2.2.2.1 > 4 then
        some (rmc06 .type) else refuseElements lib (asInt values.2.2.2.2.2.1)) = some text :=
      hrefusal
    by_cases hrange : asInt values.2.2.2.1 < 0 ∨ asInt values.2.2.2.1 > 4
    · rw [if_pos hrange] at hrefusal'
      cases hrefusal'
      exact fits_rmc06 .type
    · rw [if_neg hrange] at hrefusal'
      exact fits_refuseElements hrefusal'
  · exact fits_refuseElements hrefusal
  · exact absurd ((halways lib values).1.symm.trans hrefusal) (by simp)

theorem listsFit_iff (hdispatch : rmcDispatchRqstHandler reqType = some h) :
    ListsFit lib reqType bytes ↔ ∀ values, Begins h.fields values bytes →
      h.refusal lib values = none → ∀ r ∈ (h.act lib values).1, r.Fits := by
  obtain ⟨rfl, rfl⟩ | ⟨rfl, rfl⟩ | ⟨hread, hfind, halways⟩ := dispatch_cases hdispatch
  · have hact : ∀ values : Values rmcSrvReadelem.fields,
        (∀ r ∈ (rmcSrvReadelem.act lib values).1, r.Fits) ↔ ∀ elements,
          lib.smcReadElemStatus (asInt values.2.2.2.1) (asInt values.2.2.2.2.1)
            (asInt values.2.2.2.2.2.1) = .ok elements →
          lib.malloc (elements.length * 18 + 4) = true → ShortList elements :=
      fun values => fits_listed (by decide +kernel)
    constructor
    · exact fun hlists values hbegins hrefusal => (hact values).mpr fun elements =>
        hlists.readelem rfl values elements hbegins hrefusal
    · exact fun hfits => ⟨fun _ values elements hbegins hrefusal =>
        (hact values).mp (hfits values hbegins hrefusal) elements, fun h => absurd h (by decide)⟩
  · have hact : ∀ values : Values rmcSrvFindcart.fields,
        (∀ r ∈ (rmcSrvFindcart.act lib values).1, r.Fits) ↔ ∀ elements,
          lib.smcFindCartridge values.2.2.2.1 (asInt values.2.2.2.2.1) (asInt values.2.2.2.2.2.1)
            (asInt values.2.2.2.2.2.2.1) = .ok elements →
          lib.malloc (elements.length * 18 + 4) = true → ShortList elements :=
      fun values => fits_listed (by decide +kernel)
    constructor
    · exact fun hlists values hbegins hrefusal => (hact values).mpr fun elements =>
        hlists.findcart rfl values elements hbegins hrefusal
    · exact fun hfits => ⟨fun h => absurd h (by decide), fun _ values elements hbegins hrefusal =>
        (hact values).mp (hfits values hbegins hrefusal) elements⟩
  · exact iff_of_true ⟨fun h => absurd h hread, fun h => absurd h hfind⟩
      fun values _ _ => (halways lib values).2

theorem holds_requestBuffer (received : List UInt8) (garbage : Memory) :
    Holds (requestBuffer received garbage) 0 received := by
  refine holds_of_getD fun i hi => ?_
  rw [Nat.zero_add, requestBuffer, dif_pos hi, List.getD_eq_getElem?_getD,
    List.getElem?_eq_getElem hi, Option.getD_some]

theorem exists_garbage (received rest : List UInt8) :
    ∃ garbage, Holds (requestBuffer received garbage) 0 (received ++ rest) := by
  refine ⟨fun i => (received ++ rest).getD i 0, holds_of_getD fun i hi => ?_⟩
  rw [Nat.zero_add, requestBuffer]
  split
  · next hlt =>
    rw [List.getD_eq_getElem?_getD, List.getElem?_append_left hlt, List.getElem?_eq_getElem hlt,
      Option.getD_some]
  · rfl

theorem unmarshallAll_of_begins {fs : List Field} {values : Values fs}
    (hbegins : Begins fs values bytes) (hholds : Holds mem 0 bytes) :
    ∃ n ≤ bytes.length, unmarshallAll mem fs 0 = .ok values n := by
  obtain ⟨piece, rest, rfl, hencoded⟩ := hbegins
  refine ⟨piece.length, ?_, unmarshallAll_eq_ok.mpr
    ⟨piece, hencoded, (holds_append.mp hholds).1, (Nat.zero_add _).symm⟩⟩
  rw [List.length_append]
  omega

theorem begins_of_unmarshallAll {fs : List Field} {values : Values fs} {n : Nat}
    {received : List UInt8} (hholds : Holds mem 0 received)
    (hfields : unmarshallAll mem fs 0 = .ok values n) :
    ∃ rest, Begins fs values (received ++ rest) := by
  obtain ⟨piece, hencoded, hpiece, -⟩ := unmarshallAll_eq_ok.mp hfields
  refine ⟨read mem (0 + received.length) piece.length, piece,
    read mem (0 + piece.length) received.length, ?_, hencoded⟩
  have hall := read_add mem 0 received.length piece.length
  rw [Nat.add_comm received.length, read_add] at hall
  rw [Holds] at hholds hpiece
  rw [hholds, hpiece] at hall
  exact hall.symm

theorem procreq_none (hdispatch : rmcDispatchRqstHandler reqType = none) :
    rmcProcreq reqType lib mem =
      ⟨none, [.msgErr (rmc03 reqType), .rmcRc ERMCUNREC], ERMCUNREC⟩ := by
  simp [rmcProcreq, hdispatch]

theorem procreq_some (lib : Library) (mem : Memory)
    (hdispatch : rmcDispatchRqstHandler reqType = some h) :
    (rmcProcreq reqType lib mem).decoded = (h.handle lib mem).decoded ∧
    (rmcProcreq reqType lib mem).rc = (h.handle lib mem).rc ∧
    (∀ r ∈ (h.handle lib mem).replies, r ∈ (rmcProcreq reqType lib mem).replies) ∧
    (reqType.natAbs < 10 ^ 10 → (∀ r ∈ (h.handle lib mem).replies, r.Fits) →
      ∀ r ∈ (rmcProcreq reqType lib mem).replies, r.Fits) := by
  simp only [rmcProcreq, hdispatch]
  refine ⟨trivial, trivial, fun r hr => by simp [hr], fun hbound hfits r hr => ?_⟩
  rw [List.mem_append, List.mem_append, List.mem_singleton] at hr
  obtain (hr | hr) | rfl := hr
  · exact hfits r hr
  · split at hr
    · rw [List.mem_singleton.mp hr]
      exact fits_rmc03 hbound
    · exact absurd hr List.not_mem_nil
  · exact fits_rmcRc _

theorem procreq_proper_iff (lib : Library) (received : List UInt8)
    (hbound : reqType.natAbs < 10 ^ 10) :
    (∀ garbage,
      DecodedWithin (rmcProcreq reqType lib (requestBuffer received garbage)) received ∧
      ∀ r ∈ (rmcProcreq reqType lib (requestBuffer received garbage)).replies, r.Fits) ↔
    (∀ rest, Accepts lib reqType (received ++ rest) → Accepts lib reqType received) ∧
      ListsFit lib reqType received := by
  cases hdispatch : rmcDispatchRqstHandler reqType with
  | none =>
    refine iff_of_true (fun garbage => ?_) ⟨?_, ?_, ?_⟩
    · rw [procreq_none hdispatch]
      refine ⟨.inr ⟨rfl, rfl, rmc03 reqType, by simp⟩, ?_⟩
      simpa using ⟨fits_rmc03 hbound, fits_rmcRc ERMCUNREC⟩
    · rintro rest ⟨h, hsome, -⟩
      exact absurd (hdispatch.symm.trans hsome) (by simp)
    · rintro rfl
      exact absurd hdispatch (by simp [rmcDispatchRqstHandler])
    · rintro rfl
      exact absurd hdispatch (by simp [rmcDispatchRqstHandler])
  | some h =>
    have haccepts : ∀ bytes, Accepts lib reqType bytes ↔ Handler.Accepts h lib bytes :=
      fun bytes => by simp [Accepts, hdispatch]
    simp only [haccepts, listsFit_iff hdispatch]
    constructor
    · intro hall
      refine ⟨?_, fun values hbegins hrefusal r hr => ?_⟩
      · rintro rest ⟨values, hbegins, hrefusal⟩
        obtain ⟨garbage, hholds⟩ := exists_garbage received rest
        obtain ⟨n, -, hfields⟩ := unmarshallAll_of_begins hbegins hholds
        have hdecoded := (hall garbage).1
        rw [DecodedWithin, (procreq_some lib _ hdispatch).1,
          Handler.handle_accepted hfields hrefusal] at hdecoded
        obtain ⟨m, hm, hle⟩ | ⟨hm, -⟩ := hdecoded
        · cases hm
          obtain ⟨piece, hencoded, hpiece, rfl⟩ := unmarshallAll_eq_ok.mp hfields
          obtain ⟨rest', hreceived⟩ := hpiece.eq_append (holds_requestBuffer received garbage)
            (by rwa [Nat.zero_add] at hle)
          exact ⟨values, ⟨piece, rest', hreceived, hencoded⟩, hrefusal⟩
        · cases hm
      · have hholds := holds_requestBuffer received fun _ => 0
        obtain ⟨n, -, hfields⟩ := unmarshallAll_of_begins hbegins hholds
        refine (hall fun _ => 0).2 r ((procreq_some lib _ hdispatch).2.2.1 r ?_)
        rwa [Handler.handle_accepted hfields hrefusal]
    · rintro ⟨hcomplete, hfits⟩ garbage
      have hreceived := holds_requestBuffer received garbage
      obtain ⟨hdecoded, hrc, hmem, hall⟩ := procreq_some lib (requestBuffer received garbage)
        hdispatch
      obtain ⟨values, n, hfields, hrefusal, hhandle⟩ | ⟨text, hhandle, htext⟩ :=
        h.handle_cases lib (requestBuffer received garbage)
      · obtain ⟨rest, hbegins⟩ := begins_of_unmarshallAll hreceived hfields
        obtain ⟨values', hbegins', hrefusal'⟩ := hcomplete rest ⟨values, hbegins, hrefusal⟩
        obtain ⟨n', hn', hfields'⟩ := unmarshallAll_of_begins hbegins' hreceived
        cases hfields.symm.trans hfields'
        rw [hhandle] at hdecoded hall
        exact ⟨.inl ⟨n, hdecoded, hn'⟩, hall hbound (hfits values hbegins' hrefusal)⟩
      · rw [hhandle] at hdecoded hrc hmem hall
        refine ⟨.inr ⟨hdecoded, hrc, text, hmem _ (List.mem_singleton.mpr rfl)⟩, hall hbound ?_⟩
        rw [List.forall_mem_singleton]
        obtain ⟨name, rfl⟩ | ⟨values, hrefusal⟩ := htext
        · exact fits_rmc06 name
        · exact fits_refusal hdispatch hrefusal

end

section
variable {c : Client} {lib : Library}

theorem headerField_take (stream : List UInt8) {i : Nat} (hi : i ≤ 2) :
    headerField (stream.take 12) i = headerField stream i := by
  have hmin : min 4 (12 - 4 * i) = 4 := by omega
  rw [headerField, headerField, List.drop_take, List.take_take, hmin]

theorem natAbs_headerField (hdr : List UInt8) (i : Nat) :
    (headerField hdr i).natAbs < 10 ^ 10 := by
  refine natAbs_asInt ((valueOf_lt _).trans_le (Nat.pow_le_pow_right (by decide) ?_))
  rw [List.length_take]
  omega

theorem netreadTimeout_all {stream : List UInt8} {ending : Ending} {n : Nat}
    (h : n ≤ stream.length) : netreadTimeout stream ending n = ((n : Int), stream.take n) := by
  unfold netreadTimeout
  rw [if_neg (by omega), if_pos (by exact_mod_cast h), Int.toNat_natCast]

theorem netreadTimeout_short {stream : List UInt8} (ending : Ending) (h : stream.length < 12) :
    (netreadTimeout stream ending 12).1 ≠ 12 := by
  unfold netreadTimeout
  rw [if_neg (by decide), if_neg (by omega)]
  cases ending with
  | closed => exact (by decide : (0 : Int) ≠ 12)
  | silent => exact (by decide : (-1 : Int) ≠ 12)

theorem length_netreadTimeout_le (stream : List UInt8) (ending : Ending) (n : Int) :
    (netreadTimeout stream ending n).2.length ≤ stream.length := by
  unfold netreadTimeout
  split_ifs
  · exact Nat.zero_le _
  · exact List.length_take_le' _ _
  · cases ending with
    | closed => exact le_rfl
    | silent => exact le_rfl

structure Client.Handled (c : Client) : Prop where
  header : 12 ≤ c.stream.length
  length : c.lengthField ≤ RMC_REQBUFSZ
  peerKnown : c.peerKnown = true

def Client.received (c : Client) : List UInt8 :=
  (netreadTimeout (c.stream.drop 12) c.ending (Int.bmod (c.lengthField - 12) (2 ^ 32))).2

theorem rmcGetreq_of_handled (h : c.Handled) : rmcGetreq c = ⟨0, c.reqType, c.received⟩ := by
  have hread : netreadTimeout c.stream c.ending 12 = (12, c.stream.take 12) :=
    netreadTimeout_all h.header
  have hlength : ¬headerField c.stream 2 > RMC_REQBUFSZ := Int.not_lt.mpr h.length
  simp only [rmcGetreq, hread, headerField_take _ (Nat.le_refl 2), headerField_take _ one_le_two,
    if_neg hlength, h.peerKnown, if_true]
  rfl

theorem rmcGetreq_of_not_handled (h : ¬c.Handled) : (rmcGetreq c).rc = ERMCUNREC ∨
    (rmcGetreq c).rc = -1 := by
  by_cases hheader : 12 ≤ c.stream.length
  · have hread : netreadTimeout c.stream c.ending 12 = (12, c.stream.take 12) :=
      netreadTimeout_all hheader
    simp only [rmcGetreq, hread, headerField_take _ (Nat.le_refl 2), if_true]
    by_cases hlength : headerField c.stream 2 > RMC_REQBUFSZ
    · rw [if_pos hlength]
      exact .inr rfl
    · rw [if_neg hlength]
      cases hpeer : c.peerKnown with
      | true => exact absurd ⟨hheader, Int.not_lt.mp hlength, hpeer⟩ h
      | false => exact .inl rfl
  · have hread := netreadTimeout_short c.ending (Nat.not_le.mp hheader)
    simp only [rmcGetreq, if_neg hread]
    exact .inl trivial

theorem received_eq (h : 12 ≤ c.lengthField) (hall : c.lengthField ≤ c.stream.length)
    (hlength : c.lengthField ≤ RMC_REQBUFSZ) :
    c.received = c.body ∧ c.lengthField = 12 + c.received.length := by
  rw [RMC_REQBUFSZ] at hlength
  have hbmod : Int.bmod (c.lengthField - 12) (2 ^ 32) = ((c.lengthField - 12).toNat : Int) := by
    rw [Int.toNat_of_nonneg (by omega)]
    exact Int.bmod_eq_of_le (by omega) (by omega)
  have hreceived : c.received = c.body := by
    rw [Client.received, hbmod, netreadTimeout_all (by rw [List.length_drop]; omega)]
    rfl
  refine ⟨hreceived, ?_⟩
  rw [hreceived, Client.body, List.length_take, List.length_drop]
  omega

end

/-- A client is served properly, whatever the request buffer holds behind what was received, exactly
when its request is complete. -/
theorem proper_iff (c : Client) (lib : Library) :
    (∀ garbage, (rmcDoit c lib garbage).Proper c) ↔ c.Complete lib := by
  by_cases hhandled : c.Handled
  · have hrun : ∀ garbage, rmcDoit c lib garbage = ⟨⟨0, c.reqType, c.received⟩,
        some (rmcProcreq c.reqType lib (requestBuffer c.received garbage)),
        (rmcProcreq c.reqType lib (requestBuffer c.received garbage)).replies⟩ := fun garbage => by
      simp only [rmcDoit, rmcGetreq_of_handled hhandled, if_true]
    have hproper := procreq_proper_iff lib c.received (natAbs_headerField c.stream 1)
    constructor
    · intro hall
      have hlength := (hall fun _ => 0).complete
      rw [hrun] at hlength
      obtain ⟨hheader, -, hlengthField⟩ := hlength rfl
      have hreceived : c.lengthField = 12 + c.received.length := hlengthField
      have hle : c.received.length ≤ c.stream.length - 12 :=
        (length_netreadTimeout_le _ _ _).trans_eq List.length_drop
      have hstream := hhandled.header
      have harrived : c.lengthField ≤ c.stream.length := by
        rw [hreceived]
        omega
      obtain ⟨hbody, -⟩ := received_eq hheader harrived hhandled.length
      rw [Client.Complete, ← hbody]
      refine .inr (.inr (.inr ⟨hheader, harrived, hproper.mp fun garbage => ?_⟩))
      have hgarbage := hall garbage
      rw [hrun] at hgarbage
      exact ⟨hgarbage.decoded _ rfl, hgarbage.fits⟩
    · rintro (h | h | h | ⟨hheader, harrived, hcomplete⟩) garbage
      · exact absurd hhandled.header (Nat.not_le.mpr h)
      · exact absurd hhandled.length (Int.not_le.mpr h)
      · exact absurd (hhandled.peerKnown.symm.trans h) (by simp)
      · obtain ⟨hbody, hlength⟩ := received_eq hheader harrived hhandled.length
        rw [← hbody] at hcomplete
        obtain ⟨hdecoded, hfits⟩ := hproper.mpr hcomplete garbage
        rw [hrun]
        refine ⟨fun _ => ⟨hheader, hhandled.length, hlength⟩, ?_, hfits⟩
        rintro _ ⟨⟩
        exact hdecoded
  · have hrc : (rmcGetreq c).rc ≠ 0 := by
      cases rmcGetreq_of_not_handled hhandled with
      | inl h => exact h ▸ by decide
      | inr h => exact h ▸ by decide
    refine iff_of_true (fun garbage => ?_) ?_
    · simp only [rmcDoit, if_neg hrc]
      split
      · exact ⟨fun h => absurd h hrc, nofun, by simpa using fits_rmcRc _⟩
      · exact ⟨fun h => absurd h hrc, nofun, nofun⟩
    · by_cases hheader : 12 ≤ c.stream.length
      · by_cases hlength : c.lengthField ≤ RMC_REQBUFSZ
        · cases hpeer : c.peerKnown with
          | true => exact absurd ⟨hheader, hlength, hpeer⟩ hhandled
          | false => exact .inr (.inr (.inl hpeer))
        · exact .inr (.inl (Int.not_le.mp hlength))
      · exact .inl (Nat.not_le.mp hheader)

def emptyLibrary : Library where
  robotInfo := ⟨[], 0, 0, 0, 0, 0, 0, 0, 0, Nat.zero_le _⟩
  smcMount _ _ _ := ([], 0)
  smcDismount _ _ := ([], 0)
  smcExport _ := ([], 0)
  smcImport _ := ([], 0)
  smcFindCartridge _ _ _ _ := .ok []
  smcReadElemStatus _ _ _ := .ok []
  malloc _ := true

example : (rmcDoit
    { stream := [0x12, 0x0D, 3, 1, 0, 0, 0, 4, 0, 0, 0, 32, 0, 0, 3, 232, 0, 0, 3, 232, 0,
        86, 48, 48, 48, 48, 49, 0, 0, 0, 0, 2]
      ending := .silent
      peerKnown := true }
    { emptyLibrary with smcMount := fun drvord vid _ =>
        ([], if drvord = 2 ∧ vid = [86, 48, 48, 48, 48, 49] then 0 else 1) }
    fun _ => 0).replies = [.rmcRc 0] := by
  decide +kernel

/-- A client that closes its connection behind the header of a mount request of 32 bytes. -/
def headerOnly : Client where
  stream := [0x12, 0x0D, 3, 1, 0, 0, 0, 4, 0, 0, 0, 32]
  ending := .closed
  peerKnown := true

theorem not_proper_headerOnly :
    ¬∀ garbage, (rmcDoit headerOnly emptyLibrary garbage).Proper headerOnly := by
  intro hall
  have hlength := (hall fun _ => 0).complete
  have hrc : (rmcDoit headerOnly emptyLibrary fun _ => 0).getreq.rc = 0 := by decide +kernel
  have hdata : (rmcDoit headerOnly emptyLibrary fun _ => 0).getreq.reqData = [] := by
    decide +kernel
  obtain ⟨-, -, hreceived⟩ := hlength hrc
  rw [hdata] at hreceived
  exact absurd hreceived (by decide +kernel)

end Cta.MediaChanger.RmcServ

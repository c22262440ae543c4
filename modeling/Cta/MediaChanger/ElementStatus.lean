import Cta.MediaChanger.SmcDismount

/-! The element status reports of the library, and how they are decoded. -/
namespace Cta.MediaChanger.ElementStatus
open Cta.MediaChanger.RmcMarshal (CA_MAXVIDLEN)
open Cta.MediaChanger.RmcHandlers (SmcElementInfo)
open Cta.MediaChanger.SmcDismount (ScsiError)

/-- What a command returns, and what is then in its buffer. -/
structure ScsiReply where
  rc : Int
  serrno : Nat
  nb_sense_ret : Nat
  sense : Nat → UInt8
  buf : Nat → UInt8

def ScsiReply.paused (r : ScsiReply) : Bool :=
  r.rc = -4 && 14 ≤ r.nb_sense_ret && r.sense 12 = 0x04 && r.sense 13 = 0x85

def save_error (r : ScsiReply) : ScsiError :=
  if r.rc = -4 ∧ 14 ≤ r.nb_sense_ret then
    ⟨r.rc, r.serrno, r.nb_sense_ret, (r.sense 2 &&& 0xF).toNat, (r.sense 12).toNat,
      (r.sense 13).toNat⟩
  else ⟨r.rc, r.serrno, r.nb_sense_ret, 0, 0, 0⟩

/-- What is answered to the n-th command, a descriptor block with a buffer of some length. -/
abbrev Device := Nat → List UInt8 → Nat → ScsiReply

/-- A command is sent again while the library pauses. The value has the commands sent so far. -/
def send_in_pause_mode (device : Device) (cdb : List UInt8) (buflen : Nat) :
    Nat → Nat → ScsiReply × Nat
  | 0, sent => (device sent cdb buflen, sent + 1)
  | nretries + 1, sent =>
    if (device sent cdb buflen).paused then
      send_in_pause_mode device cdb buflen nretries (sent + 1)
    else (device sent cdb buflen, sent + 1)

def send (device : Device) (cdb : List UInt8) (buflen sent : Nat) :
    Except ScsiError (Nat → UInt8) × Nat :=
  let (reply, sent) := send_in_pause_mode device cdb buflen 900 sent
  (if reply.rc < 0 then .error (save_error reply) else .ok reply.buf, sent)

def get_element_size (device : Device) (type sent : Nat) : Except ScsiError Nat × Nat :=
  let cdb : List UInt8 := [0xB8, UInt8.ofNat (0x10 + type), 0, 0, 0, 1, 0, 0, 0, 128, 0, 0]
  match send device cdb 128 sent with
  | (.error e, sent) => (.error e, sent)
  | (.ok buf, sent) => (.ok ((buf 10).toNat * 256 + (buf 11).toNat), sent)

def largest (device : Device) : List Nat → Nat → Nat → Except ScsiError Nat × Nat
  | [], element_size, sent => (.ok element_size, sent)
  | type :: types, element_size, sent =>
    match get_element_size device type sent with
    | (.error e, sent) => (.error e, sent)
    | (.ok i, sent) => largest device types (max element_size i) sent

def element_size (device : Device) (type : Nat) : Except ScsiError Nat × Nat :=
  if type ≠ 0 then get_element_size device type 0 else largest device [1, 2, 3, 4] 0 0

def bufferLength (type nbelem element_size : Nat) : Nat :=
  nbelem * element_size + 8 + if type ≠ 0 ∨ nbelem = 1 then 8 else 32

def statusCommand (opcode : UInt8) (type start nbelem len : Nat) : List UInt8 :=
  [opcode, UInt8.ofNat (0x10 + type), UInt8.ofNat (start / 256), UInt8.ofNat start,
    UInt8.ofNat (nbelem / 256), UInt8.ofNat nbelem, 0, UInt8.ofNat (len / 65536),
    UInt8.ofNat (len / 256), UInt8.ofNat len, 0, 0]

/-- What must not happen: an `int` that overflows, a byte read behind the buffer, an entry written
behind the array, a name behind its array. -/
inductive Violation where
  | overflow
  | read (offset : Nat)
  | entry (i : Nat)
  | name (i : Nat)
  deriving DecidableEq, Repr

def Ends (c : UInt8) : Prop := c = 32 ∨ c = 0

instance : DecidablePred Ends := fun c => inferInstanceAs (Decidable (c = 32 ∨ c = 0))

section Buffer
variable (nbelem len : Nat) (data : Nat → UInt8)

def read (offset : Nat) : Except Violation Nat :=
  if offset < len then .ok (data offset).toNat else .error (.read offset)

def read2 (offset : Nat) : Except Violation Nat := do
  return (← read len data offset) * 256 + (← read len data (offset + 1))

def read3 (offset : Nat) : Except Violation Nat := do
  return ((← read len data offset) * 256 + (← read len data (offset + 1))) * 256 +
    (← read len data (offset + 2))

/-- The text from an offset up to the first blank or zero. -/
def scanTag (q : Nat) : Except Violation (List UInt8) :=
  if q < len then
    if Ends (data q) then .ok []
    else (scanTag (q + 1)).map (data q :: ·)
  else .error (.read q)
termination_by len - q

def readName (page p i : Nat) :
    Except Violation { name : List UInt8 // name.length ≤ CA_MAXVIDLEN } := do
  let pvoltag ← read len data (page + 1)
  if pvoltag &&& 0x80 = 0 then return ⟨[], Nat.zero_le _⟩
  let c ← read len data (p + 12)
  if c = 0 ∨ c = 32 then return ⟨[], Nat.zero_le _⟩
  let tag ← scanTag len data (p + 12)
  -- the text and its terminator are written before the name is cut
  if tag.length < 9 then return ⟨tag.take CA_MAXVIDLEN, List.length_take_le _ _⟩
  else throw (.name i)

def readElement (page p i : Nat) : Except Violation SmcElementInfo := do
  let element_address ← read2 len data p
  if nbelem ≤ i then throw (.entry i)
  let element_type ← read len data page
  let state ← read len data (p + 2)
  let asc ← read len data (p + 4)
  let ascq ← read len data (p + 5)
  let flags ← read len data (p + 9)
  let source_address ← read2 len data (p + 10)
  let name ← readName len data page p i
  return ⟨element_address, element_type, state, asc, ascq, flags, source_address, name.val,
    name.property⟩

/-- The variables of the loops, with the entries that were written. -/
structure Scan where
  p : Nat
  i : Nat
  nbReportBytesRemaining : Int
  nbElementsInReport : Nat
  element_info : List SmcElementInfo

def elements (avail_elem page edl page_end : Nat) (s : Scan) : Except Violation Scan :=
  if s.p < page_end ∧ s.i < avail_elem then
    match readElement nbelem len data page s.p s.i with
    | .error e => .error e
    | .ok info =>
      elements avail_elem page edl page_end
        ⟨s.p + edl, s.i + 1, s.nbReportBytesRemaining - edl, s.nbElementsInReport + 1,
          s.element_info ++ [info]⟩
  else .ok s
termination_by avail_elem - s.i

variable {nbelem len data} in
theorem elements_remaining {avail_elem page edl page_end : Nat} {s s' : Scan}
    (h : elements nbelem len data avail_elem page edl page_end s = .ok s') :
    s'.nbReportBytesRemaining ≤ s.nbReportBytesRemaining := by
  fun_induction elements nbelem len data avail_elem page edl page_end s with
  | case1 s hmore e hread => cases h
  | case2 s hmore info hread ih =>
    have := ih h
    simp only at this
    omega
  | case3 s hno =>
    obtain rfl := Except.ok.inj h
    exact le_refl _

def pages (avail_elem : Nat) (s : Scan) : Except Violation Scan :=
  if s.i < avail_elem ∧ 0 < s.nbReportBytesRemaining then
    match read2 len data (s.p + 2), read3 len data (s.p + 5) with
    | .error e, _ => .error e
    | .ok _, .error e => .error e
    | .ok edl, .ok length =>
      match _h : elements nbelem len data avail_elem s.p edl (min (s.p + 8 + length) len)
          { s with p := s.p + 8, nbReportBytesRemaining := s.nbReportBytesRemaining - 8 } with
      | .error e => .error e
      | .ok s' => pages avail_elem s'
  else .ok s
termination_by s.nbReportBytesRemaining.toNat
decreasing_by
  have := elements_remaining _h
  simp only at this
  omega

def Scan.start (nbReportBytesRemaining : Nat) : Scan := ⟨8, 0, nbReportBytesRemaining, 0, []⟩

structure Report where
  nbElementsInReport : Nat
  element_info : List SmcElementInfo

def decode : Except Violation Report := do
  let avail_elem ← read2 len data 2
  let nbReportBytesRemaining ← read3 len data 5
  let s ← pages nbelem len data avail_elem (.start nbReportBytesRemaining)
  return ⟨s.nbElementsInReport, s.element_info⟩

end Buffer

/-- The inner error is what `save_error` keeps when −1 is returned. -/
def get_element_info (device : Device) (opcode : UInt8) (type start nbelem : Nat) :
    Except Violation (Except ScsiError Report) :=
  match element_size device type with
  | (.error e, _) => .ok (.error e)
  | (.ok element_size, sent) =>
    let len := bufferLength type nbelem element_size
    if len < 2^31 then
      match (send device (statusCommand opcode type start nbelem len) len sent).1 with
      | .error e => .ok (.error e)
      | .ok data => (decode nbelem len data).map .ok
    else .error .overflow

def word (data : Nat → UInt8) (offset : Nat) : Nat :=
  (data offset).toNat * 256 + (data (offset + 1)).toNat

def word3 (data : Nat → UInt8) (offset : Nat) : Nat :=
  word data offset * 256 + (data (offset + 2)).toNat

def spaced (p edl page_end left : Nat) : List Nat :=
  ((List.range left).map fun k => p + k * edl).takeWhile (· < page_end)

/-- The elements of a page follow its header at the distance it tells, and start before the end of
the page and of the buffer; `left` are still announced. -/
def offsets (len : Nat) (data : Nat → UInt8) (p left : Nat) : List Nat :=
  spaced (p + 8) (word data (p + 2)) (min (p + 8 + word3 data (p + 5)) len) left

structure Page where
  start : Nat
  elements : List Nat

/-- The next page follows the last element, as long as elements and bytes are announced. -/
def layout (len : Nat) (data : Nat → UInt8) (p left : Nat) (remaining : Int) : List Page :=
  if 0 < left ∧ 0 < remaining then
    let elements := offsets len data p left
    let bytes := 8 + elements.length * word data (p + 2)
    ⟨p, elements⟩ :: layout len data (p + bytes) (left - elements.length) (remaining - bytes)
  else []
termination_by remaining.toNat
decreasing_by
  have : 8 ≤ bytes := Nat.le_add_right 8 _
  omega

def reportPages (len : Nat) (data : Nat → UInt8) : List Page :=
  layout len data 8 (word data 2) (word3 data 5)

def HasTag (data : Nat → UInt8) (page : Nat) : Prop := (data (page + 1)).toNat &&& 0x80 ≠ 0

instance (data : Nat → UInt8) (page : Nat) : Decidable (HasTag data page) :=
  inferInstanceAs (Decidable (_ ≠ _))

/-- An element of a page: the part that is read lies in the buffer, and its tag ends there too, with
at most eight characters. -/
structure ElementFits (len : Nat) (data : Nat → UInt8) (page p : Nat) : Prop where
  fixed : p + 12 ≤ len
  tag : HasTag data page → ∃ k < 9, p + 12 + k < len ∧ Ends (data (p + 12 + k))

structure PageFits (len : Nat) (data : Nat → UInt8) (page : Page) : Prop where
  header : page.start + 8 ≤ len
  elements : ∀ p ∈ page.elements, ElementFits len data page.start p

def nameOf (data : Nat → UInt8) (page p : Nat) : List UInt8 :=
  if HasTag data page then
    (((List.range 32).map fun k => data (p + 12 + k)).takeWhile (¬ Ends ·)).take CA_MAXVIDLEN
  else []

def pageNames (data : Nat → UInt8) (page : Page) : List (List UInt8) :=
  page.elements.map (nameOf data page.start)

def elementCount (pages : List Page) : Nat := (pages.map (·.elements.length)).sum

theorem bind_eq_ok {α β : Type} {x : Except Violation α} {f : α → Except Violation β} {b : β} :
    (x >>= f) = .ok b ↔ ∃ a, x = .ok a ∧ f a = .ok b := by
  cases x with
  | error e => simp [bind, Except.bind]
  | ok a => simp [bind, Except.bind]

section Buffer
variable {nbelem len : Nat} {data : Nat → UInt8}

theorem read_ok {offset : Nat} (h : offset < len) :
    read len data offset = .ok (data offset).toNat := if_pos h

theorem read_inv {offset v : Nat} (h : read len data offset = .ok v) : offset < len := by
  by_contra hnot
  rw [read, if_neg hnot] at h
  cases h

theorem read2_ok {offset : Nat} (h : offset + 1 < len) :
    read2 len data offset = .ok (word data offset) := by
  rw [read2, read_ok (by omega), read_ok h]
  rfl

theorem read2_inv {offset v : Nat} (h : read2 len data offset = .ok v) : offset + 1 < len := by
  obtain ⟨_, -, h⟩ := bind_eq_ok.mp h
  obtain ⟨_, hread, -⟩ := bind_eq_ok.mp h
  exact read_inv hread

theorem read3_ok {offset : Nat} (h : offset + 2 < len) :
    read3 len data offset = .ok (word3 data offset) := by
  rw [read3, read_ok (by omega), read_ok (by omega), read_ok h]
  rfl

theorem read3_inv {offset v : Nat} (h : read3 len data offset = .ok v) : offset + 2 < len := by
  obtain ⟨_, -, h⟩ := bind_eq_ok.mp h
  obtain ⟨_, -, h⟩ := bind_eq_ok.mp h
  obtain ⟨_, hread, -⟩ := bind_eq_ok.mp h
  exact read_inv hread

theorem scanTag_ok {q k : Nat} (hk : q + k < len) (hend : Ends (data (q + k)))
    (hbefore : ∀ j < k, ¬ Ends (data (q + j))) :
    scanTag len data q = .ok ((List.range k).map fun j => data (q + j)) := by
  induction k generalizing q with
  | zero =>
    rw [scanTag, if_pos (by omega), if_pos (by simpa using hend)]
    rfl
  | succ k ih =>
    have hfirst : ¬ Ends (data q) := hbefore 0 (by omega)
    have hshift (j : Nat) : q + 1 + j = q + (j + 1) := by omega
    have hrest := ih (q := q + 1) (by omega) (by rwa [hshift]) fun j hj => by
      rw [hshift]
      exact hbefore (j + 1) (by omega)
    rw [scanTag, if_pos (by omega), if_neg hfirst, hrest]
    simp only [Except.map, List.range_succ_eq_map, List.map_cons, List.map_map, hshift,
      Nat.add_zero]
    rfl

theorem scanTag_inv {q : Nat} {tag : List UInt8} (h : scanTag len data q = .ok tag) :
    q + tag.length < len ∧ Ends (data (q + tag.length)) := by
  fun_induction scanTag len data q generalizing tag with
  | case1 q hq hend =>
    obtain rfl := Except.ok.inj h
    exact ⟨hq, hend⟩
  | case2 q hq hend ih =>
    cases hrest : scanTag len data (q + 1) with
    | error e =>
      rw [hrest] at h
      cases h
    | ok rest =>
      rw [hrest] at h
      obtain rfl := Except.ok.inj h
      have hshift : q + 1 + rest.length = q + (rest.length + 1) := by omega
      simpa [hshift] using ih hrest
  | case3 q hq => cases h

theorem takeWhile_range (f : Nat → UInt8) {k n : Nat} (hk : k < n) (hend : Ends (f k))
    (hbefore : ∀ j < k, ¬ Ends (f j)) :
    (((List.range n).map f).takeWhile (¬ Ends ·)) = (List.range k).map f := by
  obtain ⟨m, rfl⟩ : ∃ m, n = k + (m + 1) := ⟨n - k - 1, by omega⟩
  rw [List.range_add, List.map_append, List.range_succ_eq_map, List.map_cons, List.map_cons]
  rw [List.takeWhile_append_of_pos, List.takeWhile_cons_of_neg, List.append_nil]
  · simpa using hend
  · intro c hc
    obtain ⟨j, hj, rfl⟩ := List.mem_map.mp hc
    simpa using hbefore j (List.mem_range.mp hj)

theorem toNat_ends (c : UInt8) : c.toNat = 0 ∨ c.toNat = 32 ↔ Ends c := by
  rw [Ends, or_comm, ← UInt8.toNat_inj, ← UInt8.toNat_inj]
  rfl

theorem readName_ok {page p i : Nat} (hpage : page + 8 ≤ len) (h : ElementFits len data page p) :
    ∃ name, readName len data page p i = .ok name ∧ name.val = nameOf data page p := by
  unfold readName
  rw [read_ok (by omega)]
  by_cases htag : HasTag data page
  · obtain ⟨k, hk, hin, hend⟩ := h.tag htag
    -- the first character that ends the tag
    have hex : ∃ k, Ends (data (p + 12 + k)) := ⟨k, hend⟩
    have hle : Nat.find hex ≤ k := Nat.find_le hend
    have hbefore : ∀ j < Nat.find hex, ¬ Ends (data (p + 12 + j)) := fun j hj =>
      Nat.find_min hex hj
    have hlast : p + 12 + Nat.find hex < len := by omega
    have hscan := scanTag_ok hlast (Nat.find_spec hex) hbefore
    have hname : nameOf data page p =
        ((List.range (Nat.find hex)).map fun j => data (p + 12 + j)).take CA_MAXVIDLEN := by
      rw [nameOf, if_pos htag, takeWhile_range (fun k => data (p + 12 + k)) (by omega)
        (Nat.find_spec hex) hbefore]
    have hnot : ¬ (data (page + 1)).toNat &&& 0x80 = 0 := htag
    simp only [bind, Except.bind, if_neg hnot, read_ok (show p + 12 < len by omega), hscan, hname,
      toNat_ends, List.length_map, List.length_range, if_pos (show Nat.find hex < 9 by omega)]
    by_cases hfirst : Ends (data (p + 12))
    · have hzero : Nat.find hex = 0 := (Nat.find_eq_zero hex).mpr hfirst
      simp [hzero, pure, Except.pure]
    · simp [if_neg hfirst, pure, Except.pure]
  · have hnot : (data (page + 1)).toNat &&& 0x80 = 0 := not_not.mp htag
    exact ⟨⟨[], Nat.zero_le _⟩, by simp [bind, Except.bind, hnot, pure, Except.pure],
      (if_neg htag).symm⟩

theorem readName_inv {page p i : Nat} {name : { name : List UInt8 // name.length ≤ CA_MAXVIDLEN }}
    (h : readName len data page p i = .ok name) (htag : HasTag data page) :
    ∃ k < 9, p + 12 + k < len ∧ Ends (data (p + 12 + k)) := by
  unfold readName at h
  obtain ⟨pvoltag, hread, h⟩ := bind_eq_ok.mp h
  rw [read_ok (read_inv hread)] at hread
  obtain rfl := Except.ok.inj hread
  rw [if_neg htag] at h
  obtain ⟨c, hread, h⟩ := bind_eq_ok.mp h
  have hin := read_inv hread
  rw [read_ok hin] at hread
  obtain rfl := Except.ok.inj hread
  by_cases hfirst : Ends (data (p + 12))
  · exact ⟨0, by omega, hin, hfirst⟩
  · rw [if_neg (mt (toNat_ends _).mp hfirst)] at h
    obtain ⟨tag, hscan, h⟩ := bind_eq_ok.mp h
    obtain ⟨hlast, hend⟩ := scanTag_inv hscan
    by_cases hlen : tag.length < 9
    · exact ⟨tag.length, hlen, hlast, hend⟩
    · rw [if_neg hlen] at h
      cases h

theorem readElement_ok {page p i : Nat} (hpage : page + 8 ≤ len) (hi : i < nbelem)
    (h : ElementFits len data page p) :
    ∃ info, readElement nbelem len data page p i = .ok info ∧ info.name = nameOf data page p := by
  have hfixed := h.fixed
  obtain ⟨name, hname, heq⟩ := readName_ok (i := i) hpage h
  refine ⟨⟨word data p, (data page).toNat, (data (p + 2)).toNat, (data (p + 4)).toNat,
    (data (p + 5)).toNat, (data (p + 9)).toNat, word data (p + 10), name.val, name.property⟩, ?_,
    heq⟩
  simp only [readElement, bind, Except.bind, read2_ok (show p + 1 < len by omega),
    if_neg (Nat.not_le.mpr hi), read_ok (show page < len by omega),
    read_ok (show p + 2 < len by omega), read_ok (show p + 4 < len by omega),
    read_ok (show p + 5 < len by omega), read_ok (show p + 9 < len by omega),
    read2_ok (show p + 10 + 1 < len by omega), hname]
  rfl

theorem readElement_inv {page p i : Nat} {info : SmcElementInfo}
    (h : readElement nbelem len data page p i = .ok info) :
    i < nbelem ∧ ElementFits len data page p := by
  unfold readElement at h
  obtain ⟨_, -, h⟩ := bind_eq_ok.mp h
  by_cases hi : nbelem ≤ i
  · rw [if_pos hi] at h
    cases h
  · rw [if_neg hi] at h
    obtain ⟨_, -, h⟩ := bind_eq_ok.mp h
    obtain ⟨_, -, h⟩ := bind_eq_ok.mp h
    obtain ⟨_, -, h⟩ := bind_eq_ok.mp h
    obtain ⟨_, -, h⟩ := bind_eq_ok.mp h
    obtain ⟨_, -, h⟩ := bind_eq_ok.mp h
    obtain ⟨_, hlast, h⟩ := bind_eq_ok.mp h
    obtain ⟨_, hname, -⟩ := bind_eq_ok.mp h
    have hfixed := read2_inv hlast
    exact ⟨Nat.lt_of_not_le hi, by omega, readName_inv hname⟩

theorem spaced_succ (p edl page_end left : Nat) :
    spaced p edl page_end (left + 1) =
      if p < page_end then p :: spaced (p + edl) edl page_end left else [] := by
  have hshift : (fun k => p + k * edl) ∘ Nat.succ = fun k => p + edl + k * edl := by
    funext k
    simp only [Function.comp, Nat.succ_mul]
    omega
  rw [spaced, List.range_succ_eq_map, List.map_cons, List.map_map, hshift]
  by_cases hp : p < page_end
  · rw [if_pos hp, List.takeWhile_cons_of_pos (by simpa using hp), Nat.zero_mul]
    rfl
  · rw [if_neg hp, List.takeWhile_cons_of_neg (by simpa using hp)]

structure Advanced (data : Nat → UInt8) (page edl : Nat) (os : List Nat) (s s' : Scan) : Prop where
  p : s'.p = s.p + os.length * edl
  i : s'.i = s.i + os.length
  remaining : s'.nbReportBytesRemaining = s.nbReportBytesRemaining - (os.length * edl : Nat)
  count : s'.nbElementsInReport = s.nbElementsInReport + os.length
  names : s'.element_info.map (·.name) =
    s.element_info.map (·.name) ++ os.map (nameOf data page)

variable {avail_elem page edl page_end : Nat} {s s' : Scan}

theorem elements_ok (hpage : page + 8 ≤ len)
    (hfits : ∀ p ∈ spaced s.p edl page_end (avail_elem - s.i), ElementFits len data page p)
    (hroom : s.i + (spaced s.p edl page_end (avail_elem - s.i)).length ≤ nbelem) :
    ∃ s', elements nbelem len data avail_elem page edl page_end s = .ok s' ∧
      Advanced data page edl (spaced s.p edl page_end (avail_elem - s.i)) s s' := by
  induction hn : avail_elem - s.i generalizing s with
  | zero =>
    rw [elements, if_neg (by omega)]
    exact ⟨s, rfl, by simp [spaced], by simp [spaced], by simp [spaced], by simp [spaced],
      by simp [spaced]⟩
  | succ n ih =>
    rw [hn, spaced_succ] at hfits hroom
    rw [spaced_succ, elements]
    by_cases hp : s.p < page_end
    · rw [if_pos hp] at hfits hroom ⊢
      rw [if_pos ⟨hp, by omega⟩]
      rw [List.length_cons] at hroom
      have hentry : s.i < nbelem := by omega
      obtain ⟨info, hread, hname⟩ := readElement_ok hpage hentry (hfits s.p List.mem_cons_self)
      rw [hread]
      have hleft : avail_elem - (s.i + 1) = n := by omega
      obtain ⟨s', hrun, hp', hi', hremaining, hcount, hnames⟩ := ih (s := ⟨s.p + edl, s.i + 1,
        s.nbReportBytesRemaining - edl, s.nbElementsInReport + 1, s.element_info ++ [info]⟩)
        (fun p hmem => hfits p (List.mem_cons_of_mem _ (by simpa only [hleft] using hmem)))
        (by simp only [hleft]; omega) hleft
      simp only at hp' hi' hremaining hcount hnames
      refine ⟨s', hrun, ?_, ?_, ?_, ?_, ?_⟩
      · rw [hp', List.length_cons, Nat.succ_mul]
        omega
      · rw [hi', List.length_cons]
        omega
      · rw [hremaining, List.length_cons, Nat.succ_mul]
        push_cast
        omega
      · rw [hcount, List.length_cons]
        omega
      · rw [hnames]
        simp [hname]
    · rw [if_neg hp, if_neg (fun h => hp h.1)]
      exact ⟨s, rfl, by simp, by simp, by simp, by simp, by simp⟩

theorem elements_inv (hi : s.i ≤ nbelem)
    (h : elements nbelem len data avail_elem page edl page_end s = .ok s') :
    (∀ p ∈ spaced s.p edl page_end (avail_elem - s.i), ElementFits len data page p) ∧
      s.i + (spaced s.p edl page_end (avail_elem - s.i)).length ≤ nbelem := by
  induction hn : avail_elem - s.i generalizing s with
  | zero => simpa [spaced] using hi
  | succ n ih =>
    rw [spaced_succ]
    by_cases hp : s.p < page_end
    · rw [elements, if_pos ⟨hp, by omega⟩] at h
      cases hread : readElement nbelem len data page s.p s.i with
      | error e =>
        rw [hread] at h
        cases h
      | ok info =>
        rw [hread] at h
        obtain ⟨hroom, hfirst⟩ := readElement_inv hread
        have hleft : avail_elem - (s.i + 1) = n := by omega
        obtain ⟨hrest, hlen⟩ := ih (by simpa using hroom) h hleft
        rw [if_pos hp, List.length_cons]
        refine ⟨fun p hmem => ?_, by simp only at hlen; omega⟩
        rcases List.mem_cons.mp hmem with rfl | hmem
        · exact hfirst
        · exact hrest p hmem
    · rw [if_neg hp]
      simpa using hi

structure Collected (data : Nat → UInt8) (os : List Page) (s s' : Scan) : Prop where
  count : s'.nbElementsInReport = s.nbElementsInReport + elementCount os
  names : s'.element_info.map (·.name) =
    s.element_info.map (·.name) ++ os.flatMap (pageNames data)

theorem elementCount_cons (page : Page) (os : List Page) :
    elementCount (page :: os) = page.elements.length + elementCount os := rfl

def Scan.pagesLeft (s : Scan) (len : Nat) (data : Nat → UInt8) (avail_elem : Nat) : List Page :=
  layout len data s.p (avail_elem - s.i) s.nbReportBytesRemaining

def Scan.enter (s : Scan) : Scan :=
  { s with p := s.p + 8, nbReportBytesRemaining := s.nbReportBytesRemaining - 8 }

def Scan.nextPage (s : Scan) (nbelem len : Nat) (data : Nat → UInt8) (avail_elem : Nat) :
    Except Violation Scan :=
  elements nbelem len data avail_elem s.p (word data (s.p + 2))
    (min (s.p + 8 + word3 data (s.p + 5)) len) s.enter

theorem pages_next {t : Scan} (hmore : s.i < avail_elem ∧ 0 < s.nbReportBytesRemaining)
    (hheader : s.p + 8 ≤ len) (hrun : s.nextPage nbelem len data avail_elem = .ok t) :
    pages nbelem len data avail_elem s = pages nbelem len data avail_elem t := by
  rw [pages, if_pos hmore, read2_ok (by omega), read3_ok (by omega)]
  simp only
  split
  · next e herror => exact absurd (hrun.symm.trans herror) (by simp)
  · next t' ht => rw [Except.ok.inj (hrun.symm.trans ht)]

theorem pages_cases (hmore : s.i < avail_elem ∧ 0 < s.nbReportBytesRemaining)
    (h : pages nbelem len data avail_elem s = .ok s') :
    s.p + 8 ≤ len ∧ ∃ t, s.nextPage nbelem len data avail_elem = .ok t ∧
      pages nbelem len data avail_elem t = .ok s' := by
  rw [pages, if_pos hmore] at h
  cases hedl : read2 len data (s.p + 2) with
  | error e => simp [hedl] at h
  | ok edl =>
    cases hlength : read3 len data (s.p + 5) with
    | error e => simp [hedl, hlength] at h
    | ok length =>
      have hheader := read3_inv hlength
      rw [read2_ok (by omega)] at hedl
      rw [read3_ok hheader] at hlength
      obtain rfl := Except.ok.inj hedl
      obtain rfl := Except.ok.inj hlength
      rw [read2_ok (by omega), read3_ok hheader] at h
      simp only at h
      split at h
      · cases h
      · next t ht => exact ⟨by omega, t, ht, h⟩

theorem layout_next (hmore : s.i < avail_elem ∧ 0 < s.nbReportBytesRemaining) :
    s.pagesLeft len data avail_elem =
      ⟨s.p, offsets len data s.p (avail_elem - s.i)⟩ ::
        layout len data (s.p + (8 + (offsets len data s.p (avail_elem - s.i)).length *
            word data (s.p + 2)))
          (avail_elem - s.i - (offsets len data s.p (avail_elem - s.i)).length)
          (s.nbReportBytesRemaining - (8 + (offsets len data s.p (avail_elem - s.i)).length *
            word data (s.p + 2) : Nat)) := by
  rw [Scan.pagesLeft, layout, if_pos ⟨by omega, hmore.2⟩]

theorem pagesLeft_nil (hno : ¬ (s.i < avail_elem ∧ 0 < s.nbReportBytesRemaining)) :
    s.pagesLeft len data avail_elem = [] := by
  rw [Scan.pagesLeft, layout, if_neg (by omega)]

theorem Advanced.pagesLeft {t : Scan}
    (hmore : s.i < avail_elem ∧ 0 < s.nbReportBytesRemaining)
    (h : Advanced data s.p (word data (s.p + 2)) (offsets len data s.p (avail_elem - s.i)) s.enter
      t) :
    s.pagesLeft len data avail_elem =
      ⟨s.p, offsets len data s.p (avail_elem - s.i)⟩ :: t.pagesLeft len data avail_elem := by
  obtain ⟨hp, hi, hremaining, -, -⟩ := h
  simp only [Scan.enter] at hp hi hremaining
  rw [layout_next hmore, Scan.pagesLeft, hp, hi, hremaining]
  congr 2
  · omega
  · omega
  · push_cast
    omega

theorem nextPage_ok (hpage : PageFits len data ⟨s.p, offsets len data s.p (avail_elem - s.i)⟩)
    (hroom : s.i + (offsets len data s.p (avail_elem - s.i)).length ≤ nbelem) :
    ∃ t, s.nextPage nbelem len data avail_elem = .ok t ∧
      Advanced data s.p (word data (s.p + 2)) (offsets len data s.p (avail_elem - s.i)) s.enter t :=
  elements_ok (s := s.enter) hpage.header hpage.elements hroom

theorem nextPage_inv {t : Scan} (hheader : s.p + 8 ≤ len) (hi : s.i ≤ nbelem)
    (h : s.nextPage nbelem len data avail_elem = .ok t) :
    PageFits len data ⟨s.p, offsets len data s.p (avail_elem - s.i)⟩ ∧
      s.i + (offsets len data s.p (avail_elem - s.i)).length ≤ nbelem := by
  obtain ⟨helements, hroom⟩ := elements_inv (s := s.enter) hi h
  exact ⟨⟨hheader, helements⟩, hroom⟩

theorem pages_ok
    (hfits : ∀ page ∈ s.pagesLeft len data avail_elem, PageFits len data page)
    (hroom : s.i + elementCount (s.pagesLeft len data avail_elem) ≤ nbelem) :
    ∃ s', pages nbelem len data avail_elem s = .ok s' ∧
      Collected data (s.pagesLeft len data avail_elem) s s' := by
  induction hn : s.nbReportBytesRemaining.toNat using Nat.strong_induction_on generalizing s with
  | _ n ih =>
    by_cases hmore : s.i < avail_elem ∧ 0 < s.nbReportBytesRemaining
    · have hpage := hfits _ (by rw [layout_next hmore]; exact List.mem_cons_self)
      have hpageRoom := hroom
      rw [layout_next hmore, elementCount_cons, ← Nat.add_assoc] at hpageRoom
      obtain ⟨t, hrun, hadv⟩ := nextPage_ok hpage (Nat.le_of_add_right_le hpageRoom)
      rw [hadv.pagesLeft hmore] at hfits hroom ⊢
      rw [pages_next hmore hpage.header hrun]
      rw [elementCount_cons] at hroom
      have hi' := hadv.i
      have hremaining := hadv.remaining
      simp only [Scan.enter] at hi' hroom hremaining
      obtain ⟨s', hpages, hcollected⟩ := ih t.nbReportBytesRemaining.toNat (by omega)
        (fun page hmem => hfits page (List.mem_cons_of_mem _ hmem)) (by omega) rfl
      refine ⟨s', hpages, ?_, ?_⟩
      · rw [hcollected.count, hadv.count, elementCount_cons, Nat.add_assoc]
        rfl
      · rw [hcollected.names, hadv.names, List.flatMap_cons, List.append_assoc]
        rfl
    · rw [pages, if_neg hmore, pagesLeft_nil hmore]
      exact ⟨s, rfl, by simp [elementCount], by simp⟩

theorem pages_inv (hi : s.i ≤ nbelem) (h : pages nbelem len data avail_elem s = .ok s') :
    (∀ page ∈ s.pagesLeft len data avail_elem, PageFits len data page) ∧
      s.i + elementCount (s.pagesLeft len data avail_elem) ≤ nbelem := by
  induction hn : s.nbReportBytesRemaining.toNat using Nat.strong_induction_on generalizing s with
  | _ n ih =>
    by_cases hmore : s.i < avail_elem ∧ 0 < s.nbReportBytesRemaining
    · obtain ⟨hheader, t, hrun, hpages⟩ := pages_cases hmore h
      obtain ⟨hpage, hlen⟩ := nextPage_inv hheader hi hrun
      obtain ⟨t', hrun', hadv⟩ := nextPage_ok hpage hlen
      obtain rfl := Except.ok.inj (hrun.symm.trans hrun')
      have hleft : s.pagesLeft len data avail_elem = _ :: t.pagesLeft len data avail_elem :=
        hadv.pagesLeft hmore
      have hi' := hadv.i
      have hremaining := hadv.remaining
      simp only [Scan.enter] at hi' hremaining
      obtain ⟨hrest, hroom⟩ := ih t.nbReportBytesRemaining.toNat (by omega) (by omega) hpages rfl
      rw [hleft, elementCount_cons]
      refine ⟨fun page hmem => ?_, by simp only; omega⟩
      rcases List.mem_cons.mp hmem with rfl | hmem
      · exact hpage
      · exact hrest page hmem
    · rw [pagesLeft_nil hmore]
      exact ⟨by simp, by simpa [elementCount] using hi⟩

/-- All that is read lies in the buffer, and there is an entry for every element. -/
structure Fits (nbelem len : Nat) (data : Nat → UInt8) : Prop where
  pages : ∀ page ∈ reportPages len data, PageFits len data page
  room : elementCount (reportPages len data) ≤ nbelem

structure Decoded (nbelem len : Nat) (data : Nat → UInt8) (report : Report) : Prop where
  count : report.nbElementsInReport = report.element_info.length
  room : report.element_info.length ≤ nbelem
  names : report.element_info.map (·.name) = (reportPages len data).flatMap (pageNames data)

theorem decode_ok (hlen : 8 ≤ len) (h : Fits nbelem len data) :
    ∃ report, decode nbelem len data = .ok report ∧ Decoded nbelem len data report := by
  have hleft : (Scan.start (word3 data 5)).pagesLeft len data (word data 2) =
      reportPages len data := rfl
  have hfits : ∀ page ∈ (Scan.start (word3 data 5)).pagesLeft len data (word data 2),
      PageFits len data page := h.pages
  obtain ⟨s, hrun, hcount, hnames⟩ := pages_ok hfits ((Nat.zero_add _).trans_le h.room)
  rw [hleft] at hcount hnames
  have hlength : s.element_info.length = elementCount (reportPages len data) := by
    simpa [elementCount, pageNames, Scan.start] using congrArg List.length hnames
  refine ⟨⟨s.nbElementsInReport, s.element_info⟩, ?_, ?_, ?_, hnames⟩
  · rw [decode, read2_ok (by omega), read3_ok (by omega)]
    simp [bind, Except.bind, hrun, pure, Except.pure]
  · rw [hcount, hlength]
    exact Nat.zero_add _
  · rw [hlength]
    exact h.room

theorem decode_inv (hlen : 8 ≤ len) {report : Report} (h : decode nbelem len data = .ok report) :
    Fits nbelem len data := by
  rw [decode, read2_ok (by omega), read3_ok (by omega)] at h
  obtain ⟨_, havail, h⟩ := bind_eq_ok.mp h
  obtain rfl := Except.ok.inj havail
  obtain ⟨_, hremaining, h⟩ := bind_eq_ok.mp h
  obtain rfl := Except.ok.inj hremaining
  obtain ⟨s, hrun, -⟩ := bind_eq_ok.mp h
  obtain ⟨hpages, hroom⟩ := pages_inv (Nat.zero_le nbelem) hrun
  exact ⟨hpages, (Nat.zero_add _).symm.trans_le hroom⟩

end Buffer

/-- The report arrived in a buffer of this length. -/
def Received (device : Device) (opcode : UInt8) (type start nbelem len : Nat)
    (data : Nat → UInt8) : Prop :=
  ∃ size sent, element_size device type = (.ok size, sent) ∧ len = bufferLength type nbelem size ∧
    (send device (statusCommand opcode type start nbelem len) len sent).1 = .ok data

/-- Nothing is read or written that must not be, and the entries are those of the report. -/
def Right (device : Device) (opcode : UInt8) (type start nbelem : Nat) : Prop :=
  ∃ result, get_element_info device opcode type start nbelem = .ok result ∧
    ∀ report, result = .ok report → ∃ len data,
      Received device opcode type start nbelem len data ∧ Decoded nbelem len data report

theorem le_bufferLength (type nbelem size : Nat) : 8 ≤ bufferLength type nbelem size := by
  unfold bufferLength
  omega

def AnswersFit (device : Device) (opcode : UInt8) (type start nbelem : Nat) : Prop :=
  (∀ size sent, element_size device type = (.ok size, sent) →
    bufferLength type nbelem size < 2^31) ∧
  ∀ len data, Received device opcode type start nbelem len data → Fits nbelem len data

theorem answersFit_of_right {device : Device} {opcode : UInt8} {type start nbelem : Nat}
    (h : Right device opcode type start nbelem) : AnswersFit device opcode type start nbelem := by
  obtain ⟨result, hrun, -⟩ := h
  unfold get_element_info at hrun
  have hlen (size sent : Nat) (hsize : element_size device type = (.ok size, sent)) :
      bufferLength type nbelem size < 2^31 := by
    by_contra hnot
    rw [hsize] at hrun
    simp only [if_neg hnot] at hrun
    cases hrun
  refine ⟨hlen, ?_⟩
  rintro len data ⟨size, sent, hsize, rfl, hsend⟩
  rw [hsize] at hrun
  simp only [if_pos (hlen size sent hsize), hsend] at hrun
  cases hdecode : decode nbelem (bufferLength type nbelem size) data with
  | error e => simp [hdecode, Except.map] at hrun
  | ok report => exact decode_inv (le_bufferLength _ _ _) hdecode

/-- The report is decoded without harm exactly when the buffer's length is an `int`, every header
and element that the lengths of the report lead to lies in the buffer, every volume tag ends there
within nine characters, and there are no more elements than entries. -/
theorem get_element_info_right_iff (device : Device) (opcode : UInt8) (type start nbelem : Nat) :
    Right device opcode type start nbelem ↔ AnswersFit device opcode type start nbelem := by
  refine ⟨answersFit_of_right, fun ⟨hlen, hfits⟩ => ?_⟩
  unfold Right get_element_info
  rcases hsize : element_size device type with ⟨size, sent⟩
  cases size with
  | error e => exact ⟨_, rfl, by simp⟩
  | ok size =>
    simp only [if_pos (hlen size sent hsize)]
    cases hsend : (send device (statusCommand opcode type start nbelem
        (bufferLength type nbelem size)) (bufferLength type nbelem size) sent).1 with
    | error e => exact ⟨_, rfl, by simp⟩
    | ok data =>
      have hreceived : Received device opcode type start nbelem _ data :=
        ⟨size, sent, hsize, rfl, hsend⟩
      obtain ⟨report, hdecode, hdecoded⟩ :=
        decode_ok (le_bufferLength type nbelem size) (hfits _ _ hreceived)
      refine ⟨.ok report, by simp [hdecode, Except.map], fun report' heq => ?_⟩
      obtain rfl := Except.ok.inj heq
      exact ⟨_, data, hreceived, hdecoded⟩

def longTag (k : Nat) : UInt8 :=
  if k = 3 then 1
  else if k = 7 then 60
  else if k = 8 then 2
  else if k = 9 then 0x80
  else if k = 11 ∨ k = 15 then 52
  else if 28 ≤ k ∧ k < 37 then 65
  else if 37 ≤ k ∧ k < 60 then 32
  else 0

def longTagDevice : Device := fun _ _ _ => ⟨0, 0, 0, fun _ => 0, longTag⟩

/-- Nine characters and their terminator do not fit an array of nine. -/
theorem long_tag_overflows : ¬ Right longTagDevice 0xB8 2 0 1 := by
  intro h
  have hreceived : Received longTagDevice 0xB8 2 0 1 68 longTag := ⟨52, 1, rfl, rfl, rfl⟩
  have hfits := (answersFit_of_right h).2 68 longTag hreceived
  have hpage : ⟨8, offsets 68 longTag 8 1⟩ ∈ reportPages 68 longTag := by
    have havail : word longTag 2 = 1 := rfl
    have hremaining : word3 longTag 5 = 60 := rfl
    rw [reportPages, havail, hremaining, layout, if_pos (by decide)]
    exact List.mem_cons_self
  have helement := (hfits.pages _ hpage).elements 16 (by decide)
  obtain ⟨k, hk, -, hend⟩ := helement.tag (by decide)
  have hnone : ∀ k < 9, ¬ Ends (longTag (16 + 12 + k)) := by decide
  exact hnone k hk hend

end Cta.MediaChanger.ElementStatus

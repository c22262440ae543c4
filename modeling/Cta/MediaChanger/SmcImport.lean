import Cta.MediaChanger.SmcDismount

/-! The import of cartridges from the ports of the library into its slots. -/
namespace Cta.MediaChanger.SmcImport
open Cta.MediaChanger.RmcHandlers (SmcElementInfo RobotInfo)
open Cta.MediaChanger.SmcDismount (ScsiError smc_lasterror RBT_NORETRY)

def full (e : SmcElementInfo) : Prop := e.state &&& 1 ≠ 0

instance : DecidablePred full := fun e => inferInstanceAs (Decidable (e.state &&& 1 ≠ 0))

def fill (e : SmcElementInfo) : SmcElementInfo := { e with state := e.state ||| 1 }

inductive Message where
  | cannotAllocate
  | readElemStatus (e : ScsiError)
  | cellsFull
  | importFailed (name : List UInt8) (e : ScsiError)

/-- The places of the inventory between which a cartridge was moved. -/
structure Move where
  source : Nat
  dest : Nat
  deriving DecidableEq, Repr

structure Outcome where
  moved : List Move
  rc : Nat
  message : Option Message

/-- The entry with this index was not filled by the inventory, and it is read or written. -/
structure NotFilled where
  index : Nat
  deriving DecidableEq, Repr

/-- The first element of a type; the number of elements without one. -/
def startOf (element_info : List SmcElementInfo) (type : Nat) : Nat :=
  element_info.findIdx fun e => e.elementType = type

/-- The loop for the home slot, which ends behind the slots without a match. -/
def findHome (element_info : List SmcElementInfo) (source_address slot_end : Nat) :
    List Nat → Except NotFilled Nat
  | [] => .ok slot_end
  | j :: slots =>
    match element_info[j]? with
    | none => .error ⟨j⟩
    | some e =>
      if source_address = e.elementAddress then .ok j
      else findHome element_info source_address slot_end slots

/-- The home slots of the cartridges in the drives get the bit of a full element. -/
def markHomes (slots : List Nat) (slot_end : Nat) :
    List Nat → List SmcElementInfo → Except NotFilled (List SmcElementInfo)
  | [], element_info => .ok element_info
  | i :: drives, element_info =>
    match element_info[i]? with
    | none => .error ⟨i⟩
    | some e =>
      if full e then
        match findHome element_info e.sourceAddress slot_end slots with
        | .error err => .error err
        | .ok j =>
          if j < element_info.length then
            markHomes slots slot_end drives (element_info.modify j fill)
          else .error ⟨j⟩
      else markHomes slots slot_end drives element_info

def findFree (element_info : List SmcElementInfo) : List Nat → Except NotFilled (Option Nat)
  | [] => .ok none
  | j :: slots =>
    match element_info[j]? with
    | none => .error ⟨j⟩
    | some e => if full e then findFree element_info slots else .ok (some j)

/-- The loop on the import slots, with what `smc_move_medium` returns to the n-th command. -/
def importPorts (move : Nat → Except ScsiError Unit) (vid : List UInt8) (slots : List Nat) :
    List Nat → List SmcElementInfo → Nat → List Move → Nat → Except NotFilled Outcome
  | [], _, _, moved, c => .ok ⟨moved, c, none⟩
  | i :: ports, element_info, sent, moved, c =>
    match element_info[i]? with
    | none => .error ⟨i⟩
    | some e =>
      if vid ≠ [] ∧ vid ≠ e.name then importPorts move vid slots ports element_info sent moved c
      else if vid ≠ [] ∨ e.state &&& 2 ≠ 0 then
        match findFree element_info slots with
        | .error err => .error err
        | .ok none => .ok ⟨moved, RBT_NORETRY, some .cellsFull⟩
        | .ok (some j) =>
          match move sent with
          | .error err => .ok ⟨moved, smc_lasterror err, some (.importFailed e.name err)⟩
          | .ok () =>
            if vid ≠ [] then .ok ⟨moved ++ [⟨i, j⟩], 0, none⟩
            -- the slot is now full
            else importPorts move vid slots ports (element_info.modify j fill) (sent + 1)
              (moved ++ [⟨i, j⟩]) 0
      else importPorts move vid slots ports element_info sent moved c

section Places
variable (robot_info : RobotInfo) (element_info : List SmcElementInfo)

def slots : List Nat := List.range' (startOf element_info 2) robot_info.slotCount
def ports : List Nat := List.range' (startOf element_info 3) robot_info.portCount
def drives : List Nat := List.range' (startOf element_info 4) robot_info.deviceCount
def slotEnd : Nat := startOf element_info 2 + robot_info.slotCount

end Places

def smc_import (robot_info : RobotInfo) (malloc : Bool)
    (inventory : Except ScsiError (List SmcElementInfo)) (move : Nat → Except ScsiError Unit)
    (vid : List UInt8) : Except NotFilled Outcome :=
  if !malloc then .ok ⟨[], RBT_NORETRY, some .cannotAllocate⟩
  else
    match inventory with
    | .error e => .ok ⟨[], smc_lasterror e, some (.readElemStatus e)⟩
    | .ok element_info =>
      let slots := slots robot_info element_info
      match markHomes slots (slotEnd robot_info element_info) (drives robot_info element_info)
          element_info with
      | .error err => .error err
      | .ok marked =>
        importPorts move vid slots (ports robot_info element_info) marked 0 [] element_info.length

theorem full_fill (e : SmcElementInfo) : full (fill e) := by
  simp [full, fill]

theorem fill_fill (e : SmcElementInfo) : fill (fill e) = fill e := by
  simp only [fill, Nat.or_assoc, Nat.or_self]

theorem operator_fill (e : SmcElementInfo) : (fill e).state &&& 2 = e.state &&& 2 := by
  simp [fill, Nat.and_or_distrib_right]

def marked (es : List SmcElementInfo) (M : List Nat) : List SmcElementInfo :=
  es.mapIdx fun i e => if i ∈ M then fill e else e

section Marked
variable {es : List SmcElementInfo} {M : List Nat} {i j : Nat} {e : SmcElementInfo}

theorem length_marked : (marked es M).length = es.length := List.length_mapIdx

theorem marked_nil : marked es [] = es := by
  apply List.ext_getElem?
  intro i
  simp [marked]

theorem getElem?_marked : (marked es M)[i]? = es[i]?.map fun e => if i ∈ M then fill e else e :=
  List.getElem?_mapIdx

theorem marked_some (h : es[i]? = some e) :
    (marked es M)[i]? = some (if i ∈ M then fill e else e) := by
  rw [getElem?_marked, h]
  rfl

theorem marked_none (h : es[i]? = none) : (marked es M)[i]? = none := by
  rw [getElem?_marked, h]
  rfl

theorem modify_marked : (marked es M).modify j fill = marked es (j :: M) := by
  apply List.ext_getElem?
  intro i
  rw [List.getElem?_modify, getElem?_marked, getElem?_marked]
  cases es[i]? with
  | none => simp
  | some e =>
    by_cases hij : j = i
    · subst hij
      by_cases hj : j ∈ M <;> simp [hj, fill_fill]
    · have hne : ¬ i = j := fun h => hij h.symm
      simp [hij, hne]

theorem full_marked : full (if i ∈ M then fill e else e) ↔ full e ∨ i ∈ M := by
  by_cases hi : i ∈ M
  · simp [hi, full_fill]
  · simp [hi]

theorem name_marked : (if i ∈ M then fill e else e).name = e.name := by
  split <;> rfl

theorem elementAddress_marked :
    (if i ∈ M then fill e else e).elementAddress = e.elementAddress := by
  split <;> rfl

theorem sourceAddress_marked : (if i ∈ M then fill e else e).sourceAddress = e.sourceAddress := by
  split <;> rfl

theorem operator_marked : (if i ∈ M then fill e else e).state &&& 2 = e.state &&& 2 := by
  split
  · exact operator_fill e
  · rfl

end Marked

/-- The entry with this address among the slots, or the one behind them. -/
def homeOf (es : List SmcElementInfo) (slots : List Nat) (slot_end address : Nat) : Nat :=
  (slots.find? fun j => es[j]?.any fun e => address = e.elementAddress).getD slot_end

theorem lt_length_of_some {es : List SmcElementInfo} {i : Nat} {e : SmcElementInfo}
    (h : es[i]? = some e) : i < es.length := (List.getElem?_eq_some_iff.mp h).1

theorem le_homeOf (es : List SmcElementInfo) {s n slot_end : Nat} (hend : s + n = slot_end)
    (address : Nat) : s ≤ homeOf es (List.range' s n) slot_end address := by
  unfold homeOf
  cases h : (List.range' s n).find? fun j => es[j]?.any fun e => address = e.elementAddress with
  | none =>
    rw [Option.getD_none]
    omega
  | some j =>
    have hmem := List.mem_range'_1.mp (List.mem_of_find?_eq_some h)
    exact hmem.1

theorem homeOf_succ (es : List SmcElementInfo) (s n slot_end address : Nat) :
    homeOf es (List.range' s (n + 1)) slot_end address =
      if es[s]?.any fun e => address = e.elementAddress then s
      else homeOf es (List.range' (s + 1) n) slot_end address := by
  unfold homeOf
  rw [List.range'_succ, List.find?_cons]
  split <;> simp_all

theorem findHome_ok {es : List SmcElementInfo} {M : List Nat} {address s n slot_end : Nat}
    (hend : s + n = slot_end)
    (h : homeOf es (List.range' s n) slot_end address < es.length) :
    findHome (marked es M) address slot_end (List.range' s n) =
      .ok (homeOf es (List.range' s n) slot_end address) := by
  induction n generalizing s with
  | zero => rfl
  | succ n ih =>
    have hle := le_homeOf es hend address
    obtain ⟨e, hs⟩ : ∃ e, es[s]? = some e := ⟨_, List.getElem?_eq_getElem (by omega)⟩
    rw [homeOf_succ] at h ⊢
    rw [List.range'_succ, findHome, marked_some hs]
    simp only [elementAddress_marked, hs, Option.any_some] at h ⊢
    by_cases haddress : address = e.elementAddress
    · simp [haddress]
    · simp only [haddress, decide_false, Bool.false_eq_true, if_false] at h ⊢
      exact ih (by omega) h

theorem findHome_inv {es : List SmcElementInfo} {M : List Nat} {address s n slot_end j : Nat}
    (h : findHome (marked es M) address slot_end (List.range' s n) = .ok j) :
    j = homeOf es (List.range' s n) slot_end address := by
  induction n generalizing s with
  | zero => exact (Except.ok.inj h).symm
  | succ n ih =>
    rw [List.range'_succ, findHome] at h
    cases hs : es[s]? with
    | none => simp [marked_none hs] at h
    | some e =>
      rw [marked_some hs] at h
      simp only [elementAddress_marked] at h
      rw [homeOf_succ, hs, Option.any_some]
      by_cases haddress : address = e.elementAddress
      · rw [if_pos haddress] at h
        rw [if_pos (by simpa using haddress), Except.ok.inj h]
      · rw [if_neg haddress] at h
        rw [if_neg (by simpa using haddress)]
        exact ih h

section Drives
variable (es : List SmcElementInfo) (slots drives : List Nat) (slot_end : Nat)

/-- An entry of the drives that is taken for full: it is, or it got the bit from one before it. -/
inductive Occupied : Nat → Prop
  | full {i : Nat} {e : SmcElementInfo} : i ∈ drives → es[i]? = some e → full e → Occupied i
  | marked {i i' : Nat} {e : SmcElementInfo} : i ∈ drives → i' < i → Occupied i' →
      es[i']? = some e → homeOf es slots slot_end e.sourceAddress = i → Occupied i

/-- The entry gets the bit as the home of a cartridge in a drive before `limit`. -/
def TakenBefore (limit j : Nat) : Prop :=
  ∃ i < limit, ∃ e, Occupied es slots drives slot_end i ∧ es[i]? = some e ∧
    homeOf es slots slot_end e.sourceAddress = j

end Drives

section Drives
variable {es : List SmcElementInfo} {slots drives : List Nat} {slot_end : Nat}

theorem Occupied.mem {i : Nat} (h : Occupied es slots drives slot_end i) : i ∈ drives := by
  cases h with
  | full hi => exact hi
  | marked hi => exact hi

theorem occupied_iff {i : Nat} {e : SmcElementInfo} (hi : i ∈ drives) (he : es[i]? = some e) :
    Occupied es slots drives slot_end i ↔
      full e ∨ TakenBefore es slots drives slot_end i i := by
  constructor
  · intro h
    cases h with
    | full _ he' hfull =>
      obtain rfl := Option.some.inj (he.symm.trans he')
      exact .inl hfull
    | marked _ hlt hocc he' hhome => exact .inr ⟨_, hlt, _, hocc, he', hhome⟩
  · intro h
    rcases h with hfull | ⟨i', hlt, e', hocc, he', hhome⟩
    · exact .full hi he hfull
    · exact .marked hi hlt hocc he' hhome

theorem takenBefore_succ {i j : Nat} {e : SmcElementInfo} (he : es[i]? = some e) :
    TakenBefore es slots drives slot_end (i + 1) j ↔
      TakenBefore es slots drives slot_end i j ∨
        Occupied es slots drives slot_end i ∧ homeOf es slots slot_end e.sourceAddress = j := by
  constructor
  · rintro ⟨i', hlt, e', hocc, he', hhome⟩
    by_cases heq : i' = i
    · subst heq
      obtain rfl := Option.some.inj (he.symm.trans he')
      exact .inr ⟨hocc, hhome⟩
    · exact .inl ⟨i', by omega, e', hocc, he', hhome⟩
  · rintro (⟨i', hlt, e', hocc, he', hhome⟩ | ⟨hocc, hhome⟩)
    · exact ⟨i', by omega, e', hocc, he', hhome⟩
    · exact ⟨i, by omega, e, hocc, he, hhome⟩

end Drives

section Marking
variable {es : List SmcElementInfo} {S sc D dc : Nat}

def MarksOf (es : List SmcElementInfo) (S sc D dc limit : Nat) (M : List Nat) : Prop :=
  ∀ j, j ∈ M ↔ TakenBefore es (List.range' S sc) (List.range' D dc) (S + sc) limit j

theorem MarksOf.full_iff {s : Nat} {M : List Nat} {e : SmcElementInfo}
    (hM : MarksOf es S sc D dc s M) (hs : s ∈ List.range' D dc) (he : es[s]? = some e) :
    full (if s ∈ M then fill e else e) ↔
      Occupied es (List.range' S sc) (List.range' D dc) (S + sc) s := by
  rw [full_marked, occupied_iff hs he, hM s]

theorem MarksOf.next {s : Nat} {M : List Nat} {e : SmcElementInfo}
    (hM : MarksOf es S sc D dc s M) (he : es[s]? = some e)
    (hocc : Occupied es (List.range' S sc) (List.range' D dc) (S + sc) s) :
    MarksOf es S sc D dc (s + 1)
      (homeOf es (List.range' S sc) (S + sc) e.sourceAddress :: M) := by
  intro j
  rw [takenBefore_succ he, List.mem_cons, hM j, or_comm, and_iff_right hocc, eq_comm]

theorem MarksOf.skip {s : Nat} {M : List Nat} {e : SmcElementInfo}
    (hM : MarksOf es S sc D dc s M) (he : es[s]? = some e)
    (hocc : ¬ Occupied es (List.range' S sc) (List.range' D dc) (S + sc) s) :
    MarksOf es S sc D dc (s + 1) M := by
  intro j
  rw [takenBefore_succ he, hM j]
  simp [hocc]

theorem markHomes_ok {s n : Nat} {M : List Nat} (hD : D ≤ s) (hn : s + n = D + dc)
    (hM : MarksOf es S sc D dc s M) (hdrives : ∀ i ∈ List.range' s n, i < es.length)
    (hhomes : ∀ i e, Occupied es (List.range' S sc) (List.range' D dc) (S + sc) i →
      es[i]? = some e → homeOf es (List.range' S sc) (S + sc) e.sourceAddress < es.length) :
    ∃ M', markHomes (List.range' S sc) (S + sc) (List.range' s n) (marked es M) =
      .ok (marked es M') ∧ MarksOf es S sc D dc (D + dc) M' := by
  induction n generalizing s M with
  | zero =>
    obtain rfl : s = D + dc := by omega
    exact ⟨M, rfl, hM⟩
  | succ n ih =>
    rw [List.range'_succ] at hdrives ⊢
    have hfilled := hdrives s List.mem_cons_self
    obtain ⟨e, he⟩ : ∃ e, es[s]? = some e := ⟨_, List.getElem?_eq_getElem hfilled⟩
    have hs : s ∈ List.range' D dc := List.mem_range'_1.mpr (by omega)
    have hrest : ∀ i ∈ List.range' (s + 1) n, i < es.length := fun i hi =>
      hdrives i (List.mem_cons_of_mem s hi)
    rw [markHomes, marked_some he]
    simp only [sourceAddress_marked]
    by_cases hocc : Occupied es (List.range' S sc) (List.range' D dc) (S + sc) s
    · have hhome := hhomes s e hocc he
      rw [if_pos ((hM.full_iff hs he).mpr hocc), findHome_ok rfl hhome]
      simp only [length_marked, if_pos hhome, modify_marked]
      exact ih (by omega) (by omega) (hM.next he hocc) hrest
    · rw [if_neg (mt (hM.full_iff hs he).mp hocc)]
      exact ih (by omega) (by omega) (hM.skip he hocc) hrest

theorem markHomes_inv {s n : Nat} {M : List Nat} {es' : List SmcElementInfo} (hD : D ≤ s)
    (hn : s + n = D + dc) (hM : MarksOf es S sc D dc s M)
    (h : markHomes (List.range' S sc) (S + sc) (List.range' s n) (marked es M) = .ok es') :
    ∀ i ∈ List.range' s n, i < es.length ∧
      ∀ e, Occupied es (List.range' S sc) (List.range' D dc) (S + sc) i → es[i]? = some e →
        homeOf es (List.range' S sc) (S + sc) e.sourceAddress < es.length := by
  induction n generalizing s M with
  | zero => simp
  | succ n ih =>
    rw [List.range'_succ] at h ⊢
    have hs : s ∈ List.range' D dc := List.mem_range'_1.mpr (by omega)
    rw [markHomes] at h
    cases he : es[s]? with
    | none => simp [marked_none he] at h
    | some e =>
      rw [marked_some he] at h
      simp only [sourceAddress_marked] at h
      have hfilled := lt_length_of_some he
      by_cases hocc : Occupied es (List.range' S sc) (List.range' D dc) (S + sc) s
      · rw [if_pos ((hM.full_iff hs he).mpr hocc)] at h
        cases hfind : findHome (marked es M) e.sourceAddress (S + sc) (List.range' S sc) with
        | error err => simp [hfind] at h
        | ok j =>
          obtain rfl := findHome_inv hfind
          rw [hfind] at h
          simp only [length_marked, modify_marked] at h
          by_cases hhome : homeOf es (List.range' S sc) (S + sc) e.sourceAddress < es.length
          · rw [if_pos hhome] at h
            have hrest := ih (by omega) (by omega) (hM.next he hocc) h
            intro i hi
            rcases List.mem_cons.mp hi with rfl | hi
            · refine ⟨hfilled, fun e' _ he' => ?_⟩
              obtain rfl := Option.some.inj (he.symm.trans he')
              exact hhome
            · exact hrest i hi
          · rw [if_neg hhome] at h
            cases h
      · rw [if_neg (mt (hM.full_iff hs he).mp hocc)] at h
        have hrest := ih (by omega) (by omega) (hM.skip he hocc) h
        intro i hi
        rcases List.mem_cons.mp hi with rfl | hi
        · exact ⟨hfilled, fun _ hocc' _ => absurd hocc' hocc⟩
        · exact hrest i hi

end Marking

/-- The filled entries among the slots that are neither full nor marked. -/
def freeOf (es : List SmcElementInfo) (M slots : List Nat) : List Nat :=
  slots.filter fun j => es[j]?.any fun e => ¬ full e ∧ j ∉ M

def Matching (es : List SmcElementInfo) (vid : List UInt8) (i : Nat) : Bool :=
  es[i]?.any fun e => if vid = [] then e.state &&& 2 ≠ 0 else vid = e.name

/-- The ports from which cartridges are to be moved: with a given identifier only the first. -/
def wanted (es : List SmcElementInfo) (vid : List UInt8) (ports : List Nat) : List Nat :=
  if vid = [] then ports.filter (Matching es vid) else (ports.filter (Matching es vid)).take 1

section Ports
variable {es : List SmcElementInfo} {M slots ports : List Nat} {vid : List UInt8} {i j s n : Nat}
  {e : SmcElementInfo}

theorem findFree_some {fs : List Nat} (h : freeOf es M (List.range' s n) = j :: fs) :
    findFree (marked es M) (List.range' s n) = .ok (some j) := by
  induction n generalizing s with
  | zero => simp [freeOf] at h
  | succ n ih =>
    have hmem : j ∈ freeOf es M (List.range' s (n + 1)) := h ▸ List.mem_cons_self
    obtain ⟨hj, hfree⟩ := List.mem_filter.mp hmem
    have hle := (List.mem_range'_1.mp hj).1
    have hlt : j < es.length := by
      by_contra hnot
      rw [List.getElem?_eq_none (by omega)] at hfree
      simp at hfree
    obtain ⟨e, he⟩ : ∃ e, es[s]? = some e := ⟨_, List.getElem?_eq_getElem (by omega)⟩
    rw [List.range'_succ, freeOf, List.filter_cons, he] at h
    rw [List.range'_succ, findFree, marked_some he]
    by_cases hfull : full e ∨ s ∈ M
    · have hnot : (Option.any (fun e => decide (¬ full e ∧ s ∉ M)) (some e)) = false := by
        simpa [not_and_or, or_iff_not_imp_left] using hfull
      rw [hnot] at h
      simp only [if_pos (full_marked.mpr hfull)]
      exact ih (by simpa [freeOf] using h)
    · have hyes : (Option.any (fun e => decide (¬ full e ∧ s ∉ M)) (some e)) = true := by
        simpa [not_or] using hfull
      rw [hyes, if_pos rfl] at h
      simp only [if_neg (mt full_marked.mp hfull)]
      rw [(List.cons_eq_cons.mp h).1]

theorem findFree_none (h : freeOf es M (List.range' s n) = [])
    (hfilled : ∀ j ∈ List.range' s n, j < es.length) :
    findFree (marked es M) (List.range' s n) = .ok none := by
  induction n generalizing s with
  | zero => rfl
  | succ n ih =>
    rw [List.range'_succ] at h hfilled ⊢
    obtain ⟨e, he⟩ : ∃ e, es[s]? = some e :=
      ⟨_, List.getElem?_eq_getElem (hfilled s List.mem_cons_self)⟩
    obtain ⟨hs, hrest⟩ := List.forall_mem_cons.mp (List.filter_eq_nil_iff.mp h)
    have hfull : full e ∨ s ∈ M := by
      by_contra hnot
      exact hs (by simpa [he, not_or] using hnot)
    rw [findFree, marked_some he]
    simp only [if_pos (full_marked.mpr hfull)]
    exact ih (List.filter_eq_nil_iff.mpr hrest) fun j hj => hfilled j (List.mem_cons_of_mem s hj)

/-- What is found is the first free slot, and all slots were looked at when none is found. -/
theorem findFree_inv {found : Option Nat}
    (h : findFree (marked es M) (List.range' s n) = .ok found) :
    found = (freeOf es M (List.range' s n)).head? ∧
      (found = none → ∀ j ∈ List.range' s n, j < es.length) := by
  induction n generalizing s with
  | zero =>
    obtain rfl := Except.ok.inj h
    simp [freeOf]
  | succ n ih =>
    rw [List.range'_succ, findFree] at h
    cases he : es[s]? with
    | none => simp [marked_none he] at h
    | some e =>
      rw [marked_some he] at h
      rw [List.range'_succ]
      by_cases hfull : full e ∨ s ∈ M
      · simp only [if_pos (full_marked.mpr hfull)] at h
        obtain ⟨hfound, hall⟩ := ih h
        have hskip : freeOf es M (s :: List.range' (s + 1) n) =
            freeOf es M (List.range' (s + 1) n) :=
          List.filter_cons_of_neg (by simpa [he, or_iff_not_imp_left] using hfull)
        rw [hskip]
        refine ⟨hfound, fun hnone => ?_⟩
        exact List.forall_mem_cons.mpr ⟨lt_length_of_some he, hall hnone⟩
      · simp only [if_neg (mt full_marked.mp hfull)] at h
        obtain rfl := Except.ok.inj h
        have htake : freeOf es M (s :: List.range' (s + 1) n) =
            s :: freeOf es M (List.range' (s + 1) n) :=
          List.filter_cons_of_pos (by simpa [he, not_or] using hfull)
        rw [htake]
        exact ⟨rfl, fun hnone => by cases hnone⟩

theorem freeOf_mark {fs : List Nat} (h : freeOf es M (List.range' s n) = j :: fs) :
    freeOf es (j :: M) (List.range' s n) = fs := by
  have hnodup : (j :: fs).Nodup := h ▸ List.Nodup.filter _ List.nodup_range'
  have hsplit : freeOf es (j :: M) (List.range' s n) =
      (freeOf es M (List.range' s n)).filter (· ≠ j) := by
    rw [freeOf, freeOf, List.filter_filter]
    refine List.filter_congr fun i _ => ?_
    cases es[i]? with
    | none => simp
    | some e => by_cases hij : i = j <;> simp [hij]
  rw [hsplit, h, List.filter_cons_of_neg (by simp), List.filter_eq_self]
  intro i hi
  simpa using fun heq : i = j => (List.nodup_cons.mp hnodup).1 (heq ▸ hi)

@[simp] theorem wanted_nil : wanted es vid [] = [] := by
  simp [wanted]

theorem wanted_skip (h : Matching es vid i = false) :
    wanted es vid (i :: ports) = wanted es vid ports := by
  rw [wanted, wanted, List.filter_cons_of_neg (by simp [h])]

theorem wanted_all (h : Matching es [] i = true) :
    wanted es [] (i :: ports) = i :: wanted es [] ports := by
  simp [wanted, h]

theorem wanted_first (h : Matching es vid i = true) (hvid : vid ≠ []) :
    wanted es vid (i :: ports) = [i] := by
  simp [wanted, h, hvid]

theorem wanted_unfilled (h : es[s]? = none) : wanted es vid (List.range' s n) = [] := by
  have hnone : (List.range' s n).filter (Matching es vid) = [] := by
    refine List.filter_eq_nil_iff.mpr fun i hi => ?_
    have hlen := List.getElem?_eq_none_iff.mp h
    have hle := (List.mem_range'_1.mp hi).1
    simp [Matching, List.getElem?_eq_none (show es.length ≤ i by omega)]
  simp [wanted, hnone]

variable {move : Nat → Except ScsiError Unit} {sent c k : Nat} {moved : List Move} {fs : List Nat}

theorem matching_some (he : es[i]? = some e) :
    Matching es vid i = true ↔ if vid = [] then e.state &&& 2 ≠ 0 else vid = e.name := by
  rw [Matching, he]
  simp

@[simp] theorem importPorts_nil (element_info : List SmcElementInfo) :
    importPorts move vid slots [] element_info sent moved c = .ok ⟨moved, c, none⟩ := rfl

theorem importPorts_skip (he : es[i]? = some e) (hno : Matching es vid i = false) :
    importPorts move vid slots (i :: ports) (marked es M) sent moved c =
      importPorts move vid slots ports (marked es M) sent moved c := by
  have hnot : ¬ if vid = [] then e.state &&& 2 ≠ 0 else vid = e.name := fun h => by
    rw [(matching_some he).mpr h] at hno
    cases hno
  rw [importPorts, marked_some he]
  simp only [name_marked, operator_marked]
  by_cases hvid : vid = []
  · subst hvid
    simp only [if_true] at hnot
    simp [not_not.mp hnot]
  · rw [if_neg hvid] at hnot
    rw [if_pos ⟨hvid, hnot⟩]

theorem importPorts_match (he : es[i]? = some e) (hyes : Matching es vid i = true) :
    importPorts move vid slots (i :: ports) (marked es M) sent moved c =
      match findFree (marked es M) slots with
      | .error err => .error err
      | .ok none => .ok ⟨moved, RBT_NORETRY, some .cellsFull⟩
      | .ok (some j) =>
        match move sent with
        | .error err => .ok ⟨moved, smc_lasterror err, some (.importFailed e.name err)⟩
        | .ok () =>
          if vid ≠ [] then .ok ⟨moved ++ [⟨i, j⟩], 0, none⟩
          else importPorts move vid slots ports (marked es (j :: M)) (sent + 1)
            (moved ++ [⟨i, j⟩]) 0 := by
  have htest := (matching_some he).mp hyes
  rw [importPorts, marked_some he]
  simp only [name_marked, operator_marked, modify_marked]
  by_cases hvid : vid = []
  · subst hvid
    simp only [if_true] at htest
    rw [if_neg (by simp), if_pos (.inr htest)]
  · rw [if_neg hvid] at htest
    rw [if_neg (fun h => h.2 htest), if_pos (.inl hvid)]

def plan (ports slots : List Nat) : List Move := List.zipWith Move.mk ports slots

variable {S sc : Nat} (sent c) (moved)

theorem importPorts_fails {err : ScsiError} (hfs : freeOf es M (List.range' S sc) = fs)
    (hk : k < (wanted es vid (List.range' s n)).length) (hk' : k < fs.length)
    (hok : ∀ m < k, move (sent + m) = .ok ()) (herr : move (sent + k) = .error err) :
    ∃ message, importPorts move vid (List.range' S sc) (List.range' s n) (marked es M) sent moved
      c = .ok ⟨moved ++ (plan (wanted es vid (List.range' s n)) fs).take k, smc_lasterror err,
        some message⟩ := by
  induction n generalizing s M sent moved c k fs with
  | zero => simp at hk
  | succ n ih =>
    cases he : es[s]? with
    | none => simp [wanted_unfilled he] at hk
    | some e =>
      rw [List.range'_succ] at hk ⊢
      cases hmatch : Matching es vid s with
      | false =>
        rw [wanted_skip hmatch] at hk ⊢
        rw [importPorts_skip he hmatch]
        exact ih sent c moved hfs hk hk' hok herr
      | true =>
        obtain ⟨j, fs, rfl⟩ := List.exists_cons_of_length_pos (Nat.zero_lt_of_lt hk')
        rw [importPorts_match he hmatch, findFree_some hfs]
        cases k with
        | zero =>
          exact ⟨.importFailed e.name err, by simp [show move sent = .error err from herr]⟩
        | succ k =>
          have hfirst : move sent = .ok () := hok 0 (by omega)
          by_cases hvid : vid = []
          · subst hvid
            rw [wanted_all hmatch] at hk ⊢
            have hshift (m : Nat) : sent + 1 + m = sent + (m + 1) := by omega
            obtain ⟨message, hrun⟩ := ih (sent + 1) 0 (moved ++ [⟨s, j⟩]) (freeOf_mark hfs)
              (by simpa using hk) (by simpa using hk')
              (fun m hm => hshift m ▸ hok (m + 1) (by omega)) (hshift k ▸ herr)
            refine ⟨message, ?_⟩
            simp [hfirst, hrun, plan]
          · rw [wanted_first hmatch hvid] at hk
            simp at hk

theorem importPorts_completes (hfs : freeOf es M (List.range' S sc) = fs)
    (hroom : (wanted es vid (List.range' s n)).length ≤ fs.length)
    (hok : ∀ m < (wanted es vid (List.range' s n)).length, move (sent + m) = .ok ())
    (hfilled : vid = [] ∨ wanted es vid (List.range' s n) = [] →
      ∀ i ∈ List.range' s n, i < es.length) :
    importPorts move vid (List.range' S sc) (List.range' s n) (marked es M) sent moved c =
      .ok ⟨moved ++ plan (wanted es vid (List.range' s n)) fs,
        if wanted es vid (List.range' s n) = [] then c else 0, none⟩ := by
  induction n generalizing s M sent moved c fs with
  | zero => simp [plan]
  | succ n ih =>
    cases he : es[s]? with
    | none =>
      have hs := hfilled (.inr (wanted_unfilled he)) s (List.mem_range'_1.mpr (by omega))
      rw [List.getElem?_eq_getElem hs] at he
      cases he
    | some e =>
      rw [List.range'_succ] at hroom hok hfilled ⊢
      cases hmatch : Matching es vid s with
      | false =>
        rw [wanted_skip hmatch] at hroom hok hfilled ⊢
        rw [importPorts_skip he hmatch]
        exact ih sent c moved hfs hroom hok fun h i hi => hfilled h i (List.mem_cons_of_mem s hi)
      | true =>
        by_cases hvid : vid = []
        · subst hvid
          rw [wanted_all hmatch] at hroom hok hfilled ⊢
          obtain ⟨j, fs, rfl⟩ := List.exists_cons_of_length_pos (Nat.zero_lt_of_lt hroom)
          have hfirst : move sent = .ok () := hok 0 (by simp)
          have hshift (m : Nat) : sent + 1 + m = sent + (m + 1) := by omega
          have hrun := ih (sent + 1) 0 (moved ++ [⟨s, j⟩])
            (freeOf_mark hfs) (by simpa using hroom)
            (fun m hm => hshift m ▸ hok (m + 1) (by simpa using hm))
            fun _ i hi => hfilled (.inl rfl) i (List.mem_cons_of_mem s hi)
          rw [importPorts_match he hmatch, findFree_some hfs]
          simp [hfirst, hrun, plan]
        · rw [wanted_first hmatch hvid] at hroom hok ⊢
          obtain ⟨j, fs, rfl⟩ := List.exists_cons_of_length_pos (Nat.zero_lt_of_lt hroom)
          have hfirst : move sent = .ok () := hok 0 (by simp)
          rw [importPorts_match he hmatch, findFree_some hfs]
          simp [hfirst, hvid, plan]

theorem importPorts_exhausted (hfs : freeOf es M (List.range' S sc) = fs)
    (hroom : fs.length < (wanted es vid (List.range' s n)).length)
    (hok : ∀ m < fs.length, move (sent + m) = .ok ())
    (hfilled : ∀ j ∈ List.range' S sc, j < es.length) :
    importPorts move vid (List.range' S sc) (List.range' s n) (marked es M) sent moved c =
      .ok ⟨moved ++ plan (wanted es vid (List.range' s n)) fs, RBT_NORETRY, some .cellsFull⟩ := by
  induction n generalizing s M sent moved c fs with
  | zero => simp at hroom
  | succ n ih =>
    cases he : es[s]? with
    | none => simp [wanted_unfilled he] at hroom
    | some e =>
      rw [List.range'_succ] at hroom ⊢
      cases hmatch : Matching es vid s with
      | false =>
        rw [wanted_skip hmatch] at hroom ⊢
        rw [importPorts_skip he hmatch]
        exact ih sent c moved hfs hroom hok
      | true =>
        rw [importPorts_match he hmatch]
        cases fs with
        | nil => simp [findFree_none hfs hfilled, plan]
        | cons j fs =>
          have hfirst : move sent = .ok () := hok 0 (by simp)
          by_cases hvid : vid = []
          · subst hvid
            rw [wanted_all hmatch] at hroom ⊢
            have hshift (m : Nat) : sent + 1 + m = sent + (m + 1) := by omega
            have hrun := ih (sent + 1) 0 (moved ++ [⟨s, j⟩])
              (freeOf_mark hfs) (by simpa using hroom)
              fun m hm => hshift m ▸ hok (m + 1) (by simpa using hm)
            simp [findFree_some hfs, hfirst, hrun, plan]
          · rw [wanted_first hmatch hvid] at hroom
            simp at hroom

theorem importPorts_filled {outcome : Outcome} (hfs : freeOf es M (List.range' S sc) = fs)
    (hroom : (wanted es vid (List.range' s n)).length ≤ fs.length)
    (hok : ∀ m, move m = .ok ()) (hall : vid = [] ∨ wanted es vid (List.range' s n) = [])
    (h : importPorts move vid (List.range' S sc) (List.range' s n) (marked es M) sent moved c =
      .ok outcome) : ∀ i ∈ List.range' s n, i < es.length := by
  induction n generalizing s M sent moved c fs with
  | zero => simp
  | succ n ih =>
    rw [List.range'_succ] at hroom hall h ⊢
    cases he : es[s]? with
    | none =>
      rw [importPorts, marked_none he] at h
      cases h
    | some e =>
      refine List.forall_mem_cons.mpr ⟨lt_length_of_some he, ?_⟩
      cases hmatch : Matching es vid s with
      | false =>
        rw [wanted_skip hmatch] at hroom hall
        rw [importPorts_skip he hmatch] at h
        exact ih sent c moved hfs hroom hall h
      | true =>
        rw [importPorts_match he hmatch] at h
        by_cases hvid : vid = []
        · subst hvid
          rw [wanted_all hmatch] at hroom
          obtain ⟨j, fs, rfl⟩ := List.exists_cons_of_length_pos (Nat.zero_lt_of_lt hroom)
          rw [findFree_some hfs] at h
          simp only [hok sent] at h
          exact ih _ _ _ (freeOf_mark hfs) (by simpa using hroom) (.inl rfl) h
        · rw [wanted_first hmatch hvid] at hall
          simp [hvid] at hall

theorem importPorts_slots_filled {outcome : Outcome} (hfs : freeOf es M (List.range' S sc) = fs)
    (hroom : fs.length < (wanted es vid (List.range' s n)).length) (hok : ∀ m, move m = .ok ())
    (h : importPorts move vid (List.range' S sc) (List.range' s n) (marked es M) sent moved c =
      .ok outcome) : ∀ j ∈ List.range' S sc, j < es.length := by
  induction n generalizing s M sent moved c fs with
  | zero => simp at hroom
  | succ n ih =>
    cases he : es[s]? with
    | none => simp [wanted_unfilled he] at hroom
    | some e =>
      rw [List.range'_succ] at hroom h
      cases hmatch : Matching es vid s with
      | false =>
        rw [wanted_skip hmatch] at hroom
        rw [importPorts_skip he hmatch] at h
        exact ih sent c moved hfs hroom h
      | true =>
        rw [importPorts_match he hmatch] at h
        cases fs with
        | nil =>
          cases hfind : findFree (marked es M) (List.range' S sc) with
          | error err => simp [hfind] at h
          | ok found =>
            obtain ⟨hfound, hall⟩ := findFree_inv hfind
            rw [hfs] at hfound
            exact hall hfound
        | cons j fs =>
          rw [findFree_some hfs] at h
          by_cases hvid : vid = []
          · subst hvid
            rw [wanted_all hmatch] at hroom
            simp only [hok sent] at h
            exact ih _ _ _ (freeOf_mark hfs) (by simpa using hroom) h
          · rw [wanted_first hmatch hvid] at hroom
            simp at hroom

end Ports

theorem plan_dests (ports slots : List Nat) :
    (plan ports slots).map Move.dest = slots.take ports.length := by
  induction ports generalizing slots with
  | nil => rfl
  | cons i ports ih =>
    cases slots with
    | nil => rfl
    | cons j slots =>
      have hrest := ih slots
      simpa [plan] using hrest

theorem plan_sources (ports slots : List Nat) :
    (plan ports slots).map Move.source = ports.take slots.length := by
  induction ports generalizing slots with
  | nil => simp [plan]
  | cons i ports ih =>
    cases slots with
    | nil => rfl
    | cons j slots =>
      have hrest := ih slots
      simpa [plan] using hrest

theorem take_plan_sources {ports slots : List Nat} {k : Nat} (hk : k ≤ slots.length) :
    ((plan ports slots).take k).map Move.source = ports.take k := by
  rw [List.map_take, plan_sources, List.take_take, Nat.min_eq_left hk]

end Cta.MediaChanger.SmcImport

import Cta.MediaChanger.SmcImport

/-! What an import moves and what it returns. -/
namespace Cta.MediaChanger.SmcImport
open Cta.MediaChanger.RmcHandlers (SmcElementInfo RobotInfo)
open Cta.MediaChanger.SmcDismount (ScsiError smc_lasterror RBT_NORETRY)

/-- A slot in which no cartridge is, and to which none in a drive belongs. -/
structure FreeSlot (es : List SmcElementInfo) (e : SmcElementInfo) : Prop where
  slot : e.elementType = 2
  empty : ∀ e' ∈ es, e'.elementType = 2 → e'.elementAddress = e.elementAddress → ¬ full e'
  notHome : ∀ d ∈ es, d.elementType = 4 → full d → d.sourceAddress ≠ e.elementAddress

def addressAt (es : List SmcElementInfo) (j : Nat) : Option Nat := es[j]?.map (·.elementAddress)

/-- Every cartridge goes to a free slot, and no two to the same one. -/
structure GoodMoves (es : List SmcElementInfo) (moved : List Move) : Prop where
  free : ∀ j ∈ moved.map Move.dest, ∃ e, es[j]? = some e ∧ FreeSlot es e
  once : ((moved.map Move.dest).map (addressAt es)).Nodup

/-- A cartridge in an import slot: one that the operator put there, or the one with the given
identifier. -/
def Requested (es : List SmcElementInfo) (vid : List UInt8) (i : Nat) : Prop :=
  ∃ e, es[i]? = some e ∧ e.elementType = 3 ∧ full e ∧
    if vid = [] then e.state &&& 2 ≠ 0 else e.name = vid

def AllMoved (es : List SmcElementInfo) (vid : List UInt8) (sources : List Nat) : Prop :=
  if vid = [] then ∀ i, Requested es vid i → i ∈ sources
  else (∃ i, Requested es vid i) ∧ ∀ i, Requested es vid i ↔ i ∈ sources

def Right (robot_info : RobotInfo) (es : List SmcElementInfo) (vid : List UInt8) : Prop :=
  ∀ move, ∃ outcome, smc_import robot_info true (.ok es) move vid = .ok outcome ∧
    GoodMoves es outcome.moved ∧
    (outcome.rc = 0 ↔ AllMoved es vid (outcome.moved.map Move.source))

section Condition
variable (robot_info : RobotInfo) (es : List SmcElementInfo) (vid : List UInt8)

def homeIn (address : Nat) : Nat := homeOf es (slots robot_info es) (slotEnd robot_info es) address

def OccupiedIn (i : Nat) : Prop :=
  Occupied es (slots robot_info es) (drives robot_info es) (slotEnd robot_info es) i

def Taken (j : Nat) : Prop :=
  ∃ i e, OccupiedIn robot_info es i ∧ es[i]? = some e ∧ homeIn robot_info es e.sourceAddress = j

open Classical in
noncomputable def freeSlots : List Nat :=
  (slots robot_info es).filter fun j => ∃ e, es[j]? = some e ∧ ¬ full e ∧ ¬ Taken robot_info es j

def wantedPorts : List Nat := wanted es vid (ports robot_info es)

noncomputable def usedSlots : List Nat :=
  (freeSlots robot_info es).take (wantedPorts robot_info es vid).length

/-- What the return code says is true. -/
structure ResultRight : Prop where
  none_wanted : wantedPorts robot_info es vid = [] → es ≠ [] → vid = [] →
    ∃ i, Requested es vid i
  none_found : wantedPorts robot_info es vid = [] → vid ≠ [] → es ≠ []
  all_wanted : vid = [] →
    (wantedPorts robot_info es vid).length ≤ (freeSlots robot_info es).length →
    ∀ last, (wantedPorts robot_info es vid).getLast? = some last →
      Requested es vid last ∧ ∀ i, Requested es vid i → i ∈ wantedPorts robot_info es vid
  some_left : vid = [] →
    (freeSlots robot_info es).length < (wantedPorts robot_info es vid).length →
    ∃ i, Requested es vid i ∧
      i ∉ (wantedPorts robot_info es vid).take (freeSlots robot_info es).length
  the_one : vid ≠ [] → freeSlots robot_info es ≠ [] →
    ∀ i ∈ wantedPorts robot_info es vid, ∀ i', Requested es vid i' ↔ i' = i

structure Condition : Prop where
  drives : ∀ i ∈ drives robot_info es, i < es.length
  homes : ∀ i e, OccupiedIn robot_info es i → es[i]? = some e →
    homeIn robot_info es e.sourceAddress < es.length
  slots : (freeSlots robot_info es).length < (wantedPorts robot_info es vid).length →
    ∀ j ∈ slots robot_info es, j < es.length
  ports : (wantedPorts robot_info es vid).length ≤ (freeSlots robot_info es).length →
    vid = [] ∨ wantedPorts robot_info es vid = [] → ∀ i ∈ ports robot_info es, i < es.length
  free : ∀ j ∈ usedSlots robot_info es vid, ∃ e, es[j]? = some e ∧ FreeSlot es e
  once : ((usedSlots robot_info es vid).map (addressAt es)).Nodup
  result : ResultRight robot_info es vid

end Condition

section Import
variable {robot_info : RobotInfo} {es : List SmcElementInfo} {vid : List UInt8}
  {move : Nat → Except ScsiError Unit}

structure Marking (robot_info : RobotInfo) (es : List SmcElementInfo) (M : List Nat) : Prop where
  run : markHomes (slots robot_info es) (slotEnd robot_info es) (drives robot_info es) es =
    .ok (marked es M)
  free : freeOf es M (slots robot_info es) = freeSlots robot_info es

theorem marking_of_marksOf {M : List Nat}
    (hrun : markHomes (slots robot_info es) (slotEnd robot_info es) (drives robot_info es) es =
      .ok (marked es M))
    (hM : MarksOf es (startOf es 2) robot_info.slotCount (startOf es 4) robot_info.deviceCount
      (startOf es 4 + robot_info.deviceCount) M) : Marking robot_info es M := by
  have htaken (j : Nat) : j ∈ M ↔ Taken robot_info es j := by
    rw [hM j]
    constructor
    · rintro ⟨i, -, e, hocc, he, hhome⟩
      exact ⟨i, e, hocc, he, hhome⟩
    · rintro ⟨i, e, hocc, he, hhome⟩
      exact ⟨i, (List.mem_range'_1.mp hocc.mem).2, e, hocc, he, hhome⟩
  refine ⟨hrun, List.filter_congr fun j _ => ?_⟩
  cases he : es[j]? with
  | none => simp
  | some e =>
    refine decide_eq_decide.mpr ?_
    rw [htaken j]
    simp

theorem marksOf_nil : MarksOf es (startOf es 2) robot_info.slotCount (startOf es 4)
    robot_info.deviceCount (startOf es 4) [] := by
  intro j
  refine iff_of_false List.not_mem_nil ?_
  rintro ⟨i, hlt, e, hocc, -⟩
  have := (List.mem_range'_1.mp hocc.mem).1
  omega

theorem exists_marking (hdrives : ∀ i ∈ drives robot_info es, i < es.length)
    (hhomes : ∀ i e, OccupiedIn robot_info es i → es[i]? = some e →
      homeIn robot_info es e.sourceAddress < es.length) : ∃ M, Marking robot_info es M := by
  obtain ⟨M, hrun, hM⟩ := markHomes_ok (Nat.le_refl _) rfl marksOf_nil hdrives hhomes
  rw [marked_nil] at hrun
  exact ⟨M, marking_of_marksOf hrun hM⟩

theorem homes_of_ok {outcome : Outcome}
    (h : smc_import robot_info true (.ok es) move vid = .ok outcome) :
    (∀ i ∈ drives robot_info es, i < es.length) ∧
      ∀ i e, OccupiedIn robot_info es i → es[i]? = some e →
        homeIn robot_info es e.sourceAddress < es.length := by
  unfold smc_import at h
  cases hrun : markHomes (slots robot_info es) (slotEnd robot_info es) (drives robot_info es)
      es with
  | error err => simp [hrun] at h
  | ok es' =>
    have hrun' : markHomes (slots robot_info es) (slotEnd robot_info es) (drives robot_info es)
        (marked es []) = .ok es' := by rw [marked_nil, hrun]
    have hinv := markHomes_inv (Nat.le_refl _) rfl marksOf_nil hrun'
    exact ⟨fun i hi => (hinv i hi).1, fun i e hocc he => (hinv i hocc.mem).2 e hocc he⟩

theorem Marking.import_eq {M : List Nat} (h : Marking robot_info es M) :
    smc_import robot_info true (.ok es) move vid =
      importPorts move vid (slots robot_info es) (ports robot_info es) (marked es M) 0 []
        es.length := by
  unfold smc_import
  simp [h.run]

variable (vid) in
theorem import_fails {M : List Nat} (h : Marking robot_info es M) {k : Nat} {err : ScsiError}
    (hk : k < (wantedPorts robot_info es vid).length) (hk' : k < (freeSlots robot_info es).length)
    (hok : ∀ m < k, move m = .ok ()) (herr : move k = .error err) :
    ∃ message, smc_import robot_info true (.ok es) move vid =
      .ok ⟨(plan (wantedPorts robot_info es vid) (freeSlots robot_info es)).take k,
        smc_lasterror err, some message⟩ := by
  rw [h.import_eq]
  have hok' : ∀ m < k, move (0 + m) = .ok () := fun m hm => (Nat.zero_add m).symm ▸ hok m hm
  have herr' : move (0 + k) = .error err := (Nat.zero_add k).symm ▸ herr
  exact importPorts_fails 0 es.length [] h.free hk hk' hok' herr'

theorem import_completes {M : List Nat} (hM : Marking robot_info es M)
    (hroom : (wantedPorts robot_info es vid).length ≤ (freeSlots robot_info es).length)
    (hports : vid = [] ∨ wantedPorts robot_info es vid = [] →
      ∀ i ∈ ports robot_info es, i < es.length)
    (hok : ∀ m < (wantedPorts robot_info es vid).length, move m = .ok ()) :
    smc_import robot_info true (.ok es) move vid =
      .ok ⟨plan (wantedPorts robot_info es vid) (freeSlots robot_info es),
        if wantedPorts robot_info es vid = [] then es.length else 0, none⟩ := by
  rw [hM.import_eq]
  exact importPorts_completes 0 es.length [] hM.free hroom
    (fun m hm => (Nat.zero_add m).symm ▸ hok m hm) hports

theorem import_exhausted {M : List Nat} (hM : Marking robot_info es M)
    (hroom : (freeSlots robot_info es).length < (wantedPorts robot_info es vid).length)
    (hslots : ∀ j ∈ slots robot_info es, j < es.length)
    (hok : ∀ m < (freeSlots robot_info es).length, move m = .ok ()) :
    smc_import robot_info true (.ok es) move vid =
      .ok ⟨plan (wantedPorts robot_info es vid) (freeSlots robot_info es), RBT_NORETRY,
        some .cellsFull⟩ := by
  rw [hM.import_eq]
  exact importPorts_exhausted 0 es.length [] hM.free hroom
    (fun m hm => (Nat.zero_add m).symm ▸ hok m hm) hslots

theorem nodup_wantedPorts : (wantedPorts robot_info es vid).Nodup := by
  unfold wantedPorts wanted
  split
  · exact List.Nodup.filter _ List.nodup_range'
  · exact (List.Nodup.filter _ List.nodup_range').sublist (List.take_sublist _ _)

variable (robot_info es) in
theorem length_wantedPorts_le (hvid : vid ≠ []) : (wantedPorts robot_info es vid).length ≤ 1 := by
  rw [wantedPorts, wanted, if_neg hvid]
  exact List.length_take_le 1 _

theorem last_notMem_take {l : List Nat} {k last : Nat} (hnodup : l.Nodup) (hk : k < l.length)
    (hlast : l.getLast? = some last) : last ∉ l.take k := by
  obtain ⟨front, rfl⟩ := List.getLast?_eq_some_iff.mp hlast
  intro hmem
  rw [List.length_append, List.length_singleton] at hk
  rw [List.take_append_of_le_length (by omega)] at hmem
  exact (List.nodup_append.mp hnodup).2.2 last (List.mem_of_mem_take hmem) last
    (List.mem_singleton_self last) rfl

theorem not_allMoved_nil (hvid : vid ≠ []) : ¬ AllMoved es vid [] := by
  unfold AllMoved
  rw [if_neg hvid]
  rintro ⟨⟨i, hi⟩, hiff⟩
  exact List.not_mem_nil ((hiff i).mp hi)

theorem not_requested_nil {i : Nat} : ¬ Requested [] vid i := by
  rintro ⟨e, he, -⟩
  simp at he

theorem ResultRight.not_allMoved (h : ResultRight robot_info es vid) {k : Nat}
    (hk : k < (wantedPorts robot_info es vid).length)
    (hk' : k ≤ (freeSlots robot_info es).length) :
    ¬ AllMoved es vid ((wantedPorts robot_info es vid).take k) := by
  by_cases hvid : vid = []
  · subst hvid
    simp only [AllMoved, if_true]
    intro hall
    by_cases hroom : (wantedPorts robot_info es []).length ≤ (freeSlots robot_info es).length
    · obtain ⟨last, hlast⟩ : ∃ last, (wantedPorts robot_info es []).getLast? = some last :=
        ⟨_, List.getLast?_eq_some_getLast (List.ne_nil_of_length_pos (by omega))⟩
      have hrequested := (h.all_wanted rfl hroom last hlast).1
      exact last_notMem_take nodup_wantedPorts hk hlast (hall last hrequested)
    · obtain ⟨i, hi, hnot⟩ := h.some_left rfl (by omega)
      exact hnot (List.take_subset_take_left _ hk' (hall i hi))
  · have hone := length_wantedPorts_le robot_info es hvid
    obtain rfl : k = 0 := by omega
    exact not_allMoved_nil hvid

/-- The return code when no command fails and there are slots enough. -/
theorem ResultRight.allMoved_iff (h : ResultRight robot_info es vid)
    (hroom : (wantedPorts robot_info es vid).length ≤ (freeSlots robot_info es).length) :
    (if wantedPorts robot_info es vid = [] then es.length else 0) = 0 ↔
      AllMoved es vid (wantedPorts robot_info es vid) := by
  by_cases hwanted : wantedPorts robot_info es vid = []
  · rw [if_pos hwanted, hwanted, List.length_eq_zero_iff]
    by_cases hvid : vid = []
    · subst hvid
      simp only [AllMoved, if_true]
      constructor
      · rintro rfl i hi
        exact absurd hi not_requested_nil
      · intro hall
        by_contra hes
        obtain ⟨i, hi⟩ := h.none_wanted hwanted hes rfl
        exact List.not_mem_nil (hall i hi)
    · exact iff_of_false (h.none_found hwanted hvid) (not_allMoved_nil hvid)
  · rw [if_neg hwanted]
    refine iff_of_true rfl ?_
    by_cases hvid : vid = []
    · obtain ⟨last, hlast⟩ : ∃ last, (wantedPorts robot_info es vid).getLast? = some last :=
        ⟨_, List.getLast?_eq_some_getLast hwanted⟩
      have hall := (h.all_wanted hvid hroom last hlast).2
      simpa only [AllMoved, if_pos hvid] using hall
    · have hpos := List.length_pos_iff.mpr hwanted
      have hone := length_wantedPorts_le robot_info es hvid
      obtain ⟨i, hi⟩ := List.length_eq_one_iff.mp (show (wantedPorts robot_info es vid).length = 1
        by omega)
      have hiff := h.the_one hvid (List.ne_nil_of_length_pos (by omega)) i (by simp [hi])
      rw [AllMoved, if_neg hvid, hi]
      exact ⟨⟨i, (hiff i).mpr rfl⟩, fun i' => by rw [hiff i', List.mem_singleton]⟩

theorem Condition.goodMoves (h : Condition robot_info es vid) {moved : List Move}
    (hpre : moved <+: plan (wantedPorts robot_info es vid) (freeSlots robot_info es)) :
    GoodMoves es moved := by
  have hdests : moved.map Move.dest <+: usedSlots robot_info es vid := by
    have := hpre.map Move.dest
    rwa [plan_dests] at this
  exact ⟨fun j hj => h.free j (hdests.subset hj), h.once.sublist (hdests.map _).sublist⟩

theorem exists_first_failure {n : Nat} (h : ¬ ∀ m < n, move m = .ok ()) :
    ∃ k < n, ∃ err, move k = .error err ∧ ∀ m < k, move m = .ok () := by
  push Not at h
  obtain ⟨hlt, hfirst⟩ := Nat.find_spec h
  cases herr : move (Nat.find h) with
  | ok _ => exact absurd herr hfirst
  | error err =>
    refine ⟨_, hlt, err, herr, fun m hm => ?_⟩
    by_contra hbad
    exact Nat.find_min h hm ⟨Nat.lt_trans hm hlt, hbad⟩

theorem right_of_condition (h : Condition robot_info es vid) : Right robot_info es vid := by
  intro move
  obtain ⟨M, hM⟩ := exists_marking h.drives h.homes
  by_cases hall : ∀ m < min (wantedPorts robot_info es vid).length
      (freeSlots robot_info es).length, move m = .ok ()
  · by_cases hroom : (wantedPorts robot_info es vid).length ≤ (freeSlots robot_info es).length
    · refine ⟨_, import_completes hM hroom (h.ports hroom) fun m hm => hall m (by omega),
        h.goodMoves List.prefix_rfl, ?_⟩
      rw [plan_sources, List.take_of_length_le hroom]
      exact h.result.allMoved_iff hroom
    · have hless := Nat.lt_of_not_le hroom
      refine ⟨_, import_exhausted hM hless (h.slots hless) fun m hm => hall m (by omega),
        h.goodMoves List.prefix_rfl, ?_⟩
      rw [plan_sources]
      exact iff_of_false Nat.one_ne_zero (h.result.not_allMoved hless (Nat.le_refl _))
  · obtain ⟨k, hk, err, herr, hok⟩ := exists_first_failure hall
    obtain ⟨message, hrun⟩ := import_fails vid hM (by omega) (by omega) hok herr
    refine ⟨_, hrun, h.goodMoves (List.take_prefix _ _), ?_⟩
    rw [take_plan_sources (by omega)]
    exact iff_of_false (SmcDismount.smc_lasterror_ne_zero err)
      (h.result.not_allMoved (by omega) (by omega))

/-- What is known when the import is right and the library does all that it is told. -/
structure Served (robot_info : RobotInfo) (es : List SmcElementInfo) (vid : List UInt8)
    (rc : Nat) : Prop where
  good : GoodMoves es (plan (wantedPorts robot_info es vid) (freeSlots robot_info es))
  result : rc = 0 ↔
    AllMoved es vid ((wantedPorts robot_info es vid).take (freeSlots robot_info es).length)

theorem served_of_run (h : Right robot_info es vid) {rc : Nat} {message : Option Message}
    (hrun : smc_import robot_info true (.ok es) (fun _ => .ok ()) vid =
      .ok ⟨plan (wantedPorts robot_info es vid) (freeSlots robot_info es), rc, message⟩) :
    Served robot_info es vid rc := by
  obtain ⟨outcome, hrun', hgood, hresult⟩ := h fun _ => .ok ()
  obtain rfl := Except.ok.inj (hrun'.symm.trans hrun)
  rw [plan_sources] at hresult
  exact ⟨hgood, hresult⟩

theorem Served.free {rc : Nat} (h : Served robot_info es vid rc) :
    (∀ j ∈ usedSlots robot_info es vid, ∃ e, es[j]? = some e ∧ FreeSlot es e) ∧
      ((usedSlots robot_info es vid).map (addressAt es)).Nodup := by
  have hgood := h.good
  rw [usedSlots, ← plan_dests]
  exact ⟨hgood.free, hgood.once⟩

theorem requested_last (h : Right robot_info es []) {M : List Nat} (hM : Marking robot_info es M)
    (hroom : (wantedPorts robot_info es []).length ≤ (freeSlots robot_info es).length)
    (hall : ∀ i, Requested es [] i → i ∈ wantedPorts robot_info es []) {last : Nat}
    (hlast : (wantedPorts robot_info es []).getLast? = some last) : Requested es [] last := by
  obtain ⟨front, hfront⟩ := List.getLast?_eq_some_iff.mp hlast
  have hlength : (wantedPorts robot_info es []).length = front.length + 1 := by simp [hfront]
  let move : Nat → Except ScsiError Unit := fun m =>
    if m < front.length then .ok () else .error ⟨0, 0, 0, 0, 0, 0⟩
  have hok : ∀ m < front.length, move m = .ok () := fun m hm => if_pos hm
  have herr : move front.length = .error ⟨0, 0, 0, 0, 0, 0⟩ := if_neg (Nat.lt_irrefl _)
  obtain ⟨message, hrun⟩ := import_fails [] hM (by omega) (by omega) hok herr
  obtain ⟨outcome, hrun', -, hresult⟩ := h move
  obtain rfl := Except.ok.inj (hrun'.symm.trans hrun)
  rw [take_plan_sources (by omega), hfront, List.take_left' rfl] at hresult
  have hnot : ¬ AllMoved es [] front := fun hmoved =>
    SmcDismount.smc_lasterror_ne_zero ⟨0, 0, 0, 0, 0, 0⟩ (hresult.mpr hmoved)
  simp only [AllMoved, if_true] at hnot
  push Not at hnot
  obtain ⟨i, hi, hmem⟩ := hnot
  have hwanted := hall i hi
  rw [hfront, List.mem_append, List.mem_singleton] at hwanted
  rwa [← hwanted.resolve_left hmem]

section Served
variable {rc : Nat}

theorem Served.enough (h : Served robot_info es vid rc)
    (hroom : (wantedPorts robot_info es vid).length ≤ (freeSlots robot_info es).length) :
    rc = 0 ↔ AllMoved es vid (wantedPorts robot_info es vid) := by
  have hresult := h.result
  rwa [List.take_of_length_le hroom] at hresult

theorem allMoved_nil {sources : List Nat} :
    AllMoved es [] sources ↔ ∀ i, Requested es [] i → i ∈ sources := by
  simp only [AllMoved, if_true]

theorem resultRight_enough (h : Right robot_info es vid) {M : List Nat}
    (hM : Marking robot_info es M)
    (hroom : (wantedPorts robot_info es vid).length ≤ (freeSlots robot_info es).length)
    (hserved : Served robot_info es vid
      (if wantedPorts robot_info es vid = [] then es.length else 0)) :
    ResultRight robot_info es vid where
  none_wanted hnone hes hvid := by
    subst hvid
    have hresult := hserved.enough hroom
    rw [if_pos hnone, hnone, List.length_eq_zero_iff, allMoved_nil] at hresult
    have hnot := mt hresult.mpr hes
    push Not at hnot
    obtain ⟨i, hi, -⟩ := hnot
    exact ⟨i, hi⟩
  none_found hnone hvid hes := by
    have hresult := hserved.enough hroom
    rw [if_pos hnone, hnone, List.length_eq_zero_iff] at hresult
    exact not_allMoved_nil hvid (hresult.mp hes)
  all_wanted hvid _ last hlast := by
    subst hvid
    have hresult := hserved.enough hroom
    rw [if_neg (List.ne_nil_of_mem (List.mem_of_getLast? hlast)), allMoved_nil] at hresult
    have hall := hresult.mp rfl
    exact ⟨requested_last h hM hroom hall hlast, hall⟩
  some_left _ hless := absurd hroom (Nat.not_le_of_lt hless)
  the_one hvid _ i hi := by
    have hresult := hserved.enough hroom
    have hone := length_wantedPorts_le robot_info es hvid
    have hpos := List.length_pos_of_mem hi
    obtain ⟨i', hi'⟩ := List.length_eq_one_iff.mp
      (show (wantedPorts robot_info es vid).length = 1 by omega)
    rw [hi', List.mem_singleton] at hi
    rw [if_neg (by simp [hi']), AllMoved, if_neg hvid, hi'] at hresult
    intro i''
    rw [(hresult.mp rfl).2 i'', List.mem_singleton, hi]

theorem resultRight_exhausted
    (hless : (freeSlots robot_info es).length < (wantedPorts robot_info es vid).length)
    (hserved : Served robot_info es vid RBT_NORETRY) : ResultRight robot_info es vid where
  none_wanted hnone := by simp [hnone] at hless
  none_found hnone := by simp [hnone] at hless
  all_wanted _ hroom := absurd hroom (Nat.not_le_of_lt hless)
  some_left hvid _ := by
    subst hvid
    have hnot := mt hserved.result.mpr Nat.one_ne_zero
    rw [allMoved_nil] at hnot
    push Not at hnot
    exact hnot
  the_one hvid hfree := by
    have hone := length_wantedPorts_le robot_info es hvid
    have hpos := List.length_pos_iff.mpr hfree
    omega

end Served

theorem condition_of_right (h : Right robot_info es vid) : Condition robot_info es vid := by
  obtain ⟨outcome, hrun, -, -⟩ := h fun _ => .ok ()
  obtain ⟨hdrives, hhomes⟩ := homes_of_ok hrun
  obtain ⟨M, hM⟩ := exists_marking hdrives hhomes
  rw [hM.import_eq] at hrun
  have hslots (hroom : (freeSlots robot_info es).length < (wantedPorts robot_info es vid).length) :
      ∀ j ∈ slots robot_info es, j < es.length :=
    importPorts_slots_filled 0 es.length [] hM.free hroom (fun _ => rfl) hrun
  have hports (hroom : (wantedPorts robot_info es vid).length ≤ (freeSlots robot_info es).length)
      (hnone : vid = [] ∨ wantedPorts robot_info es vid = []) :
      ∀ i ∈ ports robot_info es, i < es.length :=
    importPorts_filled 0 es.length [] hM.free hroom (fun _ => rfl) hnone hrun
  by_cases hroom : (wantedPorts robot_info es vid).length ≤ (freeSlots robot_info es).length
  · have hserved := served_of_run h (import_completes hM hroom (hports hroom) fun _ _ => rfl)
    exact ⟨hdrives, hhomes, hslots, hports, hserved.free.1, hserved.free.2,
      resultRight_enough h hM hroom hserved⟩
  · have hless := Nat.lt_of_not_le hroom
    have hserved := served_of_run h (import_exhausted hM hless (hslots hless) fun _ _ => rfl)
    exact ⟨hdrives, hhomes, hslots, hports, hserved.free.1, hserved.free.2,
      resultRight_exhausted hless hserved⟩

end Import

/-- The import is right exactly under this condition on the geometry and the inventory. -/
theorem smc_import_right_iff (robot_info : RobotInfo) (es : List SmcElementInfo)
    (vid : List UInt8) : Right robot_info es vid ↔ Condition robot_info es vid :=
  ⟨condition_of_right, right_of_condition⟩

def onePort : List SmcElementInfo :=
  [⟨0x200, 2, 0, 0, 0, 0, 0, [], by decide⟩, ⟨0x10, 3, 3, 0, 0, 0, 0, [86, 49], by decide⟩]

example : Right ⟨[], 0, 0, 0x200, 1, 0x10, 1, 0x100, 0, by decide⟩ onePort [] := by
  have hport : Requested onePort [] 1 := ⟨_, rfl, by decide, by decide, by decide⟩
  have hports : ∀ i, Requested onePort [] i → i ∈ [1] := by
    rintro (_ | _ | i) ⟨e, he, htype, -⟩
    · obtain rfl := Option.some.inj he
      exact absurd htype (by decide)
    · exact List.mem_singleton_self 1
    · cases he
  intro move
  have hrun : smc_import ⟨[], 0, 0, 0x200, 1, 0x10, 1, 0x100, 0, by decide⟩ true (.ok onePort) move
      [] = match move 0 with
        | .error err => .ok ⟨[], smc_lasterror err, some (.importFailed [86, 49] err)⟩
        | .ok () => .ok ⟨[⟨1, 0⟩], 0, none⟩ := rfl
  cases h : move 0 with
  | ok _ =>
    refine ⟨⟨[⟨1, 0⟩], 0, none⟩, by rw [hrun, h], ⟨?_, by decide⟩, iff_of_true rfl hports⟩
    intro j hj
    obtain rfl := List.mem_singleton.mp hj
    exact ⟨_, rfl, by decide, by decide, by decide⟩
  | error err =>
    refine ⟨_, by rw [hrun, h], ⟨by simp, by simp⟩,
      iff_of_false (SmcDismount.smc_lasterror_ne_zero err) fun hall => ?_⟩
    exact List.not_mem_nil (hall 1 hport)

def oneSlot : RobotInfo := ⟨[], 0, 0, 0x200, 1, 0, 0, 0x100, 1, by decide⟩

def homeless : List SmcElementInfo :=
  [⟨0x100, 4, 1, 0, 0, 0, 0x700, [86, 49], by decide⟩, ⟨0x200, 2, 0, 0, 0, 0, 0, [], by decide⟩]

theorem homeless_marked :
    smc_import oneSlot true (.ok homeless) (fun _ => .ok ()) [] = .error ⟨2⟩ := rfl

/-- What is marked as the home is the entry behind the two of the inventory. -/
theorem homeless_not_right : ¬ Right oneSlot homeless [] := by
  intro h
  obtain ⟨outcome, hrun, -⟩ := h fun _ => .ok ()
  rw [homeless_marked] at hrun
  cases hrun

end Cta.MediaChanger.SmcImport

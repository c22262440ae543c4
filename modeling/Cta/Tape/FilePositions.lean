import Mathlib.Algebra.Ring.BooleanRing
import Mathlib.Data.List.Basic
import Mathlib.Data.List.Pairwise

/-! Where the files of a tape are: wraps, bands and landing zones. -/
namespace Cta.Tape.FilePositions

structure EndOfWrapPosition where
  wrapNumber : UInt16
  blockId : UInt64
  partition : UInt16
  deriving DecidableEq, Repr

inductive Failure where
  | exception (message : String)
  | divisionByZero
  deriving DecidableEq, Repr

def nbBlocksPerWrap (endOfWrapPositions : List EndOfWrapPosition) : UInt64 :=
  (endOfWrapPositions.zip endOfWrapPositions.tail).foldl
    (fun nbBlocksPerWrap p => nbBlocksPerWrap + (p.2.blockId - p.1.blockId)) 0

/-- The penultimate end and the mean give the last one, if there are two. -/
def improveEndOfLastWrapPositionIfPossible (endOfWrapPositions : List EndOfWrapPosition) :
    List EndOfWrapPosition :=
  match endOfWrapPositions.reverse with
  | last :: penultimate :: _ =>
    let meanNbBlocksPerWrap := UInt64.ofNat
      ((nbBlocksPerWrap endOfWrapPositions).toNat / endOfWrapPositions.length)
    endOfWrapPositions.dropLast ++
      [{ last with blockId := penultimate.blockId + meanNbBlocksPerWrap }]
  | _ => endOfWrapPositions

def determineWrapNb (m_endOfWrapPositions : List EndOfWrapPosition) (blockId : UInt64) :
    Except Failure UInt16 :=
  if m_endOfWrapPositions.isEmpty then
    .error (.exception ("In InterpolationFilePositionEstimator::determineWrapNb(), unable to " ++
      "find the wrap number of the blockId " ++ toString blockId.toNat ++
      " because no EOWP informations have been found."))
  else if m_endOfWrapPositions.length = 1 then .ok 0
  else
    match m_endOfWrapPositions.find? fun position => ¬blockId > position.blockId with
    | some position => .ok position.wrapNumber
    | none =>
      let last := (m_endOfWrapPositions.getLast?.map (·.blockId.toNat)).getD 0
      .error (.exception ("In InterpolationFilePositionEstimator::determineWrapNb(), the " ++
        "blockId " ++ toString blockId.toNat ++ " is greater than the last wrap EOWP blockId (" ++
        toString last ++ ")"))

/-- The end of the last wrap is not lowered, and no block loses the wrap that it was found in. -/
def Improves (endOfWrapPositions : List EndOfWrapPosition) : Prop :=
  let improved := improveEndOfLastWrapPositionIfPossible endOfWrapPositions
  (∀ last last', endOfWrapPositions.getLast? = some last → improved.getLast? = some last' →
    last.blockId ≤ last'.blockId) ∧
  ∀ blockId wrap, determineWrapNb endOfWrapPositions blockId = .ok wrap →
    determineWrapNb improved blockId = .ok wrap

/-- The last wrap is no longer than the blocks of all wraps but the first one, divided by the number
of wraps, and the end that these come to is a 64-bit number. -/
def LastWrapShort (endOfWrapPositions : List EndOfWrapPosition) : Prop :=
  ∀ first before penultimate last, endOfWrapPositions = before ++ [penultimate, last] →
    endOfWrapPositions.head? = some first →
    let extrapolated := penultimate.blockId.toNat +
      (last.blockId.toNat - first.blockId.toNat) / endOfWrapPositions.length
    last.blockId.toNat ≤ extrapolated ∧ extrapolated < 2 ^ 64

section
variable {l before : List EndOfWrapPosition} {first penultimate last : EndOfWrapPosition}

theorem foldl_differences (first : EndOfWrapPosition) (l : List EndOfWrapPosition) (n : UInt64) :
    ((first :: l).zip l).foldl
      (fun nbBlocksPerWrap p => nbBlocksPerWrap + (p.2.blockId - p.1.blockId)) n =
      n + (((first :: l).getLast (List.cons_ne_nil _ _)).blockId - first.blockId) := by
  induction l generalizing first n with
  | nil => simp
  | cons p l ih =>
    rw [List.zip_cons_cons, List.foldl_cons, ih, List.getLast_cons (List.cons_ne_nil p l)]
    grind

theorem nbBlocksPerWrap_eq (h : l = before ++ [penultimate, last]) (hfirst : l.head? = some first) :
    nbBlocksPerWrap l = last.blockId - first.blockId := by
  obtain ⟨rest, rfl⟩ := List.head?_eq_some_iff.mp hfirst
  have hlast : (first :: rest).getLast (List.cons_ne_nil _ _) = last := by
    simp [h]
  rw [nbBlocksPerWrap, List.tail_cons, foldl_differences, hlast, UInt64.zero_add]

theorem improve_eq (h : l = before ++ [penultimate, last]) (hfirst : l.head? = some first)
    (hle : first.blockId ≤ last.blockId) :
    improveEndOfLastWrapPositionIfPossible l = before ++ [penultimate,
      { last with blockId := UInt64.ofNat (penultimate.blockId.toNat +
          (last.blockId.toNat - first.blockId.toNat) / l.length) }] := by
  have hreverse : l.reverse = last :: penultimate :: before.reverse := by rw [h]; simp
  have hdrop : l.dropLast = before ++ [penultimate] := by
    rw [h, ← List.singleton_append, ← List.append_assoc, List.dropLast_concat]
  unfold improveEndOfLastWrapPositionIfPossible
  rw [hreverse]
  simp only
  rw [hdrop, nbBlocksPerWrap_eq h hfirst, UInt64.toNat_sub_of_le _ _ hle, UInt64.ofNat_add,
    UInt64.ofNat_toNat, List.append_assoc]
  rfl

theorem determineWrapNb_of_two (h : 1 < l.length) (blockId : UInt64) (wrap : UInt16) :
    determineWrapNb l blockId = .ok wrap ↔ ∃ position,
      l.find? (fun position => ¬blockId > position.blockId) = some position ∧
        position.wrapNumber = wrap := by
  have hne : l.isEmpty = false := by
    cases l with
    | nil => simp at h
    | cons p l => rfl
  unfold determineWrapNb
  rw [if_neg (by simp [hne]), if_neg (by omega)]
  cases l.find? fun position => ¬blockId > position.blockId with
  | none => simp
  | some position => simp

theorem determineWrapNb_raised {end' : UInt64} (hle : last.blockId ≤ end') {blockId : UInt64}
    {wrap : UInt16} (h : determineWrapNb (before ++ [penultimate, last]) blockId = .ok wrap) :
    determineWrapNb (before ++ [penultimate, { last with blockId := end' }]) blockId =
      .ok wrap := by
  obtain ⟨position, hfind, hwrap⟩ := (determineWrapNb_of_two (by simp) _ _).mp h
  refine (determineWrapNb_of_two (by simp) _ _).mpr ?_
  rw [List.append_cons, List.find?_append] at hfind ⊢
  cases hfront : (before ++ [penultimate]).find? fun position => ¬blockId > position.blockId with
  | some front =>
    rw [hfront] at hfind
    exact ⟨front, rfl, by cases hfind; exact hwrap⟩
  | none =>
    rw [hfront, Option.none_or] at hfind
    have hmem := List.mem_of_find?_eq_some hfind
    obtain rfl := List.mem_singleton.mp hmem
    have hblock : blockId ≤ position.blockId := by simpa using List.find?_some hfind
    have hraised : blockId ≤ end' := UInt64.le_trans hblock hle
    exact ⟨{ position with blockId := end' }, by simp [hraised], hwrap⟩

theorem mod_extrapolated {n p d : Nat} (hp : p < 2 ^ 64) (hd : d < 2 ^ 64)
    (hlarge : 2 ^ 64 ≤ p + d / n) : (p + d / n) % 2 ^ 64 < p := by
  have hle : d / n ≤ d := Nat.div_le_self d n
  omega

/-- The improvement improves if and only if the last wrap is short. -/
theorem improves_iff {l : List EndOfWrapPosition}
    (h : l.Pairwise fun p q => p.blockId ≤ q.blockId) : Improves l ↔ LastWrapShort l := by
  have hone : ∀ l : List EndOfWrapPosition, improveEndOfLastWrapPositionIfPossible l = l →
      Improves l := by
    intro l heq
    refine ⟨fun last last' hlast hlast' => ?_, fun blockId wrap hwrap => by rwa [heq]⟩
    rw [heq, hlast] at hlast'
    exact UInt64.le_of_eq (congrArg _ (Option.some.inj hlast'))
  match hl : l.reverse with
  | [] =>
    obtain rfl := List.reverse_eq_nil_iff.mp hl
    exact iff_of_true (hone _ rfl) fun _ _ _ _ h => by simp at h
  | [last] =>
    obtain rfl : l = [last] := by simpa using congrArg List.reverse hl
    refine iff_of_true (hone _ rfl) fun _ before _ _ h => ?_
    have hlength := congrArg List.length h
    simp at hlength
  | last :: penultimate :: front =>
    have hsplit : l = front.reverse ++ [penultimate, last] := by
      simpa using congrArg List.reverse hl
    generalize front.reverse = before at hsplit
    obtain ⟨first, hfirst⟩ : ∃ first, l.head? = some first := by
      cases before <;> simp [hsplit]
    have hpenultimate : penultimate.blockId ≤ last.blockId := by
      rw [hsplit] at h
      exact (List.pairwise_cons.mp (List.pairwise_append.mp h).2.1).1 last List.mem_cons_self
    have hle : first.blockId ≤ last.blockId := by
      have hmem : first ∈ before ++ [penultimate] := by
        rw [hsplit] at hfirst
        cases before with
        | nil => simpa using (Option.some.inj hfirst).symm
        | cons p before => simpa using .inl (Option.some.inj hfirst).symm
      rw [hsplit, List.append_cons] at h
      exact (List.pairwise_append.mp h).2.2 first hmem last List.mem_cons_self
    have himproved := improve_eq hsplit hfirst hle
    have hbound := mod_extrapolated (n := l.length) penultimate.blockId.toNat_lt
      (Nat.lt_of_le_of_lt (Nat.sub_le last.blockId.toNat first.blockId.toNat)
        last.blockId.toNat_lt)
    obtain ⟨end', hend⟩ : ∃ end', UInt64.ofNat (penultimate.blockId.toNat +
        (last.blockId.toNat - first.blockId.toNat) / l.length) = end' := ⟨_, rfl⟩
    have hvalue : end'.toNat = (penultimate.blockId.toNat +
        (last.blockId.toNat - first.blockId.toNat) / l.length) % 2 ^ 64 := by
      rw [← hend]
      exact UInt64.toNat_ofNat'
    rw [hend] at himproved
    rw [UInt64.le_iff_toNat_le] at hpenultimate
    constructor
    · rintro ⟨hlast, -⟩ first' before' penultimate' last' hsplit' hfirst'
      obtain ⟨rfl, hends⟩ := List.append_inj' (hsplit.symm.trans hsplit') rfl
      cases hends
      cases hfirst.symm.trans hfirst'
      have hraised := hlast last _ (by simp [hsplit]) (by rw [himproved]; simp; rfl)
      rw [UInt64.le_iff_toNat_le, hvalue] at hraised
      by_cases hlarge : 2 ^ 64 ≤ penultimate.blockId.toNat +
          (last.blockId.toNat - first.blockId.toNat) / l.length
      · have := hbound hlarge
        omega
      · exact ⟨by rwa [Nat.mod_eq_of_lt (by omega)] at hraised, by omega⟩
    · intro hshort
      obtain ⟨hle', hsmall⟩ := hshort first before penultimate last hsplit hfirst
      have hraised : last.blockId ≤ end' := by
        rw [UInt64.le_iff_toNat_le, hvalue, Nat.mod_eq_of_lt hsmall]
        exact hle'
      refine ⟨fun last' last'' hlast' hlast'' => ?_, fun blockId wrap hwrap => ?_⟩
      · rw [himproved] at hlast''
        obtain rfl : last = last' := by simpa [hsplit] using hlast'
        obtain rfl := by simpa using hlast''
        exact hraised
      · rw [himproved]
        rw [hsplit] at hwrap
        exact determineWrapNb_raised hraised hwrap

end

def endOfWrap (wrapNumber : UInt16) (blockId : UInt64) : EndOfWrapPosition :=
  ⟨wrapNumber, blockId, 0⟩

theorem improves_iff_begun :
    Improves [endOfWrap 0 100, endOfWrap 1 200, endOfWrap 2 210] := by
  refine (improves_iff (by decide)).mpr ?_
  intro first before penultimate last hsplit hfirst
  have hsplit' : before ++ [penultimate, last] =
      [endOfWrap 0 100] ++ [endOfWrap 1 200, endOfWrap 2 210] := hsplit.symm
  obtain ⟨rfl, hends⟩ := List.append_inj' hsplit' rfl
  cases hends
  cases hfirst
  decide

/-- A last wrap that is as long as the others loses its end. -/
theorem not_improves_full :
    ¬Improves [endOfWrap 0 100, endOfWrap 1 200, endOfWrap 2 300] := by
  intro h
  have hlast := h.1 (endOfWrap 2 300) (endOfWrap 2 266) (by decide) (by decide)
  exact absurd hlast (by decide)

structure MediaType where
  name : String
  nbWraps : Option UInt32
  minLPos : Option UInt64
  maxLPos : Option UInt64
  deriving DecidableEq, Repr

structure Position where
  wrap : UInt32
  lpos : UInt64
  deriving DecidableEq, Repr

structure FilePositionInfos where
  beginningPosition : Position
  endPosition : Position
  beginningBand : UInt8
  endBand : UInt8
  beginningLandingZone : UInt8
  endLandingZone : UInt8
  deriving DecidableEq, Repr

def determineBand (nbWrapsOnTape wrapNumber : UInt32) : Except Failure UInt8 :=
  let nbBandsTape := 4
  if wrapNumber > nbWrapsOnTape - 1 then
    .error (.exception ("In RAOHelpers::determineBand(), the wrapNumber (" ++
      toString wrapNumber.toNat ++ ") of the file is greater than the number of wraps the tape " ++
      "contains (" ++ toString nbWrapsOnTape.toNat ++ ")."))
  else if nbWrapsOnTape / nbBandsTape = 0 then .error .divisionByZero
  else .ok (wrapNumber / (nbWrapsOnTape / nbBandsTape)).toUInt8

def determineLandingZone (minTapeLpos maxTapeLpos blockLpos : UInt64) : UInt8 :=
  let mid := (maxTapeLpos - minTapeLpos) / 2
  if blockLpos < mid then 0 else 1

structure InterpolationFilePositionEstimator where
  m_endOfWrapPositions : List EndOfWrapPosition
  nbWraps : UInt32
  minLPos : UInt64
  maxLPos : UInt64

namespace InterpolationFilePositionEstimator

def create (endOfWrapPositions : List EndOfWrapPosition) (mediaType : MediaType) :
    Except Failure InterpolationFilePositionEstimator :=
  match mediaType.minLPos, mediaType.maxLPos, mediaType.nbWraps with
  | some minLPos, some maxLPos, some nbWraps =>
    .ok ⟨endOfWrapPositions, nbWraps, minLPos, maxLPos⟩
  | some _, some _, none =>
    .error (.exception ("In InterpolationFilePositionEstimator::checkMediaTypeConsistency(), " ++
      "the media type (" ++ mediaType.name ++ ") associated to the tape mounted does not give " ++
      "informations about the number of wraps the media contains."))
  | _, _, _ =>
    .error (.exception ("In InterpolationFilePositionEstimator::checkMediaTypeConsistency(), " ++
      "the media type (" ++ mediaType.name ++ ") associated to the tape does not give informations " ++
      "about the minLPos and maxLPos."))

variable (e : InterpolationFilePositionEstimator)

def c_blockSize : UInt64 := 256 * 1024

def determineEndBlockId (blockId fileSize : UInt64) : UInt64 := blockId + fileSize / c_blockSize + 1

/-- The longitudinal position is computed with floating point numbers. -/
def getPhysicalPosition (determineLPos : UInt64 → UInt16 → UInt64) (blockId : UInt64) :
    Except Failure Position := do
  let wrap ← determineWrapNb e.m_endOfWrapPositions blockId
  return ⟨wrap.toUInt32, determineLPos blockId wrap⟩

def classify (beginningPosition endPosition : Position) : Except Failure FilePositionInfos := do
  let beginningBand ← determineBand e.nbWraps beginningPosition.wrap
  let endBand ← determineBand e.nbWraps endPosition.wrap
  return {
    beginningPosition, endPosition, beginningBand, endBand
    beginningLandingZone := determineLandingZone e.minLPos e.maxLPos beginningPosition.lpos
    endLandingZone := determineLandingZone e.minLPos e.maxLPos endPosition.lpos }

def getFilePosition (determineLPos : UInt64 → UInt16 → UInt64) (blockId fileSize : UInt64) :
    Except Failure FilePositionInfos := do
  let beginningPosition ← e.getPhysicalPosition determineLPos blockId
  let endPosition ← e.getPhysicalPosition determineLPos (determineEndBlockId blockId fileSize)
  e.classify beginningPosition endPosition

def OnTape (p : Position) : Prop := p.wrap < e.nbWraps ∧ e.minLPos ≤ p.lpos ∧ p.lpos ≤ e.maxLPos

/-- The position is nearer to the start of the interval than to its end. -/
def FirstHalf (lpos : UInt64) : Prop :=
  2 * lpos.toNat < e.minLPos.toNat + e.maxLPos.toNat

/-- The bands are between 0 and 3 and follow the wraps, and landing zone 0 is the first half. -/
structure Right (infos : FilePositionInfos) : Prop where
  beginningBand : infos.beginningBand ≤ 3
  endBand : infos.endBand ≤ 3
  ordered : infos.beginningPosition.wrap ≤ infos.endPosition.wrap →
    infos.beginningBand ≤ infos.endBand
  beginningLandingZone : infos.beginningLandingZone = 0 ↔ e.FirstHalf infos.beginningPosition.lpos
  endLandingZone : infos.endLandingZone = 0 ↔ e.FirstHalf infos.endPosition.lpos

def Classifies : Prop :=
  ∀ p q, e.OnTape p → e.OnTape q → ∃ infos, e.classify p q = .ok infos ∧
    infos.beginningPosition = p ∧ infos.endPosition = q ∧ e.Right infos

section
variable {n w : UInt32} {e}

theorem determineBand_eq (hw : w < n) : determineBand n w =
    if n.toNat / 4 = 0 then .error .divisionByZero
    else .ok (UInt8.ofNat (w.toNat / (n.toNat / 4))) := by
  rw [UInt32.lt_iff_toNat_lt] at hw
  have hone : (1 : UInt32) ≤ n := by
    rw [UInt32.le_iff_toNat_le]
    exact Nat.lt_of_le_of_lt (Nat.zero_le _) hw
  have hin : ¬w > n - 1 := by
    rw [gt_iff_lt, UInt32.lt_iff_toNat_lt, UInt32.toNat_sub_of_le _ _ hone]
    have : (1 : UInt32).toNat = 1 := rfl
    omega
  have hquarter : (n / 4).toNat = n.toNat / 4 := UInt32.toNat_div _ _
  have hzero : n / 4 = 0 ↔ n.toNat / 4 = 0 := by rw [← UInt32.toNat_inj, hquarter]; rfl
  unfold determineBand
  simp only [if_neg hin, hzero]
  split
  · rfl
  · rfl

theorem band_lt (hn : n.toNat / 4 ≠ 0) (hw : w < n) :
    (UInt8.ofNat (w.toNat / (n.toNat / 4))).toNat = w.toNat / (n.toNat / 4) := by
  rw [UInt32.lt_iff_toNat_lt] at hw
  have hlt : w.toNat / (n.toNat / 4) < 8 := by
    rw [Nat.div_lt_iff_lt_mul (Nat.pos_of_ne_zero hn)]
    omega
  rw [UInt8.toNat_ofNat']
  exact Nat.mod_eq_of_lt (by omega)

theorem landingZone_iff (hle : e.minLPos ≤ e.maxLPos) (lpos : UInt64) :
    determineLandingZone e.minLPos e.maxLPos lpos = 0 ↔
      lpos.toNat < (e.maxLPos.toNat - e.minLPos.toNat) / 2 := by
  have hmid : ((e.maxLPos - e.minLPos) / 2).toNat = (e.maxLPos.toNat - e.minLPos.toNat) / 2 := by
    rw [UInt64.toNat_div, UInt64.toNat_sub_of_le _ _ hle]
    rfl
  unfold determineLandingZone
  simp only [UInt64.lt_iff_toNat_lt, hmid]
  split <;> simp_all

theorem div_quarter_le {n w : ℕ} (hn : 0 < n) (hw : w < n) (hfour : 4 ∣ n) : w / (n / 4) ≤ 3 := by
  obtain ⟨k, rfl⟩ := hfour
  have hk : 4 * k / 4 = k := Nat.mul_div_cancel_left k (by decide)
  rw [hk]
  have : w / k < 4 := by
    rw [Nat.div_lt_iff_lt_mul (by omega)]
    exact hw
  omega

theorem four_dvd_of_last {n : ℕ} (hn : n / 4 ≠ 0) (hlast : (n - 1) / (n / 4) ≤ 3) : 4 ∣ n := by
  have : n - 1 < 4 * (n / 4) := by
    rw [← Nat.div_lt_iff_lt_mul (Nat.pos_of_ne_zero hn)]
    omega
  omega

theorem zones_agree_iff {min max : ℕ} (hle : min ≤ max) :
    (∀ lpos, min ≤ lpos → lpos ≤ max → (lpos < (max - min) / 2 ↔ 2 * lpos < min + max)) ↔
      min = max ∨ min = 0 ∧ 2 ∣ max := by
  constructor
  · intro h
    -- the first position belongs to the first half, so that the code has to count it in
    by_cases heq : min = max
    · exact .inl heq
    have hstart : min < (max - min) / 2 := (h min le_rfl hle).mpr (by omega)
    -- the position in the middle of the length is the one the code counts out
    have hmid : ¬2 * ((max - min) / 2) < min + max := fun hhalf =>
      absurd ((h _ hstart.le ((Nat.div_le_self _ _).trans (Nat.sub_le _ _))).mpr hhalf)
        (Nat.lt_irrefl _)
    exact .inr ⟨by omega, by omega⟩
  · rintro (rfl | ⟨rfl, half, rfl⟩) lpos hmin hmax <;> omega

theorem onTape_last (hwraps : 1 ≤ e.nbWraps) (hle : e.minLPos ≤ e.maxLPos) :
    e.OnTape ⟨e.nbWraps - 1, e.minLPos⟩ := by
  refine ⟨?_, UInt64.le_refl _, hle⟩
  rw [UInt32.le_iff_toNat_le] at hwraps
  have hone : (1 : UInt32).toNat = 1 := rfl
  rw [UInt32.lt_iff_toNat_lt, UInt32.toNat_sub_of_le _ _ (by rwa [UInt32.le_iff_toNat_le])]
  omega

theorem classify_eq {p q : Position} (hp : p.wrap < e.nbWraps) (hq : q.wrap < e.nbWraps)
    (hquarter : e.nbWraps.toNat / 4 ≠ 0) : e.classify p q = .ok {
      beginningPosition := p, endPosition := q
      beginningBand := UInt8.ofNat (p.wrap.toNat / (e.nbWraps.toNat / 4))
      endBand := UInt8.ofNat (q.wrap.toNat / (e.nbWraps.toNat / 4))
      beginningLandingZone := determineLandingZone e.minLPos e.maxLPos p.lpos
      endLandingZone := determineLandingZone e.minLPos e.maxLPos q.lpos } := by
  simp only [classify, determineBand_eq hp, determineBand_eq hq, if_neg hquarter]
  rfl

theorem classify_ok_quarter {p q : Position} {infos : FilePositionInfos}
    (hp : p.wrap < e.nbWraps) (h : e.classify p q = .ok infos) : e.nbWraps.toNat / 4 ≠ 0 := by
  intro hquarter
  rw [classify, determineBand_eq hp, if_pos hquarter] at h
  cases h

theorem classifies_iff (hwraps : 1 ≤ e.nbWraps) (hle : e.minLPos ≤ e.maxLPos) :
    e.Classifies ↔ 4 ∣ e.nbWraps.toNat ∧
      (e.minLPos = e.maxLPos ∨ e.minLPos = 0 ∧ 2 ∣ e.maxLPos.toNat) := by
  have hpositive : 0 < e.nbWraps.toNat := hwraps
  have hends : e.minLPos.toNat ≤ e.maxLPos.toNat := hle
  have hsame : e.minLPos = e.maxLPos ↔ e.minLPos.toNat = e.maxLPos.toNat :=
    UInt64.toNat_inj.symm
  have hzero : e.minLPos = 0 ↔ e.minLPos.toNat = 0 := by rw [← UInt64.toNat_inj]; rfl
  rw [hsame, hzero, ← zones_agree_iff hends]
  constructor
  · intro hclass
    have hlast := onTape_last hwraps hle
    refine ⟨?_, fun lpos hmin hmax => ?_⟩
    · obtain ⟨infos, hok, -, -, hright⟩ := hclass _ _ hlast hlast
      have hquarter := classify_ok_quarter hlast.1 hok
      rw [classify_eq hlast.1 hlast.1 hquarter] at hok
      cases hok
      have hband := hright.beginningBand
      rw [UInt8.le_iff_toNat_le, band_lt hquarter hlast.1,
        UInt32.toNat_sub_of_le _ _ hwraps] at hband
      exact four_dvd_of_last hquarter hband
    · have hsize : (UInt64.ofNat lpos).toNat = lpos :=
        UInt64.toNat_ofNat_of_lt' (hmax.trans_lt (UInt64.toNat_lt _))
      have htape : e.OnTape ⟨e.nbWraps - 1, UInt64.ofNat lpos⟩ := by
        refine ⟨hlast.1, ?_, ?_⟩ <;> rw [UInt64.le_iff_toNat_le, hsize] <;> assumption
      obtain ⟨infos, hok, -, -, hright⟩ := hclass _ _ htape htape
      rw [classify_eq htape.1 htape.1 (classify_ok_quarter htape.1 hok)] at hok
      cases hok
      have hzone := hright.beginningLandingZone
      rw [landingZone_iff hle] at hzone
      simpa only [FirstHalf, hsize] using hzone
  · rintro ⟨hfour, hzones⟩ p q hp hq
    have hquarter : e.nbWraps.toNat / 4 ≠ 0 := by omega
    have hzone (r : Position) (hr : e.OnTape r) :
        determineLandingZone e.minLPos e.maxLPos r.lpos = 0 ↔ e.FirstHalf r.lpos := by
      rw [landingZone_iff hle]
      exact hzones r.lpos.toNat hr.2.1 hr.2.2
    have hband (r : Position) (hr : e.OnTape r) :
        UInt8.ofNat (r.wrap.toNat / (e.nbWraps.toNat / 4)) ≤ 3 := by
      rw [UInt8.le_iff_toNat_le, band_lt hquarter hr.1]
      exact div_quarter_le hpositive hr.1 hfour
    refine ⟨_, classify_eq hp.1 hq.1 hquarter, rfl, rfl, hband p hp, hband q hq, ?_,
      hzone p hp, hzone q hq⟩
    intro hwrap
    rw [UInt8.le_iff_toNat_le, band_lt hquarter hp.1, band_lt hquarter hq.1]
    exact Nat.div_le_div_right hwrap

end

/-- A tape with as many wraps and positions as an estimator knows of. -/
def blank (nbWraps : UInt32) (minLPos maxLPos : UInt64) : InterpolationFilePositionEstimator :=
  ⟨[], nbWraps, minLPos, maxLPos⟩

theorem classifies_iff_from_zero : (blank 112 0 171138).Classifies :=
  (classifies_iff (by decide) (by decide)).mpr ⟨by decide, .inr ⟨rfl, by decide⟩⟩

theorem not_classifies_seven : ¬(blank 7 0 171138).Classifies := by
  intro h
  obtain ⟨infos, hok, -, -, hright⟩ := h ⟨6, 0⟩ ⟨6, 0⟩
    ⟨by decide, by decide, by decide⟩ ⟨by decide, by decide, by decide⟩
  have hband : infos.beginningBand = 6 := by
    obtain rfl := Except.ok.inj hok
    rfl
  exact absurd (hband ▸ hright.beginningBand) (by decide)

end InterpolationFilePositionEstimator

end Cta.Tape.FilePositions

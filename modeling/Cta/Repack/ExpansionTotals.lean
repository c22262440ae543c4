import Cta.Repack.Expansion
import Mathlib.Algebra.Order.BigOperators.Group.List
import Mathlib.Tactic.Ring

/-! The totals of an expansion against the sub-requests that it keeps. -/
namespace Cta.Repack
open Cta.ObjectStore (sub64 sub64_of_le)

namespace TotalStatsFiles
variable (t d e : TotalStatsFiles)

@[simp] theorem add_totalFilesToArchive :
    (t + d).totalFilesToArchive = t.totalFilesToArchive + d.totalFilesToArchive := rfl

@[simp] theorem add_totalBytesToArchive :
    (t + d).totalBytesToArchive = t.totalBytesToArchive + d.totalBytesToArchive := rfl

@[simp] theorem add_totalFilesToRetrieve :
    (t + d).totalFilesToRetrieve = t.totalFilesToRetrieve + d.totalFilesToRetrieve := rfl

@[simp] theorem add_totalBytesToRetrieve :
    (t + d).totalBytesToRetrieve = t.totalBytesToRetrieve + d.totalBytesToRetrieve := rfl

@[simp] theorem add_userProvidedFiles :
    (t + d).userProvidedFiles = t.userProvidedFiles + d.userProvidedFiles := rfl

theorem add_assoc : t + d + e = t + (d + e) := by
  ext <;> simp [Nat.add_assoc]

theorem add_zero : t + {} = t := by
  ext <;> simp

theorem wrap_wrap : t.wrap.wrap = t.wrap := by
  ext <;> simp [wrap]

theorem wrap_add : (t.wrap + d).wrap = (t + d).wrap := by
  ext <;> simp [wrap]

end TotalStatsFiles

section
variable (ctx : ExpandContext) (f : ArchiveFile ctx.vid)

def tapeCopies : Finset Nat := (f.tapeFiles.map TapeFile.copyNb).toFinset

/-- Copies on the tape that is repacked. -/
def filesOnTape (vid : String) (tapeFiles : List TapeFile) : List TapeFile :=
  tapeFiles.filter (·.vid = vid)

def moved : Finset Nat :=
  if ctx.type.moves then ((filesOnTape ctx.vid f.tapeFiles).map TapeFile.copyNb).toFinset else ∅

/-- Routes of copies that the file does not have. -/
def newRoutes : Finset Nat := ctx.archiveRoutes f.storageClass \ tapeCopies ctx f

def nbCopies : Nat := (ctx.storageClasses f.storageClass).getD 0

def lacking : Nat := if ctx.type.adds then nbCopies ctx f - f.tapeFiles.length else 0

def toRearchive : Finset Nat := moved ctx f ∪ if 0 < lacking ctx f then newRoutes ctx f else ∅

def Kept : Prop := ctx.type.moves ∨ 0 < lacking ctx f

instance : Decidable (Kept ctx f) := inferInstanceAs (Decidable (_ ∨ _))

/-- The file makes the expansion fail: no storage class, no route for a copy to move, more tape
files than copies, or fewer copy numbers than copies to add. -/
def Refused : Prop :=
  ctx.storageClasses f.storageClass = none ∨
    (ctx.type.moves ∧ ¬ moved ctx f ⊆ ctx.archiveRoutes f.storageClass) ∨
    (ctx.type.adds ∧
      (nbCopies ctx f < f.tapeFiles.length ∨ (toRearchive ctx f).card < lacking ctx f))

def moveFSeq (vid : String) : List TapeFile → Nat → Nat
  | [], fSeq => fSeq
  | tc :: tcs, fSeq => moveFSeq vid tcs (if tc.vid = vid then tc.fSeq else fSeq)

def plannedFSeq : Nat :=
  let fSeq := if ctx.type.moves then moveFSeq ctx.vid f.tapeFiles maxFSeq else maxFSeq
  if 0 < lacking ctx f then addCopiesFSeq ctx.vid ctx.type f.tapeFiles fSeq else fSeq

def provided : Bool := ctx.inRepackBuffer (plannedFSeq ctx f) f.fileSize

def increment : TotalStatsFiles :=
  if Kept ctx f then
    { totalFilesToArchive := (moved ctx f).card + lacking ctx f
      totalBytesToArchive := ((moved ctx f).card + lacking ctx f) * f.fileSize
      totalFilesToRetrieve := if provided ctx f then 0 else 1
      totalBytesToRetrieve := if provided ctx f then 0 else f.fileSize
      userProvidedFiles := if provided ctx f then 1 else 0 }
  else {}

def planned : Option RetrieveSubrequest :=
  if Kept ctx f then
    some
      { fSeq := plannedFSeq ctx f
        fileSize := f.fileSize
        copyNbsToRearchive := toRearchive ctx f
        hasUserProvidedFile := provided ctx f
        storageClass := f.storageClass
        tapeFiles := f.tapeFiles }
  else none

end

theorem moveCopies_ok {vid : String} {routes : Finset Nat} {id fileSize : Nat}
    {tcs : List TapeFile} {p : FilePlan} (hp : p.totals.wrap = p.totals)
    (h : ∀ tc ∈ filesOnTape vid tcs, tc.copyNb ∈ routes) :
    moveCopies vid routes id fileSize tcs p = .ok
      { totals := (p.totals +
          { totalFilesToArchive := (filesOnTape vid tcs).length
            totalBytesToArchive := (filesOnTape vid tcs).length * fileSize }).wrap
        copyNbsToRearchive :=
          p.copyNbsToRearchive ∪ ((filesOnTape vid tcs).map TapeFile.copyNb).toFinset
        fSeq := moveFSeq vid tcs p.fSeq } := by
  induction tcs generalizing p with
  | nil =>
    have hzero : p.totals + { totalFilesToArchive := 0, totalBytesToArchive := 0 * fileSize } =
        p.totals := by ext <;> simp
    simp only [moveCopies, filesOnTape, List.filter_nil, List.length_nil, List.map_nil,
      List.toFinset_nil, Finset.union_empty, moveFSeq, hzero, hp]
  | cons tc tcs ih =>
    by_cases htc : tc.vid = vid
    · have hroute : tc.copyNb ∈ routes := h tc (by simp [filesOnTape, htc])
      have hrest : ∀ tc ∈ filesOnTape vid tcs, tc.copyNb ∈ routes := fun c hc =>
        h c (by simp only [filesOnTape, List.filter_cons, htc, decide_true, if_true]
                exact List.mem_cons_of_mem _ hc)
      simp only [moveCopies, htc, if_true, hroute, not_true_eq_false, if_false]
      rw [ih (TotalStatsFiles.wrap_wrap _) hrest]
      simp only [filesOnTape, List.filter_cons, htc, decide_true, if_true, List.length_cons,
        List.map_cons, List.toFinset_cons, moveFSeq, Except.ok.injEq, FilePlan.mk.injEq, and_true]
      refine ⟨?_, ?_⟩
      · rw [TotalStatsFiles.wrap_add]
        congr 1
        ext <;> simp <;> ring
      · rw [Finset.insert_union, Finset.union_insert]
    · have hrest : ∀ tc ∈ filesOnTape vid tcs, tc.copyNb ∈ routes := fun c hc =>
        h c (by simpa [filesOnTape, htc] using hc)
      simp only [moveCopies, htc, if_false]
      rw [ih hp hrest]
      simp [filesOnTape, htc, moveFSeq]

theorem moveCopies_error {vid : String} {routes : Finset Nat} {id fileSize : Nat}
    {tcs : List TapeFile} {p : FilePlan} (h : ∃ tc ∈ filesOnTape vid tcs, tc.copyNb ∉ routes) :
    ∃ e, moveCopies vid routes id fileSize tcs p = .error e := by
  induction tcs generalizing p with
  | nil => simp [filesOnTape] at h
  | cons tc tcs ih =>
    by_cases htc : tc.vid = vid
    · by_cases hroute : tc.copyNb ∈ routes
      · simp only [moveCopies, htc, if_true, hroute, not_true_eq_false, if_false]
        refine ih ?_
        obtain ⟨c, hc, hnot⟩ := h
        simp only [filesOnTape, List.filter_cons, htc, decide_true, if_true] at hc
        cases List.mem_cons.mp hc with
        | inl he => exact absurd (he ▸ hroute) hnot
        | inr hc => exact ⟨c, hc, hnot⟩
      · refine ⟨.noArchiveRoute id tc.copyNb, ?_⟩
        simp [moveCopies, htc, hroute]
    · simp only [moveCopies, htc, if_false]
      refine ih ?_
      simpa [filesOnTape, htc] using h

section
variable {ctx : ExpandContext} {f : ArchiveFile ctx.vid} {t : TotalStatsFiles}

theorem card_moved (hm : ctx.type.moves) :
    (moved ctx f).card = (filesOnTape ctx.vid f.tapeFiles).length := by
  have hsub : ((filesOnTape ctx.vid f.tapeFiles).map TapeFile.copyNb).Sublist
      (f.tapeFiles.map TapeFile.copyNb) := List.filter_sublist.map _
  rw [moved, if_pos hm, List.toFinset_card_of_nodup (hsub.nodup f.oneEach), List.length_map]

theorem moved_subset_iff (hm : ctx.type.moves) (routes : Finset Nat) :
    moved ctx f ⊆ routes ↔ ∀ tc ∈ filesOnTape ctx.vid f.tapeFiles, tc.copyNb ∈ routes := by
  rw [moved, if_pos hm]
  constructor
  · intro h tc htc
    exact h (List.mem_toFinset.mpr (List.mem_map_of_mem htc))
  · intro h c hc
    obtain ⟨tc, htc, rfl⟩ := List.mem_map.mp (List.mem_toFinset.mp hc)
    exact h tc htc

def movePlan (ctx : ExpandContext) (t : TotalStatsFiles) (f : ArchiveFile ctx.vid) : FilePlan where
  totals := (t +
    { totalFilesToArchive := (moved ctx f).card
      totalBytesToArchive := (moved ctx f).card * f.fileSize }).wrap
  copyNbsToRearchive := moved ctx f
  fSeq := if ctx.type.moves then moveFSeq ctx.vid f.tapeFiles maxFSeq else maxFSeq

theorem moveFile_ok (ht : t.wrap = t)
    (h : ctx.type.moves → moved ctx f ⊆ ctx.archiveRoutes f.storageClass) :
    ctx.moveFile t f = .ok (movePlan ctx t f) := by
  unfold ExpandContext.moveFile movePlan
  by_cases hm : ctx.type.moves
  · have hroutes := (moved_subset_iff hm _).mp (h hm)
    rw [if_pos hm, moveCopies_ok ht hroutes, card_moved hm]
    simp [moved, hm]
  · simp [hm, moved, TotalStatsFiles.add_zero, ht]

theorem moveFSeq_lt {vid : String} {tcs : List TapeFile} {fSeq : Nat}
    (hlt : ∀ tc ∈ tcs, tc.fSeq < maxFSeq) (h : fSeq < maxFSeq ∨ ∃ tc ∈ tcs, tc.vid = vid) :
    moveFSeq vid tcs fSeq < maxFSeq := by
  induction tcs generalizing fSeq with
  | nil => simpa [moveFSeq] using h
  | cons tc tcs ih =>
    refine ih (fun c hc => hlt c (List.mem_cons_of_mem tc hc)) ?_
    by_cases htc : tc.vid = vid
    · exact .inl (by simpa [htc] using hlt tc List.mem_cons_self)
    · simpa [htc] using h

theorem addCopiesFSeq_of_ne {vid : String} {type : RepackType} (h : type ≠ .addCopiesOnly)
    (tcs : List TapeFile) (fSeq : Nat) : addCopiesFSeq vid type tcs fSeq = fSeq := by
  induction tcs with
  | nil => rfl
  | cons tc tcs ih => simpa [addCopiesFSeq, h] using ih

theorem addCopiesFSeq_lt {vid : String} {tcs : List TapeFile} {fSeq : Nat}
    (hlt : ∀ tc ∈ tcs, tc.fSeq < maxFSeq) (hle : fSeq ≤ maxFSeq)
    (h : fSeq < maxFSeq ∨ ∃ tc ∈ tcs, tc.vid = vid) :
    addCopiesFSeq vid .addCopiesOnly tcs fSeq < maxFSeq := by
  induction tcs generalizing fSeq with
  | nil => simpa [addCopiesFSeq] using h
  | cons tc tcs ih =>
    have hrest := fun c hc => hlt c (List.mem_cons_of_mem tc hc)
    have htclt := hlt tc List.mem_cons_self
    by_cases htc : tc.vid = vid
    · simp only [addCopiesFSeq, htc, and_self, if_true]
      have hnext : (if fSeq = maxFSeq then tc.fSeq else max tc.fSeq fSeq) < maxFSeq := by
        split
        · exact htclt
        · next hne => exact max_lt htclt (lt_of_le_of_ne hle hne)
      exact ih hrest hnext.le (.inl hnext)
    · simp only [addCopiesFSeq, htc, false_and, if_false]
      exact ih hrest hle (by simpa [htc] using h)

theorem finishFile_of_lt {p : FilePlan} (h : p.fSeq < maxFSeq) :
    ctx.finishFile f p =
      ((p.totals + if ctx.inRepackBuffer p.fSeq f.fileSize then { userProvidedFiles := 1 }
        else { totalBytesToRetrieve := f.fileSize, totalFilesToRetrieve := 1 }).wrap,
      some
        { fSeq := p.fSeq
          fileSize := f.fileSize
          copyNbsToRearchive := p.copyNbsToRearchive
          hasUserProvidedFile := ctx.inRepackBuffer p.fSeq f.fileSize
          storageClass := f.storageClass
          tapeFiles := f.tapeFiles }) := by
  have hne : ¬ (¬ ctx.inRepackBuffer p.fSeq f.fileSize ∧ p.fSeq = maxFSeq) := by omega
  unfold ExpandContext.finishFile
  simp only [hne, if_false]

theorem plannedFSeq_lt (h : Kept ctx f) : plannedFSeq ctx f < maxFSeq := by
  unfold plannedFSeq
  have hon := f.onTape
  cases htype : ctx.type with
  | moveAndAddCopies =>
    have hlt : moveFSeq ctx.vid f.tapeFiles maxFSeq < maxFSeq := moveFSeq_lt f.fSeq_lt (.inr hon)
    simp only [RepackType.moves, if_true]
    split
    · rwa [addCopiesFSeq_of_ne (by simp)]
    · exact hlt
  | moveOnly =>
    have hlt : moveFSeq ctx.vid f.tapeFiles maxFSeq < maxFSeq := moveFSeq_lt f.fSeq_lt (.inr hon)
    simp only [RepackType.moves, if_true]
    split
    · rwa [addCopiesFSeq_of_ne (by simp)]
    · exact hlt
  | addCopiesOnly =>
    have hlacking : 0 < lacking ctx f := by simpa [Kept, htype, RepackType.moves] using h
    simp only [RepackType.moves, hlacking, if_true]
    exact addCopiesFSeq_lt f.fSeq_lt le_rfl (.inr hon)

theorem finishFile_planned {p : FilePlan} (hkept : Kept ctx f)
    (hcopies : p.copyNbsToRearchive = toRearchive ctx f) (hfSeq : p.fSeq = plannedFSeq ctx f)
    (htotals : p.totals = (t +
      { totalFilesToArchive := (moved ctx f).card + lacking ctx f
        totalBytesToArchive := ((moved ctx f).card + lacking ctx f) * f.fileSize }).wrap) :
    ctx.finishFile f p = ((t + increment ctx f).wrap, planned ctx f) := by
  have hlt : p.fSeq < maxFSeq := hfSeq ▸ plannedFSeq_lt hkept
  rw [finishFile_of_lt hlt, planned, if_pos hkept, hcopies, hfSeq, htotals]
  refine Prod.ext ?_ rfl
  simp only [TotalStatsFiles.wrap_add, increment, if_pos hkept, provided]
  congr 1
  split
  · next hb => ext <;> simp [hb]
  · next hb => ext <;> simp [hb]

theorem addToFile_ok {n : Nat} (hn : ctx.storageClasses f.storageClass = some n)
    (hadds : ctx.type.adds →
      f.tapeFiles.length ≤ nbCopies ctx f ∧ lacking ctx f ≤ (toRearchive ctx f).card) :
    ctx.addToFile n f (movePlan ctx t f) = .ok ((t + increment ctx f).wrap, planned ctx f) := by
  have hnb : nbCopies ctx f = n := by simp [nbCopies, hn]
  have hnone : lacking ctx f = 0 → Kept ctx f →
      ctx.finishFile f (movePlan ctx t f) = ((t + increment ctx f).wrap, planned ctx f) := by
    intro hzero hkept
    refine finishFile_planned hkept ?_ ?_ ?_
    · simp [movePlan, toRearchive, hzero]
    · simp [movePlan, plannedFSeq, hzero]
    · simp [movePlan, hzero]
  unfold ExpandContext.addToFile
  by_cases ha : ctx.type.adds
  · obtain ⟨hle, hcard⟩ := hadds ha
    rw [hnb] at hle
    have hlack : lacking ctx f = n - f.tapeFiles.length := by simp [lacking, ha, hnb]
    rw [if_pos ha]
    simp only [sub64_of_le hle, ← hlack]
    by_cases hpos : 0 < lacking ctx f
    · -- copies to add
      have hcopies : (addCopies ctx.vid (ctx.archiveRoutes f.storageClass) ctx.type f.fileSize
          (lacking ctx f) f.tapeFiles (movePlan ctx t f)).copyNbsToRearchive =
          toRearchive ctx f := by
        simp [addCopies, movePlan, toRearchive, hpos, newRoutes, tapeCopies]
      rw [if_pos hpos, hcopies, if_neg (by omega)]
      congr 1
      refine finishFile_planned (.inr hpos) hcopies ?_ ?_
      · simp [addCopies, movePlan, plannedFSeq, hpos]
      · simp only [addCopies, movePlan, TotalStatsFiles.wrap_add]
        ext <;> simp [TotalStatsFiles.wrap] <;> ring_nf
    · have hzero : lacking ctx f = 0 := by omega
      rw [if_neg hpos]
      by_cases hm : ctx.type.moves
      · have hne : ctx.type ≠ .addCopiesOnly := by
          rintro he
          simp [he, RepackType.moves] at hm
        rw [if_neg hne, hnone hzero (.inl hm)]
      · have he : ctx.type = .addCopiesOnly := by
          cases htype : ctx.type <;> simp [htype, RepackType.moves] at hm ⊢
        have hnot : ¬ Kept ctx f := by simp [Kept, hm, hpos]
        rw [if_pos he]
        simp [movePlan, increment, planned, hnot, moved, hm, TotalStatsFiles.add_zero]
  · have hzero : lacking ctx f = 0 := by simp [lacking, ha]
    have hm : ctx.type.moves := by
      cases htype : ctx.type <;> simp [htype, RepackType.adds, RepackType.moves] at ha ⊢
    rw [if_neg ha, hnone hzero (.inl hm)]

/-- A file that is not refused: what the body makes of it. -/
theorem expandFile_ok (ht : t.wrap = t) (h : ¬ Refused ctx f) :
    ctx.expandFile t f = .ok ((t + increment ctx f).wrap, planned ctx f) := by
  unfold Refused at h
  push Not at h
  obtain ⟨hclass, hmoves, hadds⟩ := h
  obtain ⟨n, hn⟩ := Option.ne_none_iff_exists'.mp hclass
  unfold ExpandContext.expandFile
  simp only [hn, moveFile_ok ht hmoves, Except.bind]
  exact addToFile_ok hn hadds

end

section
variable {ctx : ExpandContext} {f : ArchiveFile ctx.vid} {t : TotalStatsFiles}

theorem moved_subset_tapeCopies : moved ctx f ⊆ tapeCopies ctx f := by
  unfold moved tapeCopies
  split
  · intro c hc
    obtain ⟨tc, htc, rfl⟩ := List.mem_map.mp (List.mem_toFinset.mp hc)
    exact List.mem_toFinset.mpr (List.mem_map_of_mem (List.mem_filter.mp htc).1)
  · exact Finset.empty_subset _

theorem card_tapeCopies : (tapeCopies ctx f).card = f.tapeFiles.length := by
  rw [tapeCopies, List.toFinset_card_of_nodup f.oneEach, List.length_map]

theorem card_copies_le {s : Finset Nat} (h : ∀ c ∈ s, c < 2^8) : s.card ≤ 2^8 := by
  have hsub : s ⊆ Finset.range (2^8) := fun c hc => Finset.mem_range.mpr (h c hc)
  simpa using Finset.card_le_card hsub

theorem tapeCopies_lt : ∀ c ∈ tapeCopies ctx f, c < 2^8 := by
  intro c hc
  obtain ⟨tc, htc, rfl⟩ := List.mem_map.mp (List.mem_toFinset.mp hc)
  exact f.copyNb_lt tc htc

/-- With more tape files than copies the difference wraps, and no set of copy numbers is as
large. -/
theorem addToFile_error {n : Nat} (hn : ctx.storageClasses f.storageClass = some n)
    (ha : ctx.type.adds)
    (h : nbCopies ctx f < f.tapeFiles.length ∨ (toRearchive ctx f).card < lacking ctx f) :
    ∃ e, ctx.addToFile n f (movePlan ctx t f) = .error e := by
  have hnb : nbCopies ctx f = n := by simp [nbCopies, hn]
  have hcopies : (addCopies ctx.vid (ctx.archiveRoutes f.storageClass) ctx.type f.fileSize
      (sub64 n f.tapeFiles.length) f.tapeFiles (movePlan ctx t f)).copyNbsToRearchive =
        moved ctx f ∪ newRoutes ctx f := by
    simp [addCopies, movePlan, newRoutes, tapeCopies]
  have hmissing : 0 < sub64 n f.tapeFiles.length ∧
      (moved ctx f ∪ newRoutes ctx f).card < sub64 n f.tapeFiles.length := by
    cases h with
    | inl hmore =>
      have hlen : f.tapeFiles.length ≤ 2^8 :=
        card_tapeCopies (f := f) ▸ card_copies_le tapeCopies_lt
      have hcard : (moved ctx f ∪ newRoutes ctx f).card ≤ 2^8 := by
        refine card_copies_le fun c hc => ?_
        cases Finset.mem_union.mp hc with
        | inl hc => exact tapeCopies_lt c (moved_subset_tapeCopies hc)
        | inr hc => exact ctx.copyNb_lt _ c (Finset.mem_sdiff.mp hc).1
      have hwrap : sub64 n f.tapeFiles.length = 2^64 - (f.tapeFiles.length - n) :=
        if_neg (by omega)
      rw [hwrap]
      omega
    | inr hfew =>
      have hlack : lacking ctx f = n - f.tapeFiles.length := by simp [lacking, ha, hnb]
      have hpos : 0 < lacking ctx f := by omega
      rw [sub64_of_le (by omega), ← hlack]
      refine ⟨hpos, ?_⟩
      simpa [toRearchive, hpos] using hfew
  refine ⟨.missingArchiveRoutes, ?_⟩
  unfold ExpandContext.addToFile
  rw [if_pos ha]
  simp only [hcopies, hmissing.1, hmissing.2, if_true]

theorem expandFile_refused (ht : t.wrap = t) (h : Refused ctx f) :
    ∃ e, ctx.expandFile t f = .error e := by
  unfold ExpandContext.expandFile
  cases hn : ctx.storageClasses f.storageClass with
  | none => exact ⟨_, rfl⟩
  | some n =>
    by_cases hmoves : ctx.type.moves → moved ctx f ⊆ ctx.archiveRoutes f.storageClass
    · have hadds := (h.resolve_left (by simp [hn])).resolve_left fun hm => hm.2 (hmoves hm.1)
      obtain ⟨e, he⟩ := addToFile_error (t := t) hn hadds.1 hadds.2
      exact ⟨e, by simp only [moveFile_ok ht hmoves, Except.bind, he]⟩
    · push Not at hmoves
      rw [moved_subset_iff hmoves.1] at hmoves
      have hmissing : ∃ tc ∈ filesOnTape ctx.vid f.tapeFiles,
          tc.copyNb ∉ ctx.archiveRoutes f.storageClass := by
        simpa using hmoves.2
      obtain ⟨e, he⟩ : ∃ e, ctx.moveFile t f = .error e := by
        unfold ExpandContext.moveFile
        rw [if_pos hmoves.1]
        exact moveCopies_error hmissing
      exact ⟨e, by simp only [he, Except.bind]⟩

end

section
variable {ctx : ExpandContext} {t : TotalStatsFiles} {fs : List (ArchiveFile ctx.vid)}

def sumOf (l : List TotalStatsFiles) : TotalStatsFiles := l.foldr (· + ·) {}

theorem expandFiles_ok (ht : t.wrap = t) (h : ∀ f ∈ fs, ¬ Refused ctx f) :
    ctx.expandFiles t fs =
      .ok ((t + sumOf (fs.map (increment ctx))).wrap, fs.filterMap (planned ctx)) := by
  induction fs generalizing t with
  | nil => simp [ExpandContext.expandFiles, sumOf, TotalStatsFiles.add_zero, ht]
  | cons f fs ih =>
    have hrest := ih (TotalStatsFiles.wrap_wrap (t + increment ctx f))
      fun g hg => h g (List.mem_cons_of_mem f hg)
    simp only [ExpandContext.expandFiles, bind, Except.bind,
      expandFile_ok ht (h f List.mem_cons_self), hrest, Except.ok.injEq, Prod.mk.injEq]
    refine ⟨?_, ?_⟩
    · rw [TotalStatsFiles.wrap_add, TotalStatsFiles.add_assoc]
      rfl
    · cases hp : planned ctx f with
      | none => simp [hp]
      | some s => simp [hp]

theorem expandFiles_refused (ht : t.wrap = t) (h : ∃ f ∈ fs, Refused ctx f) :
    ∃ e, ctx.expandFiles t fs = .error e := by
  induction fs generalizing t with
  | nil => simp at h
  | cons f fs ih =>
    by_cases hf : Refused ctx f
    · obtain ⟨e, he⟩ := expandFile_refused ht hf
      exact ⟨e, by simp [ExpandContext.expandFiles, he, bind, Except.bind]⟩
    · have hrest : ∃ g ∈ fs, Refused ctx g := by
        obtain ⟨g, hg, hr⟩ := h
        cases List.mem_cons.mp hg with
        | inl he => exact absurd (he ▸ hr) hf
        | inr hg => exact ⟨g, hg, hr⟩
      obtain ⟨e, he⟩ := ih (TotalStatsFiles.wrap_wrap (t + increment ctx f)) hrest
      exact ⟨e, by simp [ExpandContext.expandFiles, expandFile_ok ht hf, he, bind, Except.bind]⟩

end

/-- What the totals of some sub-requests should be. -/
def statsOf (subs : List RetrieveSubrequest) : TotalStatsFiles where
  totalFilesToArchive := (subs.map (·.copyNbsToRearchive.card)).sum
  totalBytesToArchive := (subs.map fun s => s.copyNbsToRearchive.card * s.fileSize).sum
  totalFilesToRetrieve := (subs.filter (! ·.hasUserProvidedFile)).length
  totalBytesToRetrieve := ((subs.filter (! ·.hasUserProvidedFile)).map (·.fileSize)).sum
  userProvidedFiles := (subs.filter (·.hasUserProvidedFile)).length

theorem statsOf_append (l m : List RetrieveSubrequest) :
    statsOf (l ++ m) = statsOf l + statsOf m := by
  ext <;> simp [statsOf]

section
variable {ctx : ExpandContext} {t : TotalStatsFiles} {fs : List (ArchiveFile ctx.vid)}
  {f : ArchiveFile ctx.vid}

def statsOfFile (ctx : ExpandContext) (f : ArchiveFile ctx.vid) : TotalStatsFiles :=
  statsOf (planned ctx f).toList

theorem statsOf_planned (fs : List (ArchiveFile ctx.vid)) :
    statsOf (fs.filterMap (planned ctx)) = sumOf (fs.map (statsOfFile ctx)) := by
  induction fs with
  | nil => rfl
  | cons f fs ih =>
    have hsplit : (f :: fs).filterMap (planned ctx) =
        (planned ctx f).toList ++ fs.filterMap (planned ctx) := by
      cases hp : planned ctx f with
      | none => simp [hp]
      | some s => simp [hp]
    rw [hsplit, statsOf_append, ih]
    rfl

theorem sumOf_filesToArchive (l : List TotalStatsFiles) :
    (sumOf l).totalFilesToArchive = (l.map TotalStatsFiles.totalFilesToArchive).sum := by
  induction l with
  | nil => rfl
  | cons t l ih =>
    have hcons : sumOf (t :: l) = t + sumOf l := rfl
    simp [hcons, ih]

theorem toRearchive_of_not_kept (h : ¬ Kept ctx f) : toRearchive ctx f = ∅ := by
  simp only [Kept, not_or] at h
  simp [toRearchive, moved, h.1, h.2]

theorem statsOfFile_filesToArchive :
    (statsOfFile ctx f).totalFilesToArchive = (toRearchive ctx f).card := by
  by_cases h : Kept ctx f
  · simp [statsOfFile, planned, h, statsOf]
  · simp [statsOfFile, planned, h, statsOf, toRearchive_of_not_kept h]

theorem increment_filesToArchive :
    (increment ctx f).totalFilesToArchive = (moved ctx f).card + lacking ctx f := by
  by_cases h : Kept ctx f
  · simp [increment, h]
  · have hparts := h
    simp only [Kept, not_or] at hparts
    have hmoved : moved ctx f = ∅ := by simp [moved, hparts.1]
    simp only [increment, h, if_false, hmoved, Finset.card_empty]
    omega

/-- The copies of a file: those that are moved and those of new routes. -/
theorem card_toRearchive :
    (toRearchive ctx f).card =
      (moved ctx f).card + if 0 < lacking ctx f then (newRoutes ctx f).card else 0 := by
  unfold toRearchive
  split
  · refine Finset.card_union_of_disjoint ?_
    refine Finset.disjoint_left.mpr fun c hc hnew => ?_
    exact (Finset.mem_sdiff.mp hnew).2 (moved_subset_tapeCopies hc)
  · simp

theorem statsOfFile_eq_increment (h : (toRearchive ctx f).card = (moved ctx f).card + lacking ctx f) :
    statsOfFile ctx f = increment ctx f := by
  by_cases hk : Kept ctx f
  · cases hp : provided ctx f with
    | true => simp [statsOfFile, planned, increment, hk, statsOf, h, hp]
    | false => simp [statsOfFile, planned, increment, hk, statsOf, h, hp]
  · simp [statsOfFile, planned, increment, hk, statsOf]

theorem eq_of_sum_eq {α : Type*} {a b : α → Nat} {l : List α} (hle : ∀ x ∈ l, a x ≤ b x)
    (h : (l.map a).sum = (l.map b).sum) : ∀ x ∈ l, a x = b x := by
  induction l with
  | nil => simp
  | cons y l ih =>
    have hy := hle y List.mem_cons_self
    have hrest : ∀ x ∈ l, a x ≤ b x := fun x hx => hle x (List.mem_cons_of_mem y hx)
    have hsum : (l.map a).sum ≤ (l.map b).sum := List.sum_le_sum hrest
    simp only [List.map_cons, List.sum_cons] at h
    intro x hx
    cases List.mem_cons.mp hx with
    | inl he =>
      subst he
      omega
    | inr hx => exact ih hrest (by omega) x hx

def Fits (t : TotalStatsFiles) : Prop :=
  t.totalFilesToArchive < 2^64 ∧ t.totalBytesToArchive < 2^64 ∧ t.totalFilesToRetrieve < 2^64 ∧
    t.totalBytesToRetrieve < 2^64 ∧ t.userProvidedFiles < 2^64

instance (t : TotalStatsFiles) : Decidable (Fits t) := inferInstanceAs (Decidable (_ ∧ _))

theorem wrap_eq_iff : t.wrap = t ↔ Fits t := by
  rw [TotalStatsFiles.ext_iff]
  simp only [TotalStatsFiles.wrap, Nat.mod_eq_iff_lt (by decide : (2^64 : Nat) ≠ 0), Fits]

/-- A copy that has to be created has no route. -/
def MissingRoute (ctx : ExpandContext) (f : ArchiveFile ctx.vid) : Prop :=
  ¬ moved ctx f ⊆ ctx.archiveRoutes f.storageClass ∨ (newRoutes ctx f).card < lacking ctx f

/-- What an expansion promises: the totals are those of the kept sub-requests, with no counter
wrapped, each has a copy to rearchive, and a missing route makes it fail. -/
structure ExpandsExactly (ctx : ExpandContext) (inDirectory : ArchiveFile ctx.vid → Bool)
    (t : TotalStatsFiles) (archiveFiles : List (ArchiveFile ctx.vid)) : Prop where
  totals : ∀ t' kept, ctx.expandRepackRequest inDirectory t archiveFiles = .ok (t', kept) →
    t' = t + statsOf kept
  copies : ∀ t' kept, ctx.expandRepackRequest inDirectory t archiveFiles = .ok (t', kept) →
    ∀ s ∈ kept, s.copyNbsToRearchive.Nonempty
  noWrap : ∀ t' kept, ctx.expandRepackRequest inDirectory t archiveFiles = .ok (t', kept) →
    ∀ f ∈ ctx.toExpand inDirectory archiveFiles, ctx.type.adds →
      f.tapeFiles.length ≤ nbCopies ctx f
  missingRoute : (∃ f ∈ ctx.toExpand inDirectory archiveFiles, MissingRoute ctx f) →
    ∃ e, ctx.expandRepackRequest inDirectory t archiveFiles = .error e

theorem planned_copies_nonempty (h : ¬ Refused ctx f) {s : RetrieveSubrequest}
    (hs : planned ctx f = some s) : s.copyNbsToRearchive.Nonempty := by
  unfold planned at hs
  split_ifs at hs with hk
  cases hs
  simp only [Refused, not_or] at h
  rw [← Finset.card_pos]
  by_cases hm : ctx.type.moves
  · obtain ⟨tc, htc, hvid⟩ := f.onTape
    have hmem : tc.copyNb ∈ moved ctx f := by
      rw [moved, if_pos hm, List.mem_toFinset]
      exact List.mem_map_of_mem (List.mem_filter.mpr ⟨htc, by simpa using hvid⟩)
    exact Finset.card_pos.mpr ⟨tc.copyNb, Finset.mem_union_left _ hmem⟩
  · have hpos : 0 < lacking ctx f := hk.resolve_left hm
    have ha : ctx.type.adds := by
      by_contra ha
      simp [lacking, ha] at hpos
    have hfew : ¬ (toRearchive ctx f).card < lacking ctx f := fun hlt => h.2.2 ⟨ha, .inr hlt⟩
    show 0 < (toRearchive ctx f).card
    omega

theorem card_eq_iff : (toRearchive ctx f).card = (moved ctx f).card + lacking ctx f ↔
    (0 < lacking ctx f → (newRoutes ctx f).card = lacking ctx f) := by
  rw [card_toRearchive]
  split
  · next hpos => simp [hpos]
  · next hpos =>
    have hzero : lacking ctx f = 0 := by omega
    simp [hzero]

/-- The expansion keeps its promises if and only if it fails, or every file that lacks copies has
just as many routes for new copies, and the totals fit. -/
theorem expandsExactly_iff {inDirectory : ArchiveFile ctx.vid → Bool}
    {archiveFiles : List (ArchiveFile ctx.vid)} (ht : t.wrap = t) :
    ExpandsExactly ctx inDirectory t archiveFiles ↔
      (∃ f ∈ ctx.toExpand inDirectory archiveFiles, Refused ctx f) ∨
        (∀ f ∈ ctx.toExpand inDirectory archiveFiles,
          0 < lacking ctx f → (newRoutes ctx f).card = lacking ctx f) ∧
          Fits (t + sumOf ((ctx.toExpand inDirectory archiveFiles).map (increment ctx))) := by
  obtain ⟨fs, hfs⟩ : ∃ fs, ctx.toExpand inDirectory archiveFiles = fs := ⟨_, rfl⟩
  have hexpand : ctx.expandRepackRequest inDirectory t archiveFiles = ctx.expandFiles t fs := by
    rw [ExpandContext.expandRepackRequest, hfs]
  rw [hfs]
  by_cases hrefused : ∃ f ∈ fs, Refused ctx f
  · refine iff_of_true ?_ (.inl hrefused)
    obtain ⟨e, he⟩ := expandFiles_refused ht hrefused
    rw [← hexpand] at he
    exact ⟨fun _ _ h => by simp [he] at h, fun _ _ h => by simp [he] at h,
      fun _ _ h => by simp [he] at h, fun _ => ⟨e, he⟩⟩
  · have haccepted : ∀ f ∈ fs, ¬ Refused ctx f := fun f hf hr => hrefused ⟨f, hf, hr⟩
    have hok := expandFiles_ok ht haccepted
    rw [← hexpand] at hok
    simp only [hrefused, false_or]
    constructor
    · intro h
      have hroutes : ∀ f ∈ fs, ¬ MissingRoute ctx f := by
        intro f hf hmissing
        obtain ⟨e, he⟩ := h.missingRoute ⟨f, hfs ▸ hf, hmissing⟩
        simp [hok] at he
      have hle : ∀ f ∈ fs, (increment ctx f).totalFilesToArchive ≤
          (statsOfFile ctx f).totalFilesToArchive := by
        intro f hf
        have hroute : lacking ctx f ≤ (newRoutes ctx f).card := by
          have hnot := hroutes f hf
          simp only [MissingRoute, not_or] at hnot
          omega
        rw [increment_filesToArchive, statsOfFile_filesToArchive, card_toRearchive]
        split <;> omega
      have htotals := h.totals _ _ hok
      rw [statsOf_planned] at htotals
      have hfiles := congrArg TotalStatsFiles.totalFilesToArchive htotals
      simp only [TotalStatsFiles.wrap, TotalStatsFiles.add_totalFilesToArchive,
        sumOf_filesToArchive, List.map_map] at hfiles
      have hsum := List.sum_le_sum hle
      have hmod := Nat.mod_le (t.totalFilesToArchive +
        (fs.map (TotalStatsFiles.totalFilesToArchive ∘ increment ctx)).sum) (2^64)
      have heach := eq_of_sum_eq hle (by
        simp only [Function.comp_def] at hfiles hmod hsum ⊢
        omega)
      have hcard : ∀ f ∈ fs, (toRearchive ctx f).card = (moved ctx f).card + lacking ctx f := by
        intro f hf
        rw [← statsOfFile_filesToArchive, ← increment_filesToArchive, heach f hf]
      refine ⟨fun f hf => card_eq_iff.mp (hcard f hf), wrap_eq_iff.mp ?_⟩
      rw [htotals]
      congr 2
      exact List.map_congr_left fun f hf => statsOfFile_eq_increment (hcard f hf)
    · rintro ⟨hexact, hfits⟩
      refine ⟨fun t' kept hrun => ?_, fun t' kept hrun s hs => ?_, fun t' kept hrun f hf ha => ?_,
        fun ⟨f, hf, hmissing⟩ => ?_⟩
      · rw [hok] at hrun
        cases hrun
        rw [wrap_eq_iff.mpr hfits, statsOf_planned]
        congr 2
        exact List.map_congr_left fun f hf =>
          (statsOfFile_eq_increment (card_eq_iff.mpr (hexact f hf))).symm
      · rw [hok] at hrun
        cases hrun
        obtain ⟨f, hf, hp⟩ := List.mem_filterMap.mp hs
        exact planned_copies_nonempty (haccepted f hf) hp
      · by_contra hlt
        exact haccepted f (hfs ▸ hf) (.inr (.inr ⟨ha, .inl (by omega)⟩))
      · rw [hfs] at hf
        exfalso
        cases hmissing with
        | inl hmove =>
          by_cases hm : ctx.type.moves
          · exact haccepted f hf (.inr (.inl ⟨hm, hmove⟩))
          · simp [moved, hm] at hmove
        | inr hnew =>
          have heq := hexact f hf (by omega)
          omega

end

/-- A file of two copies, or that should have two, with the first one on the tape. -/
def firstCopy : ArchiveFile "V1" where
  archiveFileID := 42
  storageClass := "sc"
  fileSize := 10
  tapeFiles := [⟨"V1", 7, 1⟩]
  onTape := ⟨_, List.mem_cons_self, rfl⟩
  fSeq_lt := by decide
  copyNb_lt := by decide
  oneEach := by decide

def twoCopies (routes : Finset Nat) (h : ∀ c ∈ routes, c < 2^8) : ExpandContext where
  vid := "V1"
  type := .moveAndAddCopies
  storageClasses := fun _ => some 2
  archiveRoutes := fun _ => routes
  inRepackBuffer := fun _ _ => false
  nbCopies_lt := fun _ n hn => by
    cases hn
    decide
  copyNb_lt := fun _ => h

theorem expandsExactly_iff_firstCopy :
    ExpandsExactly (twoCopies {1, 2} (by decide)) (fun _ => true) {} [firstCopy] ∧
      ((twoCopies {1, 2} (by decide)).expandRepackRequest (fun _ => true) {} [firstCopy]).isOk := by
  refine ⟨(expandsExactly_iff rfl).mpr (.inr ⟨fun f hf _ => ?_, by decide⟩), by decide⟩
  rw [List.mem_singleton.mp hf]
  decide

/-- The route of the second copy is missing, and the expansion completes with it counted. -/
theorem firstCopy_missing_route_unnoticed :
    MissingRoute (twoCopies {1} (by decide)) firstCopy ∧
      ∃ t kept, (twoCopies {1} (by decide)).expandRepackRequest (fun _ => true) {} [firstCopy] =
          .ok (t, kept) ∧
        t.totalFilesToArchive = 2 ∧ (statsOf kept).totalFilesToArchive = 1 :=
  ⟨.inr (by decide), _, _, rfl, by decide, by decide⟩

end Cta.Repack

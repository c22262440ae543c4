import Cta.Lib.MoveToFront
import Mathlib.Data.List.Find

/-! The disk systems, and which of them a file is on. -/
namespace Cta.Disk
open Cta.Lib.MoveToFront

structure DiskInstanceSpace where
  name : String
  diskInstance : String
  freeSpaceQueryURL : String
  refreshInterval : UInt64
  lastRefreshTime : UInt64
  freeSpace : UInt64
  deriving DecidableEq, Repr

structure DiskSystem where
  name : String
  diskInstanceSpace : DiskInstanceSpace
  fileRegexp : String
  targetedFreeSpace : UInt64
  deriving DecidableEq, Repr

/-- The regular expressions of the C library: which ones compile, and what a match and its groups
are in a text. -/
structure RegexLibrary where
  regcomp : String → Bool
  exec : String → String → List String

inductive Failure where
  | couldNotCompile (regexp : String)
  | outOfRange (message : String)
  deriving DecidableEq, Repr

namespace DiskSystemList

def at_ (diskSystems : List DiskSystem) (name : String) : Except Failure DiskSystem :=
  match diskSystems.find? (·.name = name) with
  | some ds => .ok ds
  | none => .error (.outOfRange "In DiskSystemList::at(): name not found.")

structure PointerAndRegex where
  ds : DiskSystem
  regex : String
  deriving DecidableEq, Repr

section
variable (lib : RegexLibrary)

def createRegexes : List DiskSystem → List PointerAndRegex × Option Failure
  | [] => ([], none)
  | ds :: diskSystems =>
    if lib.regcomp ds.fileRegexp then
      let r := createRegexes diskSystems
      (⟨ds, ds.fileRegexp⟩ :: r.1, r.2)
    else ([], some (.couldNotCompile ds.fileRegexp))

def PointerAndRegex.fits (fileURL : String) (pr : PointerAndRegex) : Bool :=
  !(lib.exec pr.regex fileURL).isEmpty

/-- The disk system of a file, and the expressions as they are kept for the next file. -/
def getDSName (diskSystems : List DiskSystem) (m_pointersAndRegexes : List PointerAndRegex)
    (fileURL : String) : Except Failure String × List PointerAndRegex :=
  let (m_pointersAndRegexes, failure) :=
    if m_pointersAndRegexes.isEmpty && !diskSystems.isEmpty then createRegexes lib diskSystems
    else (m_pointersAndRegexes, none)
  match failure with
  | some e => (.error e, m_pointersAndRegexes)
  | none =>
    match extract (PointerAndRegex.fits lib fileURL) m_pointersAndRegexes with
    | some (pri, others) => (.ok pri.ds.name, pri :: others)
    | none =>
      (.error (.outOfRange "In DiskSystemList::getDSNAme(): not match for fileURL"),
        m_pointersAndRegexes)

def keptAfter (diskSystems : List DiskSystem) (history : List String) : List PointerAndRegex :=
  history.foldl (fun kept fileURL => (getDSName lib diskSystems kept fileURL).2) []

def nameAfter (diskSystems : List DiskSystem) (history : List String) (fileURL : String) :
    Except Failure String :=
  (getDSName lib diskSystems (keptAfter lib diskSystems history) fileURL).1

def Matches (fileURL : String) (ds : DiskSystem) : Bool :=
  lib.regcomp ds.fileRegexp && !(lib.exec ds.fileRegexp fileURL).isEmpty

def firstMatch (diskSystems : List DiskSystem) (fileURL : String) : Option DiskSystem :=
  diskSystems.find? (Matches lib fileURL)

/-- Whatever was looked up before, the first disk system that matches is returned, and a call throws
if and only if there is none. -/
def Independent (diskSystems : List DiskSystem) : Prop :=
  ∀ history fileURL, (nameAfter lib diskSystems history fileURL).toOption =
    (firstMatch lib diskSystems fileURL).map (·.name)

/-- No file matches a disk system that is the first match of some file as well as an earlier one of
another name. -/
def Unambiguous (diskSystems : List DiskSystem) : Prop :=
  ∀ fileURL fileURL' d e, firstMatch lib diskSystems fileURL = some d →
    firstMatch lib diskSystems fileURL' = some e → Matches lib fileURL e = true → e.name = d.name

end

section
variable (lib : RegexLibrary) (diskSystems : List DiskSystem)

def pointer (ds : DiskSystem) : PointerAndRegex := ⟨ds, ds.fileRegexp⟩

theorem getDSName_of_created {kept : List PointerAndRegex} (hkept : kept ≠ []) (fileURL : String) :
    getDSName lib diskSystems kept fileURL =
      ((match kept.find? (PointerAndRegex.fits lib fileURL) with
        | some pri => .ok pri.ds.name
        | none => .error (.outOfRange "In DiskSystemList::getDSNAme(): not match for fileURL")),
        touch (PointerAndRegex.fits lib fileURL) kept) := by
  have hnot : (kept.isEmpty && !diskSystems.isEmpty) = false := by simp [hkept]
  unfold getDSName touch
  rw [if_neg (Bool.eq_false_iff.mp hnot), ← map_extract]
  cases hfound : extract (PointerAndRegex.fits lib fileURL) kept with
  | none => simp only [hfound, Option.map_none]
  | some r => simp only [hfound, Option.map_some]

theorem touch_ne_nil (fits : PointerAndRegex → Bool) {kept : List PointerAndRegex}
    (h : kept ≠ []) : touch fits kept ≠ [] := by
  intro hnil
  have hperm := touch_perm fits kept
  rw [hnil] at hperm
  exact h hperm.symm.eq_nil

theorem foldl_getDSName {kept : List PointerAndRegex} (hkept : kept ≠ []) (history : List String) :
    history.foldl (fun kept fileURL => (getDSName lib diskSystems kept fileURL).2) kept =
      touchAll (PointerAndRegex.fits lib) kept history ∧
    touchAll (PointerAndRegex.fits lib) kept history ≠ [] := by
  induction history generalizing kept with
  | nil => exact ⟨rfl, hkept⟩
  | cons fileURL history ih =>
    rw [List.foldl_cons, getDSName_of_created lib diskSystems hkept]
    exact ih (touch_ne_nil _ hkept)

end

section
variable {lib : RegexLibrary} {diskSystems : List DiskSystem}

theorem createRegexes_of_compiles (h : ∀ ds ∈ diskSystems, lib.regcomp ds.fileRegexp = true) :
    createRegexes lib diskSystems = (diskSystems.map pointer, none) := by
  induction diskSystems with
  | nil => rfl
  | cons ds diskSystems ih =>
    obtain ⟨hds, hrest⟩ := List.forall_mem_cons.mp h
    rw [createRegexes, if_pos hds, ih hrest]
    rfl

theorem getDSName_nil (h : ∀ ds ∈ diskSystems, lib.regcomp ds.fileRegexp = true)
    (hne : diskSystems ≠ []) (fileURL : String) :
    getDSName lib diskSystems [] fileURL =
      getDSName lib diskSystems (diskSystems.map pointer) fileURL := by
  have hpos : (([] : List PointerAndRegex).isEmpty && !diskSystems.isEmpty) = true := by simp [hne]
  have hnot : ((diskSystems.map pointer).isEmpty && !diskSystems.isEmpty) = false := by simp
  unfold getDSName
  rw [if_pos hpos, if_neg (Bool.eq_false_iff.mp hnot), createRegexes_of_compiles h]

theorem nameAfter_eq (h : ∀ ds ∈ diskSystems, lib.regcomp ds.fileRegexp = true)
    (hne : diskSystems ≠ []) (history : List String) (fileURL : String) :
    (nameAfter lib diskSystems history fileURL).toOption =
      ((touchAll (PointerAndRegex.fits lib) (diskSystems.map pointer) history).find?
        (PointerAndRegex.fits lib fileURL)).map (·.ds.name) := by
  have hpointers : diskSystems.map pointer ≠ [] := fun hnil => hne (List.map_eq_nil_iff.mp hnil)
  have hsame : nameAfter lib diskSystems history fileURL =
      (getDSName lib diskSystems
        (touchAll (PointerAndRegex.fits lib) (diskSystems.map pointer) history) fileURL).1 := by
    cases history with
    | nil =>
      have hnil := getDSName_nil h hne fileURL
      exact congrArg Prod.fst hnil
    | cons first history =>
      have hfirst := congrArg Prod.snd (getDSName_nil h hne first)
      rw [getDSName_of_created lib diskSystems hpointers] at hfirst
      have hrest := (foldl_getDSName lib diskSystems
        (touch_ne_nil (PointerAndRegex.fits lib first) hpointers) history).1
      rw [nameAfter, keptAfter, List.foldl_cons, hfirst, hrest]
      rfl
  rw [hsame, getDSName_of_created lib diskSystems
    (foldl_getDSName lib diskSystems hpointers history).2]
  cases (touchAll (PointerAndRegex.fits lib) (diskSystems.map pointer) history).find?
    (PointerAndRegex.fits lib fileURL) with
  | none => rfl
  | some pri => rfl

theorem firstMatch_eq (h : ∀ ds ∈ diskSystems, lib.regcomp ds.fileRegexp = true)
    (fileURL : String) :
    (diskSystems.map pointer).find? (PointerAndRegex.fits lib fileURL) =
      (firstMatch lib diskSystems fileURL).map pointer := by
  rw [List.find?_map, firstMatch]
  congr 1
  refine List.find?_congr fun ds hds => ?_
  simp [Matches, PointerAndRegex.fits, pointer, h ds hds]

theorem independent_of_compiles (h : ∀ ds ∈ diskSystems, lib.regcomp ds.fileRegexp = true) :
    Independent lib diskSystems ↔ Unambiguous lib diskSystems := by
  by_cases hne : diskSystems = []
  · subst hne
    refine ⟨fun _ _ _ _ _ hd => (nomatch hd), fun _ history fileURL => ?_⟩
    have hkept : keptAfter lib [] history = [] := by
      unfold keptAfter
      induction history with
      | nil => rfl
      | cons first history ih => exact ih
    rw [nameAfter, hkept]
    rfl
  · have hiff := find_touchAll_iff (PointerAndRegex.fits lib) (diskSystems.map pointer)
      (fun pr => pr.ds.name)
    have hleft : Independent lib diskSystems ↔ ∀ history fileURL,
        ((touchAll (PointerAndRegex.fits lib) (diskSystems.map pointer) history).find?
          (PointerAndRegex.fits lib fileURL)).map (·.ds.name) =
        ((diskSystems.map pointer).find? (PointerAndRegex.fits lib fileURL)).map (·.ds.name) := by
      refine forall₂_congr fun history fileURL => ?_
      rw [nameAfter_eq h hne, firstMatch_eq h, Option.map_map]
      rfl
    rw [hleft, hiff]
    constructor
    · intro hall fileURL fileURL' d e hd he hmatch
      have hmem := List.mem_of_find?_eq_some he
      refine hall fileURL fileURL' (pointer d) (pointer e) ?_ ?_ ?_
      · rw [firstMatch_eq h, hd, Option.map_some]
      · rw [firstMatch_eq h, he, Option.map_some]
      · simpa [Matches, PointerAndRegex.fits, pointer, h e hmem] using hmatch
    · intro hall fileURL fileURL' d' e' hd he hfits
      rw [firstMatch_eq h] at hd he
      obtain ⟨d, hfirst, rfl⟩ := Option.map_eq_some_iff.mp hd
      obtain ⟨e, hfirst', rfl⟩ := Option.map_eq_some_iff.mp he
      have hmem : e ∈ diskSystems := List.mem_of_find?_eq_some hfirst'
      refine hall fileURL fileURL' d e hfirst hfirst' ?_
      simpa [Matches, PointerAndRegex.fits, pointer, h e hmem] using hfits

theorem createRegexes_of_not_compiles (h : ∃ ds ∈ diskSystems, lib.regcomp ds.fileRegexp = false) :
    (createRegexes lib diskSystems).2 ≠ none := by
  induction diskSystems with
  | nil => simp at h
  | cons ds diskSystems ih =>
    rw [createRegexes]
    by_cases hds : lib.regcomp ds.fileRegexp = true
    · obtain ⟨bad, hbad, hnot⟩ := h
      have hrest : bad ∈ diskSystems := by
        refine (List.mem_cons.mp hbad).resolve_left fun heq => ?_
        rw [heq, hds] at hnot
        cases hnot
      rw [if_pos hds]
      exact ih ⟨bad, hrest, hnot⟩
    · rw [if_neg hds]
      simp

theorem mem_createRegexes {pr : PointerAndRegex} (h : pr ∈ (createRegexes lib diskSystems).1) :
    ∃ ds ∈ diskSystems, lib.regcomp ds.fileRegexp = true ∧ pr = pointer ds := by
  induction diskSystems with
  | nil => cases h
  | cons ds diskSystems ih =>
    rw [createRegexes] at h
    by_cases hds : lib.regcomp ds.fileRegexp = true
    · rw [if_pos hds] at h
      cases List.mem_cons.mp h with
      | inl heq => exact ⟨ds, List.mem_cons_self, hds, heq⟩
      | inr hrest =>
        obtain ⟨ds', hmem, hcompiles, heq⟩ := ih hrest
        exact ⟨ds', List.mem_cons_of_mem ds hmem, hcompiles, heq⟩
    · rw [if_neg hds] at h
      cases h

theorem nameAfter_nil_of_not_compiles
    (h : ∃ ds ∈ diskSystems, lib.regcomp ds.fileRegexp = false) (fileURL : String) :
    (nameAfter lib diskSystems [] fileURL).toOption = none := by
  obtain ⟨e, he⟩ := Option.ne_none_iff_exists'.mp (createRegexes_of_not_compiles h)
  obtain ⟨ds, hds, -⟩ := h
  have hpos : (([] : List PointerAndRegex).isEmpty && !diskSystems.isEmpty) = true := by
    simp [List.ne_nil_of_mem hds]
  have hkept : keptAfter lib diskSystems [] = [] := rfl
  rw [nameAfter, hkept, getDSName, if_pos hpos]
  simp only [he]
  rfl

def Dead (lib : RegexLibrary) (kept : List PointerAndRegex) : Prop :=
  ∀ pr ∈ kept, ∀ fileURL, pr.fits lib fileURL = false

theorem dead_createRegexes (h : ∀ fileURL, firstMatch lib diskSystems fileURL = none) :
    Dead lib (createRegexes lib diskSystems).1 := by
  intro pr hpr fileURL
  obtain ⟨ds, hds, hcompiles, rfl⟩ := mem_createRegexes hpr
  have hnot := List.find?_eq_none.mp (h fileURL) ds hds
  simpa [Matches, PointerAndRegex.fits, pointer, hcompiles] using hnot

theorem getDSName_of_dead (h : ∀ fileURL, firstMatch lib diskSystems fileURL = none)
    {kept : List PointerAndRegex} (hkept : Dead lib kept) (fileURL : String) :
    (getDSName lib diskSystems kept fileURL).1.toOption = none ∧
      Dead lib (getDSName lib diskSystems kept fileURL).2 := by
  have hsearch : ∀ kept, Dead lib kept →
      extract (PointerAndRegex.fits lib fileURL) kept = none := by
    intro kept hkept
    rw [← Option.map_eq_none_iff (f := Prod.fst), map_extract, List.find?_eq_none]
    exact fun pr hpr => Bool.eq_false_iff.mp (hkept pr hpr fileURL)
  unfold getDSName
  split
  next m_pointersAndRegexes failure heq =>
    have hdead : Dead lib m_pointersAndRegexes := by
      split at heq
      · have hdead := dead_createRegexes h
        rwa [heq] at hdead
      · cases heq
        exact hkept
    cases failure with
    | some e => exact ⟨rfl, hdead⟩
    | none =>
      rw [hsearch _ hdead]
      exact ⟨rfl, hdead⟩

/-- The look-ups are independent if and only if all the expressions compile and the list is
unambiguous, or there is no file that any of them matches. -/
theorem independent_iff (lib : RegexLibrary) (diskSystems : List DiskSystem) :
    Independent lib diskSystems ↔
      ((∀ ds ∈ diskSystems, lib.regcomp ds.fileRegexp = true) ∧ Unambiguous lib diskSystems) ∨
        ∀ fileURL, firstMatch lib diskSystems fileURL = none := by
  constructor
  · intro h
    by_cases hcompiles : ∀ ds ∈ diskSystems, lib.regcomp ds.fileRegexp = true
    · exact .inl ⟨hcompiles, (independent_of_compiles hcompiles).mp h⟩
    · refine .inr fun fileURL => ?_
      have hbad : ∃ ds ∈ diskSystems, lib.regcomp ds.fileRegexp = false := by simpa using hcompiles
      have hname := (h [] fileURL).symm.trans (nameAfter_nil_of_not_compiles hbad fileURL)
      exact Option.map_eq_none_iff.mp hname
  · rintro (⟨hcompiles, hunambiguous⟩ | hnone)
    · exact (independent_of_compiles hcompiles).mpr hunambiguous
    · intro history fileURL
      have hdead : ∀ kept, Dead lib kept → Dead lib (history.foldl
          (fun kept fileURL => (getDSName lib diskSystems kept fileURL).2) kept) := by
        induction history with
        | nil => exact fun _ hkept => hkept
        | cons first history ih =>
          exact fun kept hkept => ih _ (getDSName_of_dead hnone hkept first).2
      rw [hnone fileURL]
      exact (getDSName_of_dead hnone (hdead [] nofun) fileURL).1

end

/-- Expressions of plain characters behind a `^` match the texts that begin with them. -/
def beginnings : RegexLibrary where
  regcomp _ := true
  exec regexp text :=
    if regexp.toList.isPrefixOf ('^' :: text.toList) then [String.ofList (regexp.toList.drop 1)]
    else []

def space : DiskInstanceSpace := ⟨"default", "eosctaatlas", "eosSpace:default", 60, 0, 0⟩

def nested : List DiskSystem := [⟨"atlas", space, "^/eos/atlas/", 0⟩, ⟨"eos", space, "^/eos/", 0⟩]

theorem not_independent_nested : ¬Independent beginnings nested := by
  intro h
  have hname := h ["/eos/cms/file"] "/eos/atlas/file"
  exact absurd hname (by decide +kernel)

end DiskSystemList
end Cta.Disk

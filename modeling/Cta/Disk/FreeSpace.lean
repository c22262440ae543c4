import Mathlib.Data.Finset.Sort
import Mathlib.Data.String.Basic
import Cta.Disk.DiskSystemList
import Cta.Lib.Numerals
import Cta.Lib.Runs

/-! The free space of disk systems, as it is queried and kept in the catalogue for a while. -/
namespace Cta.Disk.FreeSpace
open Cta.Lib.Numerals Cta.Lib.Runs

inductive FetchFailure where
  | freeDiskSpace (message : String)
  | freeDiskSpaceScript (message : String)
  | exception (message : String)
  | outOfRange (message : String)
  deriving DecidableEq, Repr

structure SubProcess where
  exitValue : ℤ
  wasKilled : Bool
  killSignal : ℤ
  stdout : String
  stderr : String
  deriving DecidableEq, Repr

/-- What a fetch meets outside: the regular expressions, the processes that are started (`none`: it
cannot be started), the JSON texts, the clock, and the writes that the database refuses. -/
structure Surroundings where
  lib : RegexLibrary
  eos : String → Option SubProcess
  runScript : String → DiskSystem → Option SubProcess
  buildFromJSON : String → Option UInt64
  errnum : String → String
  currentTime : String → UInt64
  now : String → UInt64
  refuses : String → Bool

def isspace (c : Char) : Bool :=
  c == ' ' || c == '\t' || c == '\n' || c == '\x0b' || c == '\x0c' || c == '\r'

def stoul (str : List Char) : Except String UInt64 :=
  let text := str.dropWhile isspace
  let negative := text.head? == some '-'
  let digits := readDigits 10 (if negative || text.head? == some '+' then text.tail else text)
  if digits.isEmpty then .error "Invalid uint64"
  else if value 10 digits ≥ 2 ^ 64 then .error "Out of range"
  else .ok (if negative then -UInt64.ofNat (value 10 digits) else UInt64.ofNat (value 10 digits))

def toUint64 (str : String) : Except FetchFailure UInt64 :=
  match stoul str.toList with
  | .ok n => .ok n
  | .error message => .error (.exception
      ("Failed to parse " ++ str ++ " as an unsigned 64-bit integer: " ++ message))

def group (regexResult : List String) (i : ℕ) : Except FetchFailure String :=
  match regexResult[i]? with
  | some text => .ok text
  | none => .error (.outOfRange "vector::_M_range_check")

def ended (w : Surroundings) (sp : SubProcess) (context extra killed : String) : Option String :=
  if sp.exitValue ≠ 0 then some (w.errnum context ++ extra ++ " stderr: " ++ sp.stderr)
  else if sp.wasKilled then some (killed ++ toString sp.killSignal)
  else none

def fetchFreeDiskSpace (w : Surroundings) (instanceAddress spaceName : String) :
    Except FetchFailure UInt64 :=
  match w.eos instanceAddress with
  | none => .error (.exception (w.errnum "In Subprocess::Subprocess"))
  | some sp =>
    match ended w sp
      ("In DiskSystemFreeSpaceList::fetchFreeDiskSpace(), failed to call \"eos root://" ++
        instanceAddress ++ " space ls -m\"") (" instanceAddress: " ++ instanceAddress)
      "In DiskSystemFreeSpaceList::fetchFreeDiskSpace(): eos space ls -m killed by signal: " with
    | some message => .error (.freeDiskSpace message)
    | none =>
      let defaultSpaceRe := "^.*name=" ++ spaceName ++ " .*$"
      if !w.lib.regcomp defaultSpaceRe then
        .error (.exception ("Could not compile regular expression: \"" ++ defaultSpaceRe ++ "\""))
      else
        match (sp.stdout.splitOn "\n").findSome? fun line =>
          (w.lib.exec defaultSpaceRe line).head? with
        | none => .error (.freeDiskSpace
            ("In DiskSystemFreeSpaceList::fetchFreeDiskSpace(): could not find the \"" ++
              spaceName ++ "\" in the eos space ls -m result."))
        | some defaultSpaceLine =>
          let rwSpaceRes := w.lib.exec
            "sum.stat.statfs.freebytes\\?configstatus@rw=([0-9]+) " defaultSpaceLine
          if rwSpaceRes.isEmpty then .error (.freeDiskSpace
            ("In DiskSystemFreeSpaceList::fetchFreeDiskSpace(): failed to parse parameter " ++
              "sum.stat.statfs.capacity?configstatus@rw."))
          else (group rwSpaceRes 1).bind toUint64

def fetchConstantFreeSpace (instanceAddress : String) : Except FetchFailure UInt64 :=
  toUint64 instanceAddress

def fetchFreeDiskSpaceWithScript (w : Surroundings) (scriptPath : String) (ds : DiskSystem) :
    Except FetchFailure UInt64 :=
  match w.runScript scriptPath ds with
  | none => .error (.exception (w.errnum "In Subprocess::Subprocess"))
  | some sp =>
    match ended w sp
      ("In DiskSystemFreeSpaceList::fetchFreeDiskSpaceWithScript(), failed to call \"" ++
        scriptPath) (" scriptPath: " ++ scriptPath)
      ("In DiskSystemFreeSpaceList::fetchFreeDiskSpaceWithScript(): " ++ scriptPath ++
        " killed by signal: ") with
    | some message => .error (.freeDiskSpaceScript message)
    | none =>
      match w.buildFromJSON sp.stdout with
      | some freeSpace => .ok freeSpace
      | none => .error (.freeDiskSpaceScript
          ("In DiskSystemFreeSpaceList::fetchFreeDiskSpaceWithScript(): the json received from " ++
            "the script " ++ scriptPath ++ " json=" ++ sp.stdout ++ " could not be used to get " ++
            "the FreeSpace, the json to receive from the script should have the following " ++
            "format: \x7b\"freeSpace\":42\x7d."))

def getDiskSystemFreeSpaceQueryURL (ds : DiskSystem) : String :=
  let dsURL := ds.diskInstanceSpace.freeSpaceQueryURL
  if "eosSpace".toList.isPrefixOf dsURL.toList then
    "eos:" ++ ds.diskInstanceSpace.diskInstance ++ String.ofList (dsURL.toList.drop 8)
  else dsURL

/-- The script, if there is one, and EOS itself where the script fails; or a constant. -/
def query (w : Surroundings) (externalFreeDiskSpaceScript : String) (ds : DiskSystem) :
    Except FetchFailure UInt64 :=
  let freeSpaceQueryUrl := getDiskSystemFreeSpaceQueryURL ds
  let eosSpace := w.lib.exec "^eos:(.*):(.*)$" freeSpaceQueryUrl
  if !eosSpace.isEmpty then
    let byEos := (group eosSpace 1).bind fun instanceAddress =>
      (group eosSpace 2).bind fun spaceName => fetchFreeDiskSpace w instanceAddress spaceName
    if externalFreeDiskSpaceScript ≠ "" then
      match fetchFreeDiskSpaceWithScript w externalFreeDiskSpaceScript ds with
      | .error (.freeDiskSpaceScript _) => byEos
      | result => result
    else byEos
  else
    let constantFreeSpace := w.lib.exec "^constantFreeSpace:(.*)" freeSpaceQueryUrl
    if !constantFreeSpace.isEmpty then (group constantFreeSpace 1).bind fetchConstantFreeSpace
    else .error (.freeDiskSpace ("In DiskSystemFreeSpaceList::fetchDiskSystemFreeSpace(): could " ++
      "not interpret free space query URL."))

structure Space where
  freeSpace : UInt64
  lastRefreshTime : UInt64
  deriving DecidableEq, Repr

abbrev Catalogue := List ((String × String) × Space)

def key (ds : DiskSystem) : String × String :=
  (ds.diskInstanceSpace.diskInstance, ds.diskInstanceSpace.name)

def modifyDiskInstanceSpaceFreeSpace (catalogue : Catalogue) (k : String × String)
    (freeSpace now : UInt64) : Except FetchFailure Catalogue :=
  if catalogue.any fun row => row.1 = k then
    .ok (catalogue.map fun row => if row.1 = k then (k, ⟨freeSpace, now⟩) else row)
  else .error (.exception ("Cannot modify disk system " ++ k.2 ++ " because it does not exist"))

/-- What is done for a disk system: the free space that the list has is taken, or it is queried, and
what is written to the catalogue. -/
inductive Round where
  | fresh (ds : DiskSystem)
  | queried (ds : DiskSystem) (result : Except FetchFailure UInt64) (modified : Option UInt64)

structure DiskSystemFreeSpace where
  freeSpace : UInt64
  targetedFreeSpace : UInt64
  fetchTime : UInt64
  deriving DecidableEq, Repr

def inOrder {α : Type*} [LinearOrder α] (set : Finset α) : List α := set.sort

structure Fetch where
  surroundings : Surroundings
  systemList : List DiskSystem
  externalFreeDiskSpaceScript : String
  diskSystems : Finset String

/-- `written` are the rows that were written, and `failure` is what ended the loop. -/
structure Progress where
  rounds : List Round
  catalogue : Catalogue
  written : Catalogue
  failure : Option FetchFailure

def Progress.cons (round : Round) (written : Catalogue) (p : Progress) : Progress :=
  { p with rounds := round :: p.rounds, written := written ++ p.written }

inductive Outcome where
  | returned
  | diskSystemFreeSpaceList (m_failedDiskSystems : List (String × String))
  | threw (failure : FetchFailure)
  deriving DecidableEq, Repr

namespace Fetch
variable (f : Fetch)

def isFresh (ds : DiskSystem) : Bool :=
  ds.diskInstanceSpace.lastRefreshTime + ds.diskInstanceSpace.refreshInterval ≥
    f.surroundings.currentTime ds.name

def query (ds : DiskSystem) : Except FetchFailure UInt64 :=
  FreeSpace.query f.surroundings f.externalFreeDiskSpaceScript ds

def modify (catalogue : Catalogue) (ds : DiskSystem) (freeSpace : UInt64) :
    Except FetchFailure Catalogue :=
  if f.surroundings.refuses ds.name then .error (.exception "modifyDiskInstanceSpaceFreeSpace: ")
  else modifyDiskInstanceSpaceFreeSpace catalogue (key ds) freeSpace (f.surroundings.now ds.name)

/-- The free space that the loop goes on with: zero after a `FreeDiskSpaceException`, and none
after any other exception. -/
def goesOnWith : Except FetchFailure UInt64 → Except FetchFailure UInt64
  | .error (.freeDiskSpace _) => .ok 0
  | result => result

def loop : List String → Catalogue → Progress
  | [], catalogue => ⟨[], catalogue, [], none⟩
  | name :: names, catalogue =>
    match DiskSystemList.at_ f.systemList name with
    | .error _ =>
      ⟨[], catalogue, [], some (.outOfRange "In DiskSystemList::at(): name not found.")⟩
    | .ok ds =>
      if f.isFresh ds then (loop names catalogue).cons (.fresh ds) []
      else
        match goesOnWith (f.query ds) with
        | .error e => ⟨[.queried ds (f.query ds) none], catalogue, [], some e⟩
        | .ok freeSpace =>
          match f.modify catalogue ds freeSpace with
          | .error e =>
            ⟨[.queried ds (f.query ds) (some freeSpace)], catalogue, [], some e⟩
          | .ok catalogue' =>
            (loop names catalogue').cons (.queried ds (f.query ds) (some freeSpace))
              [(key ds, ⟨freeSpace, f.surroundings.now ds.name⟩)]

def fetchDiskSystemFreeSpace (catalogue : Catalogue) : Progress :=
  f.loop (inOrder f.diskSystems) catalogue

end Fetch

def Round.failed : Round → Option (String × String)
  | queried ds (.error (.freeDiskSpace message)) _ => some (ds.name, message)
  | _ => none

def Round.entry (w : Surroundings) : Round → Option (String × DiskSystemFreeSpace)
  | fresh ds => some (ds.name,
      ⟨ds.diskInstanceSpace.freeSpace, ds.targetedFreeSpace, w.now ds.name⟩)
  | queried ds _ (some freeSpace) => some (ds.name,
      ⟨freeSpace, ds.targetedFreeSpace, w.now ds.name⟩)
  | queried _ _ none => none

def Progress.outcome (p : Progress) : Outcome :=
  match p.failure with
  | some e => .threw e
  | none =>
    let failedToFetchDiskSystems := p.rounds.filterMap Round.failed
    if failedToFetchDiskSystems.isEmpty then .returned
    else .diskSystemFreeSpaceList failedToFetchDiskSystems

def Round.obtained : Round → Option ((String × String) × UInt64)
  | queried ds (.ok freeSpace) _ => some (key ds, freeSpace)
  | _ => none

/-- `rows` are all rows that were ever in the catalogue, and `obtained` the values that queries
returned for a space or that it had at first. -/
structure History where
  catalogue : Catalogue
  rows : Catalogue
  obtained : List ((String × String) × UInt64)

def History.start (catalogue : Catalogue) : History where
  catalogue := catalogue
  rows := catalogue
  obtained := catalogue.map fun row => (row.1, row.2.freeSpace)

def History.next (h : History) (f : Fetch) : History :=
  let p := f.fetchDiskSystemFreeSpace h.catalogue
  { catalogue := p.catalogue
    rows := h.rows ++ p.written
    obtained := h.obtained ++ p.rounds.filterMap Round.obtained }

/-- The list of the process was read from the catalogue, now or some time ago. -/
def ReadFrom (h : History) (f : Fetch) : Prop :=
  ∀ ds ∈ f.systemList,
    (key ds, ⟨ds.diskInstanceSpace.freeSpace, ds.diskInstanceSpace.lastRefreshTime⟩) ∈ h.rows

/-- Only what a query returned is written to the catalogue, the exception lists the disk systems
whose query failed, and what is taken without a query was returned by one. -/
structure Right (h : History) (f : Fetch) : Prop where
  modified : ∀ ds result v, Round.queried ds result (some v) ∈
    (f.fetchDiskSystemFreeSpace h.catalogue).rounds → result = .ok v
  listed : ∀ m_failedDiskSystems, (f.fetchDiskSystemFreeSpace h.catalogue).outcome =
    .diskSystemFreeSpaceList m_failedDiskSystems → ∀ name,
      name ∈ m_failedDiskSystems.map (·.1) ↔ ∃ ds e modified, ds.name = name ∧
        Round.queried ds (.error e) modified ∈ (f.fetchDiskSystemFreeSpace h.catalogue).rounds
  thrown : ∀ ds e modified, Round.queried ds (.error e) modified ∈
    (f.fetchDiskSystemFreeSpace h.catalogue).rounds → ∃ m_failedDiskSystems,
      (f.fetchDiskSystemFreeSpace h.catalogue).outcome =
        .diskSystemFreeSpaceList m_failedDiskSystems
  fresh : ∀ ds, Round.fresh ds ∈ (f.fetchDiskSystemFreeSpace h.catalogue).rounds →
    (key ds, ds.diskInstanceSpace.freeSpace) ∈ h.obtained

/-- No query fails of a disk system that the loop comes to and whose free space is not fresh. The
loop does not come past a name that is not in the list or a row that cannot be written. -/
def NoneFails (f : Fetch) : List String → Catalogue → Prop
  | [], _ => True
  | name :: names, catalogue =>
    ∀ ds, DiskSystemList.at_ f.systemList name = .ok ds →
      if f.isFresh ds then NoneFails f names catalogue
      else ∃ freeSpace, f.query ds = .ok freeSpace ∧
        ∀ catalogue', f.modify catalogue ds freeSpace = .ok catalogue' →
          NoneFails f names catalogue'

section
variable {f : Fetch} {h : History} {names : List String} {catalogue : Catalogue} {ds : DiskSystem}
  {result : Except FetchFailure UInt64} {modified : Option UInt64}

theorem Fetch.goesOnWith_ok {freeSpace : UInt64} (hgo : Fetch.goesOnWith result = .ok freeSpace) :
    result = .ok freeSpace ∨
      freeSpace = 0 ∧ ∃ message, result = .error (.freeDiskSpace message) := by
  cases result with
  | ok v => exact .inl hgo
  | error e =>
    cases e with
    | freeDiskSpace message => exact .inr ⟨(Except.ok.inj hgo).symm, message, rfl⟩
    | _ => cases hgo

theorem Fetch.goesOnWith_error {e : FetchFailure} (hgo : Fetch.goesOnWith result = .error e) :
    result = .error e := by
  cases result with
  | ok v => cases hgo
  | error e' =>
    cases e' with
    | freeDiskSpace message => cases hgo
    | _ => exact hgo

theorem mem_systemList {name : String} (hds : DiskSystemList.at_ f.systemList name = .ok ds) :
    ds ∈ f.systemList := by
  unfold DiskSystemList.at_ at hds
  split at hds
  · rename_i found hfound
    obtain rfl := Except.ok.inj hds
    exact List.mem_of_find?_eq_some hfound
  · cases hds

theorem mem_systemList_of_fresh (hround : Round.fresh ds ∈ (f.loop names catalogue).rounds) :
    ds ∈ f.systemList := by
  induction names generalizing catalogue with
  | nil => exact absurd hround List.not_mem_nil
  | cons name names ih =>
    rw [Fetch.loop] at hround
    split at hround
    · exact absurd hround List.not_mem_nil
    · rename_i ds' hds'
      split at hround
      · rcases List.mem_cons.mp hround with hround | hround
        · exact Round.fresh.inj hround ▸ mem_systemList hds'
        · exact ih hround
      · split at hround
        · exact absurd (List.mem_singleton.mp hround) nofun
        · split at hround
          · exact absurd (List.mem_singleton.mp hround) nofun
          · rcases List.mem_cons.mp hround with hround | hround
            · cases hround
            · exact ih hround

theorem NoneFails.rounds (hnone : NoneFails f names catalogue) :
    (∀ ds result modified, Round.queried ds result modified ∈ (f.loop names catalogue).rounds →
      ∃ v, result = .ok v ∧ modified = some v) ∧
    ∀ row ∈ (f.loop names catalogue).written, (row.1, row.2.freeSpace) ∈
      (f.loop names catalogue).rounds.filterMap Round.obtained := by
  induction names generalizing catalogue with
  | nil => exact ⟨nofun, nofun⟩
  | cons name names ih =>
    rw [Fetch.loop]
    split
    · exact ⟨nofun, nofun⟩
    · rename_i ds hds
      have hds' := hnone ds hds
      split
      · rename_i hfresh
        rw [if_pos hfresh] at hds'
        obtain ⟨hrounds, hwritten⟩ := ih hds'
        refine ⟨fun ds' result modified hround => ?_, fun row hrow => hwritten row hrow⟩
        rcases List.mem_cons.mp hround with hround | hround
        · cases hround
        · exact hrounds ds' result modified hround
      · rename_i hfresh
        rw [if_neg hfresh] at hds'
        obtain ⟨freeSpace, hquery, hrest⟩ := hds'
        have hgo : Fetch.goesOnWith (f.query ds) = .ok freeSpace := by rw [hquery]; rfl
        simp only [hgo]
        split
        · refine ⟨fun ds' result modified hround => ?_, nofun⟩
          obtain ⟨-, rfl, rfl⟩ := Round.queried.inj (List.mem_singleton.mp hround)
          exact ⟨freeSpace, hquery, rfl⟩
        · rename_i catalogue' hmodify
          obtain ⟨hrounds, hwritten⟩ := ih (hrest catalogue' hmodify)
          refine ⟨fun ds' result modified hround => ?_, fun row hrow => ?_⟩
          · rcases List.mem_cons.mp hround with hround | hround
            · obtain ⟨-, rfl, rfl⟩ := Round.queried.inj hround
              exact ⟨freeSpace, hquery, rfl⟩
            · exact hrounds ds' result modified hround
          · have hobtained : (Round.queried ds (f.query ds) (some freeSpace)).obtained =
                some (key ds, freeSpace) := by rw [hquery]; rfl
            change _ ∈ List.filterMap Round.obtained (_ :: _)
            rw [List.filterMap_cons_some hobtained]
            rcases List.mem_append.mp hrow with hrow | hrow
            · obtain rfl := List.mem_singleton.mp hrow
              exact List.mem_cons_self
            · exact List.mem_cons_of_mem _ (hwritten row hrow)

theorem exists_failed (hnone : ¬NoneFails f names catalogue) :
    ∃ ds e modified, Round.queried ds (.error e) modified ∈ (f.loop names catalogue).rounds ∧
      (modified = some 0 ∨ ∃ e', (f.loop names catalogue).failure = some e') := by
  induction names generalizing catalogue with
  | nil => exact absurd trivial hnone
  | cons name names ih =>
    rw [NoneFails] at hnone
    push Not at hnone
    obtain ⟨ds, hds, hnone⟩ := hnone
    rw [Fetch.loop]
    simp only [hds]
    have hlater {round : Round} {written : Catalogue} {catalogue' : Catalogue}
        (hrest : ¬NoneFails f names catalogue') : ∃ ds e modified, Round.queried ds (.error e)
          modified ∈ ((f.loop names catalogue').cons round written).rounds ∧ (modified = some 0 ∨
            ∃ e', ((f.loop names catalogue').cons round written).failure = some e') := by
      obtain ⟨ds', e, modified, hround, hend⟩ := ih hrest
      exact ⟨ds', e, modified, List.mem_cons_of_mem _ hround, hend⟩
    split
    · rename_i hfresh
      rw [if_pos hfresh] at hnone
      exact hlater hnone
    · rename_i hfresh
      rw [if_neg hfresh] at hnone
      split
      · rename_i e hgo
        exact ⟨ds, e, none, List.mem_singleton.mpr (by rw [Fetch.goesOnWith_error hgo]),
          .inr ⟨e, rfl⟩⟩
      · rename_i freeSpace hgo
        rcases Fetch.goesOnWith_ok hgo with hquery | ⟨rfl, message, hquery⟩
        · obtain ⟨catalogue', hmodify, hrest⟩ : ∃ catalogue',
              f.modify catalogue ds freeSpace = .ok catalogue' ∧ ¬NoneFails f names catalogue' := by
            simpa [hquery] using hnone
          simp only [hmodify]
          exact hlater hrest
        · rw [hquery]
          split
          · exact ⟨ds, _, some 0, List.mem_singleton.mpr rfl, .inl rfl⟩
          · exact ⟨ds, _, some 0, List.mem_cons_self, .inl rfl⟩

def Known (h : History) : Prop := ∀ row ∈ h.rows, (row.1, row.2.freeSpace) ∈ h.obtained

theorem known_start (catalogue : Catalogue) : Known (.start catalogue) :=
  fun _ hrow => List.mem_map_of_mem (f := fun row : (String × String) × Space =>
    (row.1, row.2.freeSpace)) hrow

theorem Known.next (hknown : Known h) (hnone : NoneFails f (inOrder f.diskSystems) h.catalogue) :
    Known (h.next f) := by
  intro row hrow
  rcases List.mem_append.mp hrow with hrow | hrow
  · exact List.mem_append_left _ (hknown row hrow)
  · exact List.mem_append_right _ (hnone.rounds.2 row hrow)

theorem right_iff (hknown : Known h) (hread : ReadFrom h f) :
    Right h f ↔ NoneFails f (inOrder f.diskSystems) h.catalogue := by
  constructor
  · intro hright
    by_contra hnone
    obtain ⟨ds, e, modified, hround, hend⟩ := exists_failed hnone
    rcases hend with rfl | ⟨e', hfailure⟩
    · cases hright.modified ds _ 0 hround
    · obtain ⟨failed, houtcome⟩ := hright.thrown ds e modified hround
      have hthrew : (f.fetchDiskSystemFreeSpace h.catalogue).outcome = .threw e' := by
        rw [Progress.outcome, Fetch.fetchDiskSystemFreeSpace, hfailure]
      cases hthrew.symm.trans houtcome
  · intro hnone
    obtain ⟨hrounds, -⟩ := hnone.rounds
    have hfailed : (f.fetchDiskSystemFreeSpace h.catalogue).rounds.filterMap Round.failed = [] := by
      rw [List.filterMap_eq_nil_iff]
      intro round hround
      cases round with
      | fresh => rfl
      | queried ds result modified =>
        obtain ⟨v, rfl, -⟩ := hrounds ds result modified hround
        rfl
    refine ⟨fun ds result v hround => ?_, fun failed houtcome => ?_, fun ds e modified hround => ?_,
      fun ds hround => ?_⟩
    · obtain ⟨v', hresult, hv⟩ := hrounds ds result (some v) hround
      rwa [Option.some.inj hv]
    · exfalso
      unfold Progress.outcome at houtcome
      split at houtcome
      · cases houtcome
      · simp only [hfailed, List.isEmpty_nil, if_true] at houtcome
        cases houtcome
    · obtain ⟨v, hresult, -⟩ := hrounds ds (.error e) modified hround
      cases hresult
    · exact hknown _ (hread ds (mem_systemList_of_fresh hround))

/-- Runs of fetches are right as long as no query fails. -/
theorem fetches_right_iff {fetches : List Fetch}
    (hread : AllSteps History.next ReadFrom (.start catalogue) fetches) :
    AllSteps History.next Right (.start catalogue) fetches ↔
      AllSteps History.next (fun h f => NoneFails f (inOrder f.diskSystems) h.catalogue)
        (.start catalogue) fetches := by
  have hboth : AllSteps History.next (fun h f => Right h f ∧ ReadFrom h f) (.start catalogue)
      fetches ↔ AllSteps History.next
        (fun h f => NoneFails f (inOrder f.diskSystems) h.catalogue ∧ ReadFrom h f)
        (.start catalogue) fetches :=
    allSteps_iff (I := Known)
      (fun h f _ hknown => ⟨and_congr_left fun hread => right_iff hknown hread,
        fun hnone => hknown.next hnone.1⟩) (known_start catalogue)
  constructor
  · intro hright
    exact (hboth.mp (hright.and hread)).of_invariant (I := fun _ => True)
      (fun _ _ _ hstep => ⟨hstep.1, trivial⟩) trivial
  · intro hnone
    exact (hboth.mpr (hnone.and hread)).of_invariant (I := fun _ => True)
      (fun _ _ _ hstep => ⟨hstep.1, trivial⟩) trivial

end

def constantOnly : RegexLibrary where
  regcomp _ := true
  exec regexp text :=
    if regexp = "^constantFreeSpace:(.*)" ∧ text = "constantFreeSpace:1000" then [text, "1000"]
    else []

def surroundingsAt (time : UInt64) : Surroundings where
  lib := constantOnly
  eos _ := none
  runScript _ _ := none
  buildFromJSON _ := none
  errnum := id
  currentTime _ := time
  now _ := time
  refuses _ := false

def diskSystem (url : String) (freeSpace lastRefreshTime : UInt64) : DiskSystem where
  name := "ds"
  diskInstanceSpace :=
    { name := "space", diskInstance := "eosdev", freeSpaceQueryURL := url, refreshInterval := 60
      lastRefreshTime, freeSpace }
  fileRegexp := "^root://"
  targetedFreeSpace := 10

def fetchAt (time : UInt64) (url : String) (freeSpace lastRefreshTime : UInt64) : Fetch where
  surroundings := surroundingsAt time
  systemList := [diskSystem url freeSpace lastRefreshTime]
  externalFreeDiskSpaceScript := ""
  diskSystems := {"ds"}

def stale : Catalogue := [(("eosdev", "space"), ⟨500, 1⟩)]

theorem fetch_one (time : UInt64) (url : String) (freeSpace lastRefreshTime : UInt64)
    (catalogue : Catalogue) :
    inOrder (fetchAt time url freeSpace lastRefreshTime).diskSystems = ["ds"] ∧
      (fetchAt time url freeSpace lastRefreshTime).fetchDiskSystemFreeSpace catalogue =
        (fetchAt time url freeSpace lastRefreshTime).loop ["ds"] catalogue := by
  have hsort : inOrder (fetchAt time url freeSpace lastRefreshTime).diskSystems = ["ds"] :=
    Finset.sort_singleton _ _
  exact ⟨hsort, by rw [Fetch.fetchDiskSystemFreeSpace, hsort]⟩

def constantFetches : List Fetch :=
  [fetchAt 1000 "constantFreeSpace:1000" 500 1, fetchAt 1030 "constantFreeSpace:1000" 1000 1000]

theorem fetches_right_iff_constant :
    AllSteps History.next Right (.start stale) constantFetches := by
  have hnext : History.next (.start stale) (fetchAt 1000 "constantFreeSpace:1000" 500 1) =
      { catalogue := [(("eosdev", "space"), ⟨1000, 1000⟩)]
        rows := stale ++ [(("eosdev", "space"), ⟨1000, 1000⟩)]
        obtained := [(("eosdev", "space"), 500), (("eosdev", "space"), 1000)] } := by
    simp only [History.next, (fetch_one 1000 _ 500 1 _).2]
    rfl
  have hread : AllSteps History.next ReadFrom (.start stale) constantFetches := by
    refine ⟨fun ds hds => ?_, fun ds hds => ?_, trivial⟩
    · obtain rfl := List.mem_singleton.mp hds
      exact List.mem_singleton.mpr rfl
    · obtain rfl := List.mem_singleton.mp hds
      rw [hnext]
      exact List.mem_append_right _ (List.mem_singleton.mpr rfl)
  have hfirst (catalogue : Catalogue) :
      NoneFails (fetchAt 1000 "constantFreeSpace:1000" 500 1) ["ds"] catalogue := by
    intro ds hds
    obtain rfl : diskSystem "constantFreeSpace:1000" 500 1 = ds := Except.ok.inj hds
    exact ⟨1000, rfl, fun _ _ => trivial⟩
  have hsecond (catalogue : Catalogue) :
      NoneFails (fetchAt 1030 "constantFreeSpace:1000" 1000 1000) ["ds"] catalogue := by
    intro ds hds
    obtain rfl : diskSystem "constantFreeSpace:1000" 1000 1000 = ds := Except.ok.inj hds
    exact trivial
  refine (fetches_right_iff hread).mpr ⟨?_, ?_, trivial⟩
  · simp only [(fetch_one 1000 _ 500 1 []).1]
    exact hfirst _
  · simp only [(fetch_one 1030 _ 1000 1000 []).1]
    exact hsecond _

def unknownFetches : List Fetch := [fetchAt 1000 "unknown" 500 1, fetchAt 1030 "unknown" 0 1000]

theorem fetches_not_right_unknown :
    AllSteps History.next ReadFrom (.start stale) unknownFetches ∧
      ¬AllSteps History.next Right (.start stale) unknownFetches := by
  have hnext : History.next (.start stale) (fetchAt 1000 "unknown" 500 1) =
      { catalogue := [(("eosdev", "space"), ⟨0, 1000⟩)]
        rows := stale ++ [(("eosdev", "space"), ⟨0, 1000⟩)]
        obtained := [(("eosdev", "space"), 500)] } := by
    simp only [History.next, (fetch_one 1000 _ 500 1 _).2]
    rfl
  constructor
  · refine ⟨fun ds hds => ?_, fun ds hds => ?_, trivial⟩
    · obtain rfl := List.mem_singleton.mp hds
      exact List.mem_singleton.mpr rfl
    · obtain rfl := List.mem_singleton.mp hds
      rw [hnext]
      exact List.mem_append_right _ (List.mem_singleton.mpr rfl)
  · rintro ⟨-, hright, -⟩
    rw [hnext] at hright
    have hfresh := hright.fresh (diskSystem "unknown" 0 1000) (by
      rw [(fetch_one 1030 _ 0 1000 _).2]
      exact List.mem_singleton.mpr rfl)
    exact absurd hfresh (by decide +kernel)

end Cta.Disk.FreeSpace

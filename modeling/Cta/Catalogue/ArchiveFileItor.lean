import Mathlib.Data.List.Basic

/-! The iterators over archive files, which put the rows of a result set together again. -/
namespace Cta.Catalogue.ArchiveFileItor
variable {β : Type}

structure TapeFile (β : Type) where
  vid : String
  fSeq : UInt64
  blockId : UInt64
  fileSize : UInt64
  copyNb : UInt8
  creationTime : Int64
  checksumBlob : β
  deriving DecidableEq, Repr

structure ArchiveFile (β : Type) where
  archiveFileID : UInt64
  diskInstance : String
  diskFileId : String
  owner_uid : UInt32
  gid : UInt32
  fileSize : UInt64
  checksumBlob : β
  storageClass : String
  creationTime : Int64
  reconciliationTime : Int64
  tapeFiles : List (TapeFile β)
  deriving DecidableEq, Repr

structure TapeFileColumns where
  vid : String
  fSeq : UInt64
  blockId : UInt64
  logicalSizeInBytes : UInt64
  copyNb : UInt64
  tapeFileCreationTime : UInt64
  deriving DecidableEq, Repr

structure Row where
  archiveFileId : UInt64
  diskInstanceName : String
  diskFileId : String
  diskFileUid : UInt64
  diskFileGid : UInt64
  sizeInBytes : UInt64
  checksumBlob : List UInt8
  checksumAdler32 : UInt64
  storageClassName : String
  archiveFileCreationTime : UInt64
  reconciliationTime : UInt64
  tapeFile : Option TapeFileColumns
  deriving DecidableEq, Repr

section Checksums
variable (deserializeOrSetAdler32 : List UInt8 → UInt32 → β)

def Row.checksums (row : Row) : β :=
  deserializeOrSetAdler32 row.checksumBlob row.checksumAdler32.toUInt32

def Row.tapeFiles (row : Row) : List (TapeFile β) :=
  row.tapeFile.toList.map fun tapeFile =>
    { vid := tapeFile.vid
      fSeq := tapeFile.fSeq
      blockId := tapeFile.blockId
      fileSize := tapeFile.logicalSizeInBytes
      copyNb := tapeFile.copyNb.toUInt8
      creationTime := tapeFile.tapeFileCreationTime.toInt64
      checksumBlob := row.checksums deserializeOrSetAdler32 }

def populateArchiveFile (row : Row) : ArchiveFile β where
  archiveFileID := row.archiveFileId
  diskInstance := row.diskInstanceName
  diskFileId := row.diskFileId
  owner_uid := row.diskFileUid.toUInt32
  gid := row.diskFileGid.toUInt32
  fileSize := row.sizeInBytes
  checksumBlob := row.checksums deserializeOrSetAdler32
  storageClass := row.storageClassName
  creationTime := row.archiveFileCreationTime.toInt64
  reconciliationTime := row.reconciliationTime.toInt64
  tapeFiles := row.tapeFiles deserializeOrSetAdler32

def append (m_archiveFile : Option (ArchiveFile β)) (tapeFile : ArchiveFile β) :
    Except String (Option (ArchiveFile β) × Option (ArchiveFile β)) :=
  match m_archiveFile with
  | none =>
    if tapeFile.tapeFiles.isEmpty then .ok (some tapeFile, none)
    else if tapeFile.tapeFiles.length ≠ 1 then
      .error ("append failed: Expected exactly one tape file to be appended at a time: actual=" ++
        toString tapeFile.tapeFiles.length)
    else .ok (none, some tapeFile)
  | some current =>
    if tapeFile.tapeFiles.isEmpty then .ok (some current, some tapeFile)
    else if tapeFile.archiveFileID = current.archiveFileID then
      if tapeFile.tapeFiles.length ≠ 1 then
        .error ("append failed: Expected exactly one tape file to be appended at a time: actual=" ++
          toString tapeFile.tapeFiles.length ++ " archiveFileID=" ++
          toString tapeFile.archiveFileID)
      else
        .ok (none, some { current with
          tapeFiles := current.tapeFiles ++ tapeFile.tapeFiles.head?.toList })
    else .ok (some current, some tapeFile)

/-- The rows that are left, the current one first, and the file under construction. -/
structure Itor (β : Type) where
  m_rset : List Row
  m_hasMoreHasBeenCalled : Bool
  m_archiveFile : Option (ArchiveFile β)

namespace Itor

def construct (rows : List Row) : Itor β := ⟨rows, false, none⟩

def m_rsetIsEmpty (itor : Itor β) : Bool := itor.m_rset.isEmpty

def hasMore (itor : Itor β) : Bool × Itor β :=
  (if itor.m_rsetIsEmpty then itor.m_archiveFile.isSome else true,
    { itor with m_hasMoreHasBeenCalled := true })

/-- The loop of `next`: the file, the rows that are left and the file under construction. -/
def fetch : List Row → Option (ArchiveFile β) →
    Except String (ArchiveFile β × List Row × Option (ArchiveFile β))
  | [], none =>
    .error ("next() was called with no more rows in the result set and no ArchiveFile object" ++
      " under construction")
  | [], some archiveFile => .ok (archiveFile, [], none)
  | row :: rows, m_archiveFile =>
    match append m_archiveFile (populateArchiveFile deserializeOrSetAdler32 row) with
    | .error e => .error e
    | .ok (some completeArchiveFile, m_archiveFile) =>
      .ok (completeArchiveFile, rows, m_archiveFile)
    -- without more rows the file under construction is complete too
    | .ok (none, m_archiveFile) => fetch rows m_archiveFile

def next (itor : Itor β) : Except String (ArchiveFile β × Itor β) :=
  if !itor.m_hasMoreHasBeenCalled then
    .error "next: hasMore() must be called before next()"
  else
    match fetch deserializeOrSetAdler32 itor.m_rset itor.m_archiveFile with
    | .error e => .error ("next: " ++ e)
    | .ok (archiveFile, m_rset, m_archiveFile) => .ok (archiveFile, ⟨m_rset, false, m_archiveFile⟩)

end Itor

def rowsOf (id : UInt64) (rows : List Row) : List Row := rows.filter fun r => r.archiveFileId = id

def rowsOfOthers (id : UInt64) (rows : List Row) : List Row :=
  rows.filter fun r => r.archiveFileId ≠ id

/-- One file for each identifier, in the order of the first rows, with the tape files of all its
rows. -/
def archiveFiles : List Row → List (ArchiveFile β)
  | [] => []
  | row :: rows =>
    { populateArchiveFile deserializeOrSetAdler32 row with
      tapeFiles := row.tapeFiles deserializeOrSetAdler32 ++
        (rowsOf row.archiveFileId rows).flatMap (·.tapeFiles deserializeOrSetAdler32) } ::
      archiveFiles (rowsOfOthers row.archiveFileId rows)
termination_by rows => rows.length
decreasing_by
  exact Nat.lt_succ_of_le (List.length_filter_le _ rows)

def Contiguous (rows : List Row) : Prop :=
  ∀ x y z, [x, y, z].Sublist rows → x.archiveFileId = z.archiveFileId →
    y.archiveFileId = x.archiveFileId

def OnTape (rows : List Row) : Prop :=
  rows.Pairwise fun x y => x.archiveFileId = y.archiveFileId →
    x.tapeFile.isSome ∧ y.tapeFile.isSome

/-- The iterator and the files returned so far, with calls of `next` where `hasMore` was called
since the last one and tells that there is more. -/
inductive Run (rows : List Row) : Itor β → List (ArchiveFile β) → Prop
  | start : Run rows (Itor.construct rows) []
  | hasMore {itor : Itor β} {returned : List (ArchiveFile β)} :
      Run rows itor returned → Run rows itor.hasMore.2 returned
  | next {itor itor' : Itor β} {returned : List (ArchiveFile β)} {archiveFile : ArchiveFile β} :
      Run rows itor returned → itor.m_hasMoreHasBeenCalled → itor.hasMore.1 →
        itor.next deserializeOrSetAdler32 = .ok (archiveFile, itor') →
        Run rows itor' (returned ++ [archiveFile])

def remaining (rows : List Row) : Option (ArchiveFile β) → List (ArchiveFile β)
  | none => archiveFiles deserializeOrSetAdler32 rows
  | some f =>
    { f with
      tapeFiles := f.tapeFiles ++
        (rowsOf f.archiveFileID rows).flatMap (·.tapeFiles deserializeOrSetAdler32) } ::
      archiveFiles deserializeOrSetAdler32 (rowsOfOthers f.archiveFileID rows)

theorem archiveFiles_cons (row : Row) (rows : List Row) :
    archiveFiles deserializeOrSetAdler32 (row :: rows) =
      remaining deserializeOrSetAdler32 rows
        (some (populateArchiveFile deserializeOrSetAdler32 row)) := by
  rw [archiveFiles]
  rfl

/-- The rows of a file are the first of those that are left, and have tape files. -/
def Continues (id : UInt64) (rows : List Row) : Prop :=
  (∀ y z, [y, z].Sublist rows → z.archiveFileId = id → y.archiveFileId = id) ∧
    ∀ y ∈ rows, y.archiveFileId = id → y.tapeFile.isSome

structure Good (rows : List Row) (m_archiveFile : Option (ArchiveFile β)) : Prop where
  contiguous : Contiguous rows
  onTape : OnTape rows
  continues : ∀ f, m_archiveFile = some f → Continues f.archiveFileID rows

theorem Contiguous.tail {row : Row} {rows : List Row} (h : Contiguous (row :: rows)) :
    Contiguous rows := fun x y z hsub => h x y z (hsub.cons row)

theorem Continues.tail {id : UInt64} {row : Row} {rows : List Row}
    (h : Continues id (row :: rows)) : Continues id rows :=
  ⟨fun y z hsub => h.1 y z (hsub.cons row), fun y hy => h.2 y (List.mem_cons_of_mem _ hy)⟩

theorem Continues.ended {id : UInt64} {row : Row} {rows : List Row}
    (h : Continues id (row :: rows)) (hne : row.archiveFileId ≠ id) :
    ∀ r ∈ row :: rows, r.archiveFileId ≠ id := by
  intro r hr heq
  rcases List.mem_cons.mp hr with rfl | hr
  · exact hne heq
  · exact hne (h.1 row r ((List.singleton_sublist.mpr hr).cons_cons row) heq)

theorem Good.continues_first {row : Row} {rows : List Row} {m_archiveFile : Option (ArchiveFile β)}
    (h : Good (row :: rows) m_archiveFile) : Continues row.archiveFileId rows := by
  refine ⟨fun y z hsub heq => h.contiguous row y z (hsub.cons_cons row) heq.symm,
    fun y hy heq => ?_⟩
  exact ((List.pairwise_cons.mp h.onTape).1 y hy heq.symm).2

theorem Good.first {row : Row} {rows : List Row} {m_archiveFile : Option (ArchiveFile β)}
    (h : Good (row :: rows) m_archiveFile) {f : ArchiveFile β}
    (hf : f.archiveFileID = row.archiveFileId) : Good rows (some f) :=
  ⟨h.contiguous.tail, (List.pairwise_cons.mp h.onTape).2, fun g hg => by
    obtain rfl := Option.some.inj hg
    exact hf ▸ h.continues_first⟩

theorem rowsOf_ended {id : UInt64} {rows : List Row} (h : ∀ r ∈ rows, r.archiveFileId ≠ id) :
    rowsOf id rows = [] ∧ rowsOfOthers id rows = rows :=
  ⟨List.filter_eq_nil_iff.mpr fun r hr => by simpa using h r hr,
    List.filter_eq_self.mpr fun r hr => by simpa using h r hr⟩

theorem remaining_ended {rows : List Row} {f : ArchiveFile β}
    (h : ∀ r ∈ rows, r.archiveFileId ≠ f.archiveFileID) :
    remaining deserializeOrSetAdler32 rows (some f) =
      f :: archiveFiles deserializeOrSetAdler32 rows := by
  obtain ⟨hsame, hother⟩ := rowsOf_ended h
  rw [remaining, hsame, hother, List.flatMap_nil, List.append_nil]

theorem tapeFiles_cases (row : Row) :
    row.tapeFile = none ∧ row.tapeFiles deserializeOrSetAdler32 = [] ∨
      row.tapeFile.isSome ∧ ∃ t, row.tapeFiles deserializeOrSetAdler32 = [t] := by
  cases h : row.tapeFile with
  | none => exact .inl ⟨rfl, by simp [Row.tapeFiles, h]⟩
  | some columns => exact .inr ⟨rfl, _, by simp [Row.tapeFiles, h]; rfl⟩

theorem fetch_spec {rows : List Row} {m_archiveFile : Option (ArchiveFile β)}
    (h : Good rows m_archiveFile) (hmore : rows ≠ [] ∨ m_archiveFile ≠ none) :
    ∃ f rows' m_archiveFile',
      Itor.fetch deserializeOrSetAdler32 rows m_archiveFile = .ok (f, rows', m_archiveFile') ∧
        remaining deserializeOrSetAdler32 rows m_archiveFile =
          f :: remaining deserializeOrSetAdler32 rows' m_archiveFile' ∧
        Good rows' m_archiveFile' := by
  induction rows generalizing m_archiveFile with
  | nil =>
    cases m_archiveFile with
    | none => simp at hmore
    | some f =>
      refine ⟨f, [], none, rfl, remaining_ended _ (by simp), h.contiguous, h.onTape, by simp⟩
  | cons row rows ih =>
    have hfirst : Good rows (some (populateArchiveFile deserializeOrSetAdler32 row)) := h.first rfl
    rcases tapeFiles_cases deserializeOrSetAdler32 row with ⟨hnone, htape⟩ | ⟨hsome, t, htape⟩
    · have hpopulated : (populateArchiveFile deserializeOrSetAdler32 row).tapeFiles = [] := htape
      cases m_archiveFile with
      | none =>
        -- the file is complete with this row
        refine ⟨populateArchiveFile deserializeOrSetAdler32 row, rows, none,
          by simp [Itor.fetch, append, hpopulated], ?_, hfirst.1, hfirst.2, by simp⟩
        refine (archiveFiles_cons _ row rows).trans (remaining_ended _ fun r hr heq => ?_)
        have hpair := (List.pairwise_cons.mp h.onTape).1 r hr heq.symm
        simp [hnone] at hpair
      | some f =>
        have hne : row.archiveFileId ≠ f.archiveFileID := fun heq => by
          have := (h.continues f rfl).2 row List.mem_cons_self heq
          simp [hnone] at this
        refine ⟨f, rows, _, by simp [Itor.fetch, append, hpopulated], ?_, hfirst⟩
        rw [remaining_ended _ ((h.continues f rfl).ended hne), archiveFiles_cons]
    · have hpopulated : (populateArchiveFile deserializeOrSetAdler32 row).tapeFiles = [t] := htape
      cases m_archiveFile with
      | none =>
        obtain ⟨f, rows', b, hfetch, heq, hgood⟩ := ih hfirst (by simp)
        refine ⟨f, rows', b, ?_, (archiveFiles_cons _ row rows).trans heq, hgood⟩
        simpa [Itor.fetch, append, hpopulated] using hfetch
      | some f =>
        by_cases hsame : row.archiveFileId = f.archiveFileID
        · -- one more tape file of the file under construction
          have hgood : Good rows (some { f with tapeFiles := f.tapeFiles ++ [t] }) :=
            h.first hsame.symm
          obtain ⟨g, rows', b, hfetch, heq, hgood'⟩ := ih hgood (by simp)
          refine ⟨g, rows', b, ?_, ?_, hgood'⟩
          · have hid : (populateArchiveFile deserializeOrSetAdler32 row).archiveFileID =
                f.archiveFileID := hsame
            simpa [Itor.fetch, append, hpopulated, hid] using hfetch
          · rw [← heq]
            simp [remaining, rowsOf, rowsOfOthers, hsame, htape]
        · have hid : (populateArchiveFile deserializeOrSetAdler32 row).archiveFileID ≠
              f.archiveFileID := hsame
          refine ⟨f, rows, _, by simp [Itor.fetch, append, hpopulated, hid], ?_, hfirst⟩
          rw [remaining_ended _ ((h.continues f rfl).ended hsame), archiveFiles_cons]

theorem hasMore_iff (itor : Itor β) :
    itor.hasMore.1 = true ↔
      remaining deserializeOrSetAdler32 itor.m_rset itor.m_archiveFile ≠ [] := by
  obtain ⟨rows, called, m_archiveFile⟩ := itor
  cases rows with
  | nil => cases m_archiveFile <;> simp [Itor.hasMore, Itor.m_rsetIsEmpty, remaining, archiveFiles]
  | cons row rows =>
    cases m_archiveFile with
    | none => simp [Itor.hasMore, Itor.m_rsetIsEmpty, remaining, archiveFiles]
    | some f => simp [Itor.hasMore, Itor.m_rsetIsEmpty, remaining]

theorem next_spec {itor : Itor β} (h : Good itor.m_rset itor.m_archiveFile)
    (hcalled : itor.m_hasMoreHasBeenCalled) (hmore : itor.hasMore.1) :
    ∃ f itor', itor.next deserializeOrSetAdler32 = .ok (f, itor') ∧
      remaining deserializeOrSetAdler32 itor.m_rset itor.m_archiveFile =
        f :: remaining deserializeOrSetAdler32 itor'.m_rset itor'.m_archiveFile ∧
      Good itor'.m_rset itor'.m_archiveFile := by
  have hleft : itor.m_rset ≠ [] ∨ itor.m_archiveFile ≠ none := by
    obtain ⟨rows, called, m_archiveFile⟩ := itor
    cases rows <;> cases m_archiveFile <;> simp_all [Itor.hasMore, Itor.m_rsetIsEmpty]
  obtain ⟨f, rows', b, hfetch, heq, hgood⟩ := fetch_spec deserializeOrSetAdler32 h hleft
  exact ⟨f, ⟨rows', false, b⟩, by simp [Itor.next, hcalled, hfetch], heq, hgood⟩

/-- What was returned and what is left are the files of the rows. -/
structure Inv (rows : List Row) (itor : Itor β) (returned : List (ArchiveFile β)) : Prop where
  good : Good itor.m_rset itor.m_archiveFile
  files : archiveFiles deserializeOrSetAdler32 rows =
    returned ++ remaining deserializeOrSetAdler32 itor.m_rset itor.m_archiveFile

theorem Run.inv {rows : List Row} (hc : Contiguous rows) (ht : OnTape rows) {itor : Itor β}
    {returned : List (ArchiveFile β)} (h : Run deserializeOrSetAdler32 rows itor returned) :
    Inv deserializeOrSetAdler32 rows itor returned := by
  induction h with
  | start => exact ⟨⟨hc, ht, by simp [Itor.construct]⟩, rfl⟩
  | hasMore _ ih => exact ⟨ih.good, ih.files⟩
  | next _ hcalled hmore hnext ih =>
    obtain ⟨f, itor', hnext', heq, hgood⟩ := next_spec deserializeOrSetAdler32 ih.good hcalled hmore
    obtain ⟨rfl, rfl⟩ := Prod.mk.inj (Except.ok.inj (hnext.symm.trans hnext'))
    exact ⟨hgood, by rw [ih.files, heq, List.append_assoc]; rfl⟩

/-- In every run the files come out one by one, `hasMore` tells whether one is left, and `next` does
not throw while there is. -/
theorem rows_grouped {rows : List Row} (hc : Contiguous rows) (ht : OnTape rows) {itor : Itor β}
    {returned : List (ArchiveFile β)} (h : Run deserializeOrSetAdler32 rows itor returned) :
    returned <+: archiveFiles deserializeOrSetAdler32 rows ∧
      (itor.hasMore.1 = true ↔ returned ≠ archiveFiles deserializeOrSetAdler32 rows) ∧
      (itor.hasMore.1 = true → ∃ archiveFile itor',
        itor.hasMore.2.next deserializeOrSetAdler32 = .ok (archiveFile, itor') ∧
          returned ++ [archiveFile] <+: archiveFiles deserializeOrSetAdler32 rows) := by
  have hinv := h.inv _ hc ht
  refine ⟨⟨_, hinv.files.symm⟩, ?_, fun hmore => ?_⟩
  · rw [hasMore_iff deserializeOrSetAdler32, hinv.files]
    simp
  · have hgood : Good itor.hasMore.2.m_rset itor.hasMore.2.m_archiveFile := hinv.good
    obtain ⟨f, itor', hnext, heq, -⟩ := next_spec deserializeOrSetAdler32 hgood rfl hmore
    refine ⟨f, itor', hnext,
      remaining deserializeOrSetAdler32 itor'.m_rset itor'.m_archiveFile, ?_⟩
    rw [hinv.files, List.append_assoc]
    exact congrArg (returned ++ ·) heq.symm

end Checksums

def rowWith (id : UInt64) (copyNb : Option UInt64) : Row where
  archiveFileId := id
  diskInstanceName := "disk"
  diskFileId := "file"
  diskFileUid := 1
  diskFileGid := 1
  sizeInBytes := 1
  checksumBlob := []
  checksumAdler32 := 0
  storageClassName := "class"
  archiveFileCreationTime := 0
  reconciliationTime := 0
  tapeFile := copyNb.map fun nb => ⟨"V", 1, 1, 1, nb, 0⟩

def threeRows : List Row := [rowWith 1 none, rowWith 2 (some 1), rowWith 2 (some 2)]

theorem contiguous_threeRows : Contiguous threeRows := by
  intro x y z hsub
  obtain ⟨rfl, rfl, rfl⟩ :
      x = rowWith 1 none ∧ y = rowWith 2 (some 1) ∧ z = rowWith 2 (some 2) := by
    simpa [threeRows] using hsub.eq_of_length rfl
  decide

theorem onTape_threeRows : OnTape threeRows := by
  unfold OnTape
  decide

/-- The file without a copy comes out first, then the one with two, and no other. -/
theorem rows_grouped_threeRows : ∃ (itor : Itor Unit) (first second : ArchiveFile Unit),
    Run (fun _ _ => ()) threeRows itor [first, second] ∧
      archiveFiles (fun _ _ => ()) threeRows = [first, second] ∧ itor.hasMore.1 = false ∧
      [first, second].map (fun f => f.tapeFiles.map (·.copyNb)) = [[], [1, 2]] := by
  have hfiles : (archiveFiles (fun _ _ => ()) threeRows).map
      (fun f => f.tapeFiles.map (·.copyNb)) = [[], [1, 2]] := by
    simp [threeRows, archiveFiles, rowsOf, rowsOfOthers, rowWith, Row.tapeFiles]
  have hlength := congrArg List.length hfiles
  rw [List.length_map] at hlength
  have hgroups {itor : Itor Unit} {returned : List (ArchiveFile Unit)}
      (h : Run (fun _ _ => ()) threeRows itor returned) :=
    rows_grouped (fun _ _ => ()) contiguous_threeRows onTape_threeRows h
  have hstart : Run (fun _ _ => ()) threeRows (Itor.construct threeRows).hasMore.2 [] :=
    .hasMore .start
  obtain ⟨-, hmore, hnext⟩ := hgroups hstart
  have hfirst := hmore.mpr fun hnil => by simp [← hnil] at hlength
  obtain ⟨first, itor₁, hnext₁, -⟩ := hnext hfirst
  have hrun₁ := Run.hasMore (.next hstart rfl hfirst hnext₁)
  obtain ⟨-, hmore₁, hnext'⟩ := hgroups hrun₁
  have hsecond := hmore₁.mpr fun hone => by simp [← hone] at hlength
  obtain ⟨second, itor₂, hnext₂, hprefix⟩ := hnext' hsecond
  have hrun₂ := Run.next hrun₁ rfl hsecond hnext₂
  have hall : [first, second] = archiveFiles (fun _ _ => ()) threeRows :=
    hprefix.eq_of_length hlength.symm
  refine ⟨itor₂, first, second, hrun₂, hall.symm, ?_, hall ▸ hfiles⟩
  rw [← Bool.not_eq_true, (hgroups hrun₂).2.1]
  exact not_not_intro hall

end Cta.Catalogue.ArchiveFileItor

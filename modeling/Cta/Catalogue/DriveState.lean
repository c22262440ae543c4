import Mathlib.Data.List.Basic
import Mathlib.Data.List.Nodup

/-! The drive states in the catalogue. -/
namespace Cta.Catalogue.DriveState

structure TapeDrive where
  driveName : String
  host : String
  logicalLibrary : String
  desiredUp : Bool
  desiredForceDown : Bool
  reasonUpDown : Option String := none
  userComment : Option String := none
  diskSystemName : Option String := none
  reservedBytes : Option Nat := none
  reservationSessionId : Option Nat := none
  deriving DecidableEq, Repr

def TapeDrive.key (row : TapeDrive) : String := row.driveName.toLower

/-- The drives, no two with the same name in lower case. -/
structure Table where
  rows : List TapeDrive
  nodup : (rows.map TapeDrive.key).Nodup

instance : DecidableEq Table := fun t u =>
  decidable_of_iff (t.rows = u.rows)
    ⟨fun h => by cases t; cases u; cases h; rfl, congrArg Table.rows⟩

namespace Table
variable {t : Table}

def getTapeDriveNames (t : Table) : List String := t.rows.map (·.driveName)

def getTapeDrive (t : Table) (tapeDriveName : String) : Option TapeDrive :=
  t.rows.find? (·.driveName = tapeDriveName)

def deleteTapeDrive (t : Table) (tapeDriveName : String) : Table where
  rows := t.rows.filter (·.driveName ≠ tapeDriveName)
  nodup := t.nodup.sublist (List.filter_sublist.map _)

/-- The insertion fails when the index has the name already. -/
def createTapeDrive (t : Table) (tapeDrive : TapeDrive) : Option Table :=
  if h : ∀ row ∈ t.rows, row.key ≠ tapeDrive.key then
    some {
      rows := t.rows ++ [tapeDrive]
      nodup := by
        rw [List.map_append, List.nodup_append]
        refine ⟨t.nodup, List.nodup_singleton _, fun key hkey new hnew => ?_⟩
        obtain ⟨row, hrow, rfl⟩ := List.mem_map.mp hkey
        rw [List.mem_singleton.mp hnew]
        exact h row hrow }
  else none

def update (t : Table) (tapeDriveName : String) (change : TapeDrive → TapeDrive)
    (hname : ∀ row, (change row).driveName = row.driveName) : Table where
  rows := t.rows.map fun row => if row.driveName = tapeDriveName then change row else row
  nodup := by
    have hsame : (t.rows.map fun row =>
        if row.driveName = tapeDriveName then change row else row).map TapeDrive.key =
        t.rows.map TapeDrive.key := by
      rw [List.map_map]
      refine List.map_congr_left fun row _ => ?_
      rw [Function.comp_apply, TapeDrive.key, TapeDrive.key]
      split
      · rw [hname]
      · rfl
    rw [hsame]
    exact t.nodup

@[simp] theorem update_rows {name : String} {change : TapeDrive → TapeDrive}
    {hname : ∀ row, (change row).driveName = row.driveName} :
    (t.update name change hname).rows =
      t.rows.map fun row => if row.driveName = name then change row else row := rfl

theorem getTapeDriveNames_update (name : String) (change : TapeDrive → TapeDrive)
    (hname : ∀ row, (change row).driveName = row.driveName) :
    (t.update name change hname).getTapeDriveNames = t.getTapeDriveNames := by
  rw [getTapeDriveNames, update_rows, List.map_map]
  refine List.map_congr_left fun row _ => ?_
  rw [Function.comp_apply]
  split
  · exact hname row
  · rfl

theorem eq_of_name {row other : TapeDrive} (hrow : row ∈ t.rows) (hother : other ∈ t.rows)
    (hname : row.driveName = other.driveName) : row = other :=
  List.inj_on_of_nodup_map t.nodup hrow hother (congrArg String.toLower hname)

theorem getTapeDrive_eq_some {name : String} {row : TapeDrive} :
    t.getTapeDrive name = some row ↔ row ∈ t.rows ∧ row.driveName = name := by
  constructor
  · intro h
    exact ⟨List.mem_of_find?_eq_some h, by simpa using List.find?_some h⟩
  · intro ⟨hrow, hname⟩
    cases hfound : t.getTapeDrive name with
    | none => simpa [hname] using List.find?_eq_none.mp hfound row hrow
    | some found =>
      have hmem : found ∈ t.rows := List.mem_of_find?_eq_some hfound
      have hsame : found.driveName = name := by simpa using List.find?_some hfound
      rw [eq_of_name hmem hrow (hsame.trans hname.symm)]

end Table

end Cta.Catalogue.DriveState

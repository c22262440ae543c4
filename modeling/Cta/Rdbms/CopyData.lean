import Mathlib.Data.List.Basic
import Cta.Lib.Text

/-! The rows of a bulk insert in the text format of COPY, and what PostgreSQL reads from them. -/
namespace Cta.Rdbms.CopyData
open Cta.Lib.Text

/-- A column with its fields; a field that is not set is NULL. -/
structure PostgresColumn where
  m_colName : String
  m_nbRows : Nat
  m_fieldValues : List (Bool × List Char)
  length_fieldValues : m_fieldValues.length = m_nbRows

namespace PostgresColumn

def construct (colName : String) (nbRows : Nat) : PostgresColumn :=
  ⟨colName, nbRows, List.replicate nbRows (false, []), List.length_replicate⟩

def outsideRows (function : String) (c : PostgresColumn) (index : Nat) : String :=
  function ++ " failed: colName=" ++ c.m_colName ++
    ": Field index is outside the available rows: index=" ++ toString index ++
    " m_nbRows=" ++ toString c.m_nbRows

def copyStrIntoField (c : PostgresColumn) (index : Nat) (str : List Char) :
    Except String PostgresColumn :=
  if index ≥ c.m_nbRows then .error (outsideRows "copyStrIntoField" c index)
  else .ok { c with
    m_fieldValues := c.m_fieldValues.set index (true, str)
    length_fieldValues := by rw [List.length_set, c.length_fieldValues] }

def field (c : PostgresColumn) (index : Nat) : Option (List Char) :=
  match c.m_fieldValues[index]? with
  | some (true, value) => some value
  | _ => none

def getValue (c : PostgresColumn) (index : Nat) : Except String (Option (List Char)) :=
  if index ≥ c.m_nbRows then .error (outsideRows "getValue" c index)
  else .ok ((c.field index).map cstr)

end PostgresColumn

/-- After a replacement the search goes on behind it; `skip` is what is left of the occurrence. -/
def replaceAll (from' to' : List Char) : Nat → List Char → List Char
  | _, [] => []
  | skip + 1, _ :: rest => replaceAll from' to' skip rest
  | 0, c :: rest =>
    if from' ≠ [] ∧ from'.isPrefixOf (c :: rest) then
      to' ++ replaceAll from' to' (from'.length - 1) rest
    else c :: replaceAll from' to' 0 rest

def fieldText : Option (List Char) → List Char
  | some val =>
    let field := replaceAll ['\\'] ['\\', '\\'] 0 val
    let field := replaceAll ['\n'] ['\\', '\n'] 0 field
    let field := replaceAll ['\r'] ['\\', '\r'] 0 field
    replaceAll ['\t'] ['\\', '\t'] 0 field
  | none => ['\\', 'N']

/-- The row so far gets the fields of the remaining columns, and the newline. -/
def addFields (i : Nat) : List PostgresColumn → List Char → Except String (List Char)
  | [], m_copyRow => .ok (m_copyRow ++ ['\n'])
  | column :: columns, m_copyRow => do
    let val ← column.getValue i
    -- no separator where the row is still empty
    let m_copyRow := if m_copyRow ≠ [] then m_copyRow ++ ['\t'] else m_copyRow
    addFields i columns (m_copyRow ++ fieldText val)

def copyRows (columns : List PostgresColumn) (PQputCopyData : Nat → List Char → Int) :
    List Nat → List (List Char) × Except String Unit
  | [] => ([], .ok ())
  | i :: rest =>
    match addFields i columns [] with
    | .error e => ([], .error e)
    | .ok m_copyRow =>
      if PQputCopyData i m_copyRow < 0 then
        ([m_copyRow], .error "Writing bulk insert data to the database")
      else
        let (sent, result) := copyRows columns PQputCopyData rest
        (m_copyRow :: sent, result)

def doCopyData (columns : List PostgresColumn) (rows : Nat)
    (PQputCopyData : Nat → List Char → Int) : List (List Char) × Except String Unit :=
  copyRows columns PQputCopyData (List.range rows)

/-- The fields of a row as they stand in the text, and the text behind the row. -/
def readRow : List (List Char) → List Char → List Char → Option (List (List Char) × List Char)
  | _, _, [] => none
  | fields, field, c :: rest =>
    if c = '\n' then some (fields ++ [field], rest)
    else if c = '\t' then readRow (fields ++ [field]) [] rest
    else if c = '\\' then
      match rest with
      | [] => none
      | quoted :: rest => readRow fields (field ++ ['\\', quoted]) rest
    else readRow fields (field ++ [c]) rest

def unquote : List Char → List Char
  | [] => []
  | ['\\'] => []
  | '\\' :: c :: rest => c :: unquote rest
  | c :: rest => c :: unquote rest

def decodeField (text : List Char) : Option (List Char) :=
  if text = ['\\', 'N'] then none else some (unquote text)

/-- The fields of one row; the row of a table without columns is empty. -/
def decodeRow (columns : Nat) (row : List Char) : Option (List (Option (List Char))) :=
  match readRow [] [] row with
  | some (fields, []) =>
    if columns = 0 ∧ fields = [[]] then some [] else some (fields.map decodeField)
  | _ => none

def quoteChar (c : Char) : List Char :=
  if c ∈ ['\\', '\n', '\r', '\t'] then ['\\', c] else [c]

theorem replaceAll_char (c : Char) (to' str : List Char) :
    replaceAll [c] to' 0 str = str.flatMap fun d => if d = c then to' else [d] := by
  induction str with
  | nil => rfl
  | cons d str ih =>
    by_cases hd : d = c
    · subst hd
      simp [replaceAll, ih]
    · simp [replaceAll, hd, Ne.symm hd, ih]

theorem fieldText_some (val : List Char) : fieldText (some val) = val.flatMap quoteChar := by
  simp only [fieldText, replaceAll_char, List.flatMap_assoc]
  congr 1
  funext c
  by_cases h1 : c = '\\'
  · subst h1; decide
  by_cases h2 : c = '\n'
  · subst h2; decide
  by_cases h3 : c = '\r'
  · subst h3; decide
  by_cases h4 : c = '\t'
  · subst h4; decide
  simp [quoteChar, h1, h2, h3, h4]

theorem readRow_cons (fields : List (List Char)) (field : List Char) (c : Char) (rest : List Char) :
    readRow fields field (c :: rest) =
      if c = '\n' then some (fields ++ [field], rest)
      else if c = '\t' then readRow (fields ++ [field]) [] rest
      else if c = '\\' then
        match rest with
        | [] => none
        | quoted :: rest => readRow fields (field ++ ['\\', quoted]) rest
      else readRow fields (field ++ [c]) rest := by
  cases rest <;> rfl

theorem readRow_tab (fields : List (List Char)) (field rest : List Char) :
    readRow fields field ('\t' :: rest) = readRow (fields ++ [field]) [] rest := by
  simp [readRow_cons]

theorem readRow_plain (fields : List (List Char)) (field rest : List Char) {c : Char}
    (hn : c ≠ '\n') (ht : c ≠ '\t') (hq : c ≠ '\\') :
    readRow fields field (c :: rest) = readRow fields (field ++ [c]) rest := by
  simp [readRow_cons, hn, ht, hq]

theorem unquote_plain {c : Char} (hq : c ≠ '\\') (rest : List Char) :
    unquote (c :: rest) = c :: unquote rest := by
  cases rest <;> simp [unquote, hq]

theorem readRow_quoteChar (fields : List (List Char)) (field : List Char) (c : Char)
    (rest : List Char) :
    readRow fields field (quoteChar c ++ rest) = readRow fields (field ++ quoteChar c) rest := by
  unfold quoteChar
  split_ifs with h
  · simp [readRow_cons]
  · simp only [List.mem_cons, List.not_mem_nil, or_false, not_or] at h
    exact readRow_plain fields field rest h.2.1 h.2.2.2 h.1

theorem readRow_fieldText (fields : List (List Char)) (field : List Char)
    (val : Option (List Char)) (rest : List Char) :
    readRow fields field (fieldText val ++ rest) =
      readRow fields (field ++ fieldText val) rest := by
  cases val with
  | none => simp [fieldText, readRow_cons]
  | some val =>
    rw [fieldText_some]
    induction val generalizing field with
    | nil => simp
    | cons c val ih =>
      rw [List.flatMap_cons, List.append_assoc, readRow_quoteChar, ih, List.append_assoc]

theorem unquote_quoteChar (c : Char) (rest : List Char) :
    unquote (quoteChar c ++ rest) = c :: unquote rest := by
  unfold quoteChar
  split_ifs with h
  · rfl
  · exact unquote_plain (fun hc => h (by simp [hc])) rest

theorem quoteChar_ne_null {c : Char} {rest : List Char} : quoteChar c ++ rest ≠ ['\\', 'N'] := by
  unfold quoteChar
  split_ifs with h
  · intro heq
    have hc : c = 'N' := by simpa using (List.cons.inj (List.cons.inj heq).2).1
    subst hc
    exact absurd h (by decide)
  · intro heq
    exact h (by simp [(List.cons.inj heq).1])

theorem decodeField_fieldText (val : Option (List Char)) : decodeField (fieldText val) = val := by
  cases val with
  | none => rfl
  | some val =>
    have hunquote : unquote (val.flatMap quoteChar) = val := by
      induction val with
      | nil => rfl
      | cons c val ih => rw [List.flatMap_cons, unquote_quoteChar, ih]
    rw [fieldText_some, decodeField, hunquote, if_neg]
    cases val with
    | nil => simp
    | cons c val =>
      rw [List.flatMap_cons]
      exact quoteChar_ne_null

/-- What the remaining fields add to a row, which is empty so far or not. -/
def rowText : Bool → List (Option (List Char)) → List Char
  | _, [] => ['\n']
  | separated, val :: vals =>
    (if separated then '\t' :: fieldText val else fieldText val) ++
      rowText (separated || !(fieldText val).isEmpty) vals

theorem addFields_ok {columns : List PostgresColumn} {i : Nat}
    (hrows : ∀ c ∈ columns, i < c.m_nbRows) (m_copyRow : List Char) :
    addFields i columns m_copyRow = .ok (m_copyRow ++
      rowText (!m_copyRow.isEmpty) (columns.map fun c => (c.field i).map cstr)) := by
  induction columns generalizing m_copyRow with
  | nil => rfl
  | cons column columns ih =>
    have hlt := hrows column List.mem_cons_self
    have hget : column.getValue i = .ok ((column.field i).map cstr) := by
      rw [PostgresColumn.getValue, if_neg (by omega)]
    have hrec := ih (fun c hc => hrows c (List.mem_cons_of_mem _ hc))
    simp only [addFields, hget, List.map_cons, rowText]
    change addFields i columns _ = _
    rw [hrec]
    cases m_copyRow with
    | nil => simp
    | cons d row => simp

theorem readRow_separated (fields : List (List Char)) (field : List Char)
    (vals : List (Option (List Char))) :
    readRow fields field (rowText true vals) =
      some (fields ++ field :: vals.map fieldText, []) := by
  induction vals generalizing fields field with
  | nil => simp [rowText, readRow_cons]
  | cons val vals ih =>
    simp only [rowText, if_true, Bool.true_or, List.cons_append]
    rw [readRow_tab, readRow_fieldText, ih]
    simp

theorem readRow_empty (vals : List (Option (List Char))) :
    ∃ fields, readRow [] [] (rowText false vals) = some (fields, []) ∧
      fields.length ≤ max 1 vals.length := by
  induction vals with
  | nil => exact ⟨[[]], rfl, by simp⟩
  | cons val vals ih =>
    by_cases hempty : fieldText val = []
    · obtain ⟨fields, hread, hlength⟩ := ih
      refine ⟨fields, by simpa [rowText, hempty] using hread, ?_⟩
      rw [List.length_cons]
      omega
    · refine ⟨fieldText val :: vals.map fieldText, ?_, by simp⟩
      have hne : (!(fieldText val).isEmpty) = true := by simpa using hempty
      simp only [rowText, Bool.false_or, hne, Bool.false_eq_true, if_false]
      rw [readRow_fieldText, readRow_separated]
      simp

theorem fieldText_eq_nil {val : Option (List Char)} : fieldText val = [] ↔ val = some [] := by
  constructor
  · intro h
    rw [← decodeField_fieldText val, h]
    rfl
  · rintro rfl
    rfl

theorem decodeRow_rowText_iff (vals : List (Option (List Char))) :
    decodeRow vals.length (rowText false vals) = some vals ↔
      vals.length ≤ 1 ∨ vals.head? ≠ some (some []) := by
  have hdecoded (l : List (Option (List Char))) : (l.map fieldText).map decodeField = l := by
    rw [List.map_map]
    exact (List.map_congr_left fun val _ => decodeField_fieldText val).trans (List.map_id l)
  cases vals with
  | nil => simp [rowText, decodeRow, readRow_cons]
  | cons val vals =>
    by_cases hempty : fieldText val = []
    · obtain rfl := fieldText_eq_nil.mp hempty
      cases vals with
      | nil => simp [rowText, decodeRow, readRow_cons, hempty, decodeField, unquote]
      | cons val' vals =>
        obtain ⟨fields, hread, hlength⟩ := readRow_empty (val' :: vals)
        have hrow : rowText false (some [] :: val' :: vals) = rowText false (val' :: vals) := by
          simp only [rowText, hempty, List.nil_append, Bool.false_or, List.isEmpty_nil,
            Bool.not_true, Bool.false_eq_true, if_false]
        constructor
        · intro hback
          rw [hrow, decodeRow, hread] at hback
          have hlen := congrArg List.length (Option.some.inj hback)
          simp at hlen hlength
          omega
        · rintro (h | h)
          · simp at h
          · exact absurd rfl h
    · have hne : (!(fieldText val).isEmpty) = true := by simpa using hempty
      have hread : readRow [] [] (rowText false (val :: vals)) =
          some ((val :: vals).map fieldText, []) := by
        simp only [rowText, Bool.false_or, hne, Bool.false_eq_true, if_false]
        rw [readRow_fieldText, readRow_separated]
        simp
      constructor
      · intro _
        exact .inr fun h => hempty (fieldText_eq_nil.mpr (Option.some.inj h))
      · intro _
        rw [decodeRow, hread]
        simp only [List.length_cons, Nat.add_eq_zero_iff, Nat.one_ne_zero, and_false, false_and,
          if_false, hdecoded]

theorem mem_copyRows {columns : List PostgresColumn} {PQputCopyData : Nat → List Char → Int}
    {is : List Nat} {k : Nat} {row : List Char}
    (h : (copyRows columns PQputCopyData is).1[k]? = some row) :
    ∃ i, is[k]? = some i ∧ addFields i columns [] = .ok row := by
  induction is generalizing k with
  | nil => simp [copyRows] at h
  | cons i is ih =>
    cases hrow : addFields i columns [] with
    | error e => simp [copyRows, hrow] at h
    | ok m_copyRow =>
      have hfirst {l : List (List Char)} (hl : (m_copyRow :: l)[k]? = some row)
          (hl' : ∀ j : Nat, l[j]? = some row →
            ∃ i : Nat, is[j]? = some i ∧ addFields i columns [] = .ok row) :
          ∃ i' : Nat, (i :: is)[k]? = some i' ∧ addFields i' columns [] = .ok row := by
        cases k with
        | zero =>
          obtain rfl : m_copyRow = row := by simpa using hl
          exact ⟨i, rfl, hrow⟩
        | succ k => simpa using hl' k (by simpa using hl)
      simp only [copyRows, hrow] at h
      split_ifs at h
      · exact hfirst h (by simp)
      · exact hfirst h fun j hj => ih hj

theorem copyRows_taken {columns : List PostgresColumn} {row : Nat → List Char} (is : List Nat)
    (hrow : ∀ i ∈ is, addFields i columns [] = .ok (row i)) :
    copyRows columns (fun _ _ => 1) is = (is.map row, .ok ()) := by
  induction is with
  | nil => rfl
  | cons i is ih =>
    rw [copyRows, hrow i List.mem_cons_self, ih fun j hj => hrow j (List.mem_cons_of_mem _ hj)]
    rfl

def ReadBack (columns : List PostgresColumn) (rows : Nat) : Prop :=
  ∀ PQputCopyData i row, (doCopyData columns rows PQputCopyData).1[i]? = some row →
    decodeRow columns.length row = some (columns.map (·.field i))

/-- A table is read back exactly when no row of several fields starts with an empty string. -/
theorem rows_read_back_iff {columns : List PostgresColumn} {rows : Nat}
    (hrows : ∀ c ∈ columns, rows ≤ c.m_nbRows)
    (hzero : ∀ c ∈ columns, ∀ i < rows, ∀ val, c.field i = some val → '\x00' ∉ val) :
    ReadBack columns rows ↔
      columns.length ≤ 1 ∨ ∀ i < rows, columns.head?.map (·.field i) ≠ some (some []) := by
  have hcstr {i : Nat} (hi : i < rows) :
      (columns.map fun c => (c.field i).map cstr) = columns.map (·.field i) := by
    refine List.map_congr_left fun c hc => ?_
    cases hval : c.field i with
    | none => rfl
    | some val => exact congrArg some (cstr_of_notMem (hzero c hc i hi val hval))
  have hrow {i : Nat} (hi : i < rows) :
      addFields i columns [] = .ok (rowText false (columns.map (·.field i))) := by
    simpa [hcstr hi] using addFields_ok (fun c hc => Nat.lt_of_lt_of_le hi (hrows c hc)) []
  have hiff (i : Nat) := decodeRow_rowText_iff (columns.map (·.field i))
  simp only [List.length_map, List.head?_map] at hiff
  constructor
  · intro hback
    by_cases hone : columns.length ≤ 1
    · exact .inl hone
    · refine .inr fun i hi => ((hiff i).mp ?_).resolve_left hone
      apply hback (fun _ _ => 1) i
      have htaken := copyRows_taken (List.range rows) fun i hi => hrow (List.mem_range.mp hi)
      rw [doCopyData, htaken, List.getElem?_map, List.getElem?_range hi]
      rfl
  · intro hcond PQputCopyData k row hsent
    obtain ⟨i, hi, hrow'⟩ := mem_copyRows hsent
    obtain ⟨hk, rfl⟩ := List.getElem?_eq_some_iff.mp hi
    simp only [List.getElem_range, List.length_range] at hrow' hk
    rw [hrow hk] at hrow'
    obtain rfl := Except.ok.inj hrow'
    exact (hiff k).mpr (hcond.imp id fun h => h k hk)

def oneRow (colName : String) (val : Option (List Char)) : PostgresColumn :=
  ⟨colName, 1, [(val.isSome, val.getD [])], rfl⟩

theorem rows_read_back_iff_null_first :
    ReadBack [oneRow "A" none, oneRow "B" (some ['x', '\t'])] 1 :=
  (rows_read_back_iff (by decide) (by decide)).mpr (.inr (by decide))

theorem empty_first_field_lost :
    (doCopyData [oneRow "A" (some []), oneRow "B" (some ['x'])] 1 fun _ _ => 1) =
        ([['x', '\n']], .ok ()) ∧
      decodeRow 2 ['x', '\n'] = some [some ['x']] ∧
      ¬ ReadBack [oneRow "A" (some []), oneRow "B" (some ['x'])] 1 := by
  refine ⟨rfl, rfl, fun h => ?_⟩
  have hback := h (fun _ _ => 1) 0 ['x', '\n'] rfl
  exact absurd hback (by decide)

end Cta.Rdbms.CopyData

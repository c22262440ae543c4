import Cta.Lib.Text
import Mathlib.Algebra.Ring.Nat
import Mathlib.Data.List.Basic

/-! The parameters of an SQL text: the indices their names get, and the numbered places that
PostgreSQL knows. -/
namespace Cta.Rdbms.SqlParams
open Cta.Lib.Text

def isValidParamNameChar (c : Char) : Bool :=
  ('0' ≤ c && c ≤ '9') || ('A' ≤ c && c ≤ 'Z') || ('a' ≤ c && c ≤ 'z') || c == '_'

def startsName (rest : List Char) : Bool := rest.head?.any isValidParamNameChar

abbrev NameToIdx := List (List Char × UInt32)

def addParam (paramName : List Char) (paramIdx : UInt32) (m_nameToIdx : NameToIdx) :
    Except String NameToIdx :=
  if paramName.isEmpty then .error "Parse error: Empty SQL parameter name"
  else if (m_nameToIdx.lookup paramName).isSome then
    .error ("Parse error: SQL parameter " ++ String.ofList paramName ++ " is a duplicate")
  else .ok (m_nameToIdx ++ [(paramName, paramIdx)])

/-- `none` is waiting for a parameter; otherwise the name read so far. -/
def scan : List Char → Option (List Char) → UInt32 → NameToIdx → Except String NameToIdx
  | [], none, _, m_nameToIdx => .ok m_nameToIdx
  | [], some paramName, paramIdx, m_nameToIdx => addParam paramName paramIdx m_nameToIdx
  | c :: rest, none, paramIdx, m_nameToIdx =>
    -- ':=' in PL/SQL code is overlooked
    if c = ':' ∧ startsName rest then scan rest (some [':']) paramIdx m_nameToIdx
    else scan rest none paramIdx m_nameToIdx
  | c :: rest, some paramName, paramIdx, m_nameToIdx =>
    if isValidParamNameChar c then scan rest (some (paramName ++ [c])) paramIdx m_nameToIdx
    else (addParam paramName paramIdx m_nameToIdx).bind (scan rest none (paramIdx + 1))

def ParamNameToIdx (sql : List Char) : Except String NameToIdx :=
  scan (cstr sql) none 1 []

def getIdx (m_nameToIdx : NameToIdx) (paramName : List Char) : Except String UInt32 :=
  match m_nameToIdx.lookup paramName with
  | none => .error ("getIdx failed: The SQL parameter " ++ String.ofList paramName ++
      " does not exist")
  | some idx => .ok idx

def replaceFirst (pg_sql : List Char) (n : Nat) : List Char :=
  before ':' pg_sql ++ '$' :: Nat.toDigits 10 n ++
    (behind ':' pg_sql).dropWhile isValidParamNameChar

theorem colon_notMem_digits (n : Nat) : ':' ∉ '$' :: Nat.toDigits 10 n := by
  intro h
  rcases List.mem_cons.mp h with h | h
  · exact absurd h (by decide)
  · exact absurd (Nat.isDigit_of_mem_toDigits (by omega) (by omega) h) (by decide)

theorem count_dropWhile_valid (l : List Char) :
    (l.dropWhile isValidParamNameChar).count ':' = l.count ':' := by
  induction l with
  | nil => rfl
  | cons c l ih =>
    by_cases hc : isValidParamNameChar c
    · have hne : c ≠ ':' := fun h => absurd (h ▸ hc) (by decide)
      rw [List.dropWhile_cons_of_pos hc, ih, List.count_cons_of_ne hne]
    · rw [List.dropWhile_cons_of_neg hc]

theorem count_replaceFirst {pg_sql : List Char} (n : Nat) (h : ':' ∈ pg_sql) :
    (replaceFirst pg_sql n).count ':' + 1 = pg_sql.count ':' := by
  obtain ⟨u, v, rfl, hu⟩ := List.eq_append_cons_of_mem h
  have hpre := List.count_eq_zero.mpr hu
  have hnum := List.count_eq_zero.mpr (colon_notMem_digits n)
  simp only [replaceFirst, before_append hu, behind_append hu, List.count_append,
    count_dropWhile_valid, List.count_cons_self, hpre, hnum]
  omega

/-- The loop of `CountAndReformatSqlBinds`, which searches from the start of the text at each
round. `none`: the count has passed what an `int` holds. -/
def reformat (pg_sql : List Char) (nParams : Nat) : Option (List Char × Nat) :=
  if ':' ∈ pg_sql then
    if nParams + 1 < 2^31 then reformat (replaceFirst pg_sql (nParams + 1)) (nParams + 1)
    else none
  else some (pg_sql, nParams)
termination_by pg_sql.count ':'
decreasing_by
  rename_i h _
  have := count_replaceFirst (nParams + 1) h
  omega

def CountAndReformatSqlBinds (common_sql : List Char) : Option (List Char × Nat) :=
  reformat common_sql 0

/-- The text with each occurrence of a parameter name replaced by its index, and nothing else. The
flag is on in the rest of a name that was replaced. -/
def replaceNames (m_nameToIdx : NameToIdx) : Bool → List Char → List Char
  | _, [] => []
  | skip, c :: rest =>
    if c = ':' then
      match m_nameToIdx.lookup (':' :: rest.takeWhile isValidParamNameChar) with
      | some idx => '$' :: Nat.toDigits 10 idx.toNat ++ replaceNames m_nameToIdx true rest
      | none => ':' :: replaceNames m_nameToIdx false rest
    else if skip && isValidParamNameChar c then replaceNames m_nameToIdx true rest
    else c :: replaceNames m_nameToIdx false rest

def EndsInParam (u : List Char) : Prop :=
  ∃ p name, u = p ++ ':' :: name ∧ name.all isValidParamNameChar

/-- Every colon has a name behind it, does not directly follow a parameter, and stands in front of
every zero character. -/
def SeparateParams (sql : List Char) : Prop :=
  ∀ u v, sql = u ++ ':' :: v → '\x00' ∉ u ∧ startsName v ∧ ¬ EndsInParam u

def numbered : Nat → Bool → List Char → List Char
  | _, _, [] => []
  | n, skip, c :: rest =>
    if c = ':' then '$' :: Nat.toDigits 10 (n + 1) ++ numbered (n + 1) true rest
    else if skip && isValidParamNameChar c then numbered n true rest
    else c :: numbered n false rest

theorem numbered_append (n : Nat) {pre : List Char} (hpre : ':' ∉ pre) (l : List Char) :
    numbered n false (pre ++ l) = pre ++ numbered n false l := by
  induction pre with
  | nil => rfl
  | cons c pre ih =>
    obtain ⟨hc, hpre⟩ := List.ne_and_not_mem_of_not_mem_cons hpre
    simp [numbered, Ne.symm hc, ih hpre]

theorem numbered_dropWhile (n : Nat) (l : List Char) :
    numbered n false (l.dropWhile isValidParamNameChar) = numbered n true l := by
  induction l with
  | nil => rfl
  | cons c l ih =>
    by_cases hc : isValidParamNameChar c
    · have hne : c ≠ ':' := fun h => absurd (h ▸ hc) (by decide)
      rw [List.dropWhile_cons_of_pos hc, ih]
      simp [numbered, hne, hc]
    · rw [List.dropWhile_cons_of_neg hc]
      simp [numbered, hc]

theorem numbered_replaceFirst {pg_sql : List Char} (n : Nat) (h : ':' ∈ pg_sql) :
    numbered (n + 1) false (replaceFirst pg_sql (n + 1)) = numbered n false pg_sql := by
  obtain ⟨u, v, rfl, hu⟩ := List.eq_append_cons_of_mem h
  rw [replaceFirst, before_append hu, behind_append hu, List.append_assoc, numbered_append _ hu,
    numbered_append _ hu, numbered_append _ (colon_notMem_digits _), numbered_dropWhile]
  simp [numbered]

theorem numbered_of_notMem (n : Nat) {l : List Char} (h : ':' ∉ l) : numbered n false l = l := by
  simpa [numbered] using numbered_append n h []

theorem reformat_eq (pg_sql : List Char) (nParams : Nat) (hn : nParams < 2^31) :
    reformat pg_sql nParams =
      if nParams + pg_sql.count ':' < 2^31 then
        some (numbered nParams false pg_sql, nParams + pg_sql.count ':')
      else none := by
  induction pg_sql, nParams using reformat.induct with
  | case1 pg_sql nParams h hlt ih =>
    have hcount := count_replaceFirst (nParams + 1) h
    rw [reformat, if_pos h, if_pos hlt, ih hlt, numbered_replaceFirst nParams h,
      show nParams + 1 + (replaceFirst pg_sql (nParams + 1)).count ':' =
        nParams + pg_sql.count ':' by omega]
  | case2 pg_sql nParams h hlt =>
    have hcount := List.count_pos_iff.mpr h
    rw [reformat, if_pos h, if_neg hlt, if_neg (by omega)]
  | case3 pg_sql nParams h =>
    have hcount := List.count_eq_zero.mpr h
    rw [reformat, if_neg h, hcount, if_pos (by omega), numbered_of_notMem nParams h]
    rfl

theorem addParam_ok {paramName : List Char} {paramIdx : UInt32} {m m' : NameToIdx}
    (h : addParam paramName paramIdx m = .ok m') :
    m.lookup paramName = none ∧ m' = m ++ [(paramName, paramIdx)] := by
  unfold addParam at h
  split_ifs at h with h1 h2
  exact ⟨Option.not_isSome_iff_eq_none.mp h2, (Except.ok.inj h).symm⟩

theorem bind_addParam_ok {paramName : List Char} {paramIdx : UInt32} {m m' : NameToIdx}
    {f : NameToIdx → Except String NameToIdx}
    (h : (addParam paramName paramIdx m).bind f = .ok m') :
    m.lookup paramName = none ∧ f (m ++ [(paramName, paramIdx)]) = .ok m' := by
  cases hadd : addParam paramName paramIdx m with
  | error e => rw [hadd] at h; cases h
  | ok m1 =>
    obtain ⟨hnone, rfl⟩ := addParam_ok hadd
    rw [hadd] at h
    exact ⟨hnone, h⟩

def params : Bool → List Char → Nat
  | _, [] => 0
  | inName, c :: rest =>
    if inName then if isValidParamNameChar c then params true rest else params false rest
    else if c = ':' ∧ startsName rest then params true rest + 1 else params false rest

theorem scan_length {l : List Char} {name : Option (List Char)} {idx : UInt32} {m m' : NameToIdx}
    (h : scan l name idx m = .ok m') :
    m'.length = m.length + params name.isSome l + name.isSome.toNat := by
  induction l generalizing name idx m with
  | nil =>
    cases name with
    | none => cases h; rfl
    | some nm =>
      obtain ⟨-, rfl⟩ := addParam_ok h
      simp [params]
  | cons c l ih =>
    cases name with
    | none =>
      simp only [scan, params, Option.isSome_none, Bool.false_eq_true, if_false] at h ⊢
      split_ifs at h ⊢
      · have := ih h
        simp at this ⊢
        omega
      · simpa using ih h
    | some nm =>
      simp only [scan, params, Option.isSome_some, if_true] at h ⊢
      split_ifs at h ⊢
      · simpa using ih h
      · obtain ⟨-, h⟩ := bind_addParam_ok h
        have := ih h
        simp at this ⊢
        omega

theorem scan_keeps {l : List Char} {name : Option (List Char)} {idx : UInt32} {m m' : NameToIdx}
    {x : List Char} {i : UInt32} (h : scan l name idx m = .ok m') (hx : m.lookup x = some i) :
    m'.lookup x = some i := by
  induction l generalizing name idx m with
  | nil =>
    cases name with
    | none => cases h; exact hx
    | some nm =>
      obtain ⟨-, rfl⟩ := addParam_ok h
      simp [List.lookup_append, hx]
  | cons c l ih =>
    cases name with
    | none =>
      unfold scan at h
      split_ifs at h <;> exact ih h hx
    | some nm =>
      unfold scan at h
      split_ifs at h
      · exact ih h hx
      · exact ih (bind_addParam_ok h).2 (by simp [List.lookup_append, hx])

theorem scan_current {l name : List Char} {idx : UInt32} {m m' : NameToIdx}
    (h : scan l (some name) idx m = .ok m') :
    m'.lookup (name ++ l.takeWhile isValidParamNameChar) = some idx := by
  have hadded {m : NameToIdx} (hnone : m.lookup name = none) :
      (m ++ [(name, idx)]).lookup name = some idx := by
    simp [List.lookup_append, hnone]
  induction l generalizing name with
  | nil =>
    obtain ⟨hnone, rfl⟩ := addParam_ok h
    simpa using hadded hnone
  | cons c l ih =>
    unfold scan at h
    split_ifs at h with hc
    · have hrec := ih h (fun hnone => by simp [List.lookup_append, hnone])
      rw [List.takeWhile_cons_of_pos hc]
      simpa using hrec
    · obtain ⟨hnone, h⟩ := bind_addParam_ok h
      rw [List.takeWhile_cons_of_neg hc, List.append_nil]
      exact scan_keeps h (hadded hnone)

def separate : Bool → List Char → Bool
  | _, [] => true
  | inName, c :: rest =>
    if c = '\x00' then !rest.contains ':'
    else if c = ':' then !inName && startsName rest && separate true rest
    else separate (inName && isValidParamNameChar c) rest

theorem takeWhile_cstr (l : List Char) :
    (cstr l).takeWhile isValidParamNameChar = l.takeWhile isValidParamNameChar := by
  induction l with
  | nil => rfl
  | cons c l ih =>
    by_cases h0 : c = '\x00'
    · subst h0; rfl
    · rw [cstr_cons h0, List.takeWhile_cons, List.takeWhile_cons, ih]

theorem startsName_cstr (l : List Char) : startsName (cstr l) = startsName l := by
  cases l with
  | nil => rfl
  | cons c l =>
    by_cases h0 : c = '\x00'
    · subst h0; rfl
    · rw [cstr_cons h0]; rfl

/-- There are at most as many names as colons, and as many only when all colons are parameters. -/
theorem params_count (inName : Bool) (sql : List Char) :
    params inName (cstr sql) ≤ sql.count ':' ∧
      (params inName (cstr sql) = sql.count ':' ↔ separate inName sql) := by
  induction sql generalizing inName with
  | nil => simp [params, separate]
  | cons c rest ih =>
    by_cases h0 : c = '\x00'
    · subst h0
      simp [params, separate, List.count_eq_zero, eq_comm (a := 0)]
    rw [cstr_cons h0]
    by_cases hcolon : c = ':'
    · subst hcolon
      have hinvalid : isValidParamNameChar ':' = false := by decide
      obtain ⟨hle, heq⟩ := ih true
      obtain ⟨hle', -⟩ := ih false
      cases inName <;> cases hstart : startsName rest <;>
        simp [params, separate, startsName_cstr, hinvalid, hstart, ← heq] <;> omega
    · cases inName <;> cases hc : isValidParamNameChar c <;>
        simpa [params, separate, hcolon, h0, hc, List.count_cons_of_ne] using ih _

theorem endsInParam_concat (w : List Char) (c : Char) :
    EndsInParam (w ++ [c]) ↔ c = ':' ∨ isValidParamNameChar c ∧ EndsInParam w := by
  constructor
  · rintro ⟨p, name, hw, hname⟩
    rcases List.eq_nil_or_concat' name with rfl | ⟨name, d, rfl⟩
    · left
      exact (List.append_inj' hw rfl).2 |> fun h => by simpa using h
    · right
      have hw' : w ++ [c] = (p ++ ':' :: name) ++ [d] := by simpa using hw
      obtain ⟨rfl, hd⟩ := List.append_inj' hw' rfl
      obtain rfl : c = d := by simpa using hd
      rw [List.all_append, Bool.and_eq_true] at hname
      exact ⟨by simpa using hname.2, p, name, rfl, hname.1⟩
  · rintro (rfl | ⟨hc, p, name, rfl, hname⟩)
    · exact ⟨w, [], rfl, rfl⟩
    · exact ⟨p, name ++ [c], by simp, by simp [hname, hc]⟩

theorem separate_iff (w sql : List Char) (inName : Bool) (hw : inName = true ↔ EndsInParam w) :
    separate inName sql ↔ ∀ u v, sql = u ++ ':' :: v →
      '\x00' ∉ u ∧ startsName v ∧ ¬ EndsInParam (w ++ u) := by
  induction sql generalizing w inName with
  | nil => simp [separate]
  | cons c rest ih =>
    unfold separate
    split_ifs with h0 hcolon
    · subst h0
      constructor
      · intro hnone u v huv
        rcases List.cons_eq_append_iff.mp huv with ⟨-, hv⟩ | ⟨u', rfl, rfl⟩
        · exact absurd (List.cons.inj hv).1 (by decide)
        · simp at hnone
      · intro hall
        by_contra hin
        obtain ⟨u, v, rfl⟩ := List.append_of_mem (by simpa using hin : ':' ∈ rest)
        exact (hall ('\x00' :: u) v rfl).1 List.mem_cons_self
    · subst hcolon
      rw [Bool.and_eq_true, Bool.and_eq_true, ih (w ++ [':']) true
        (by simp [endsInParam_concat])]
      constructor
      · rintro ⟨⟨hnot, hstart⟩, hall⟩ u v huv
        rcases List.cons_eq_append_iff.mp huv with ⟨rfl, hv⟩ | ⟨u', rfl, rfl⟩
        · obtain rfl := (List.cons.inj hv).2
          exact ⟨by simp, hstart, by simpa [← hw] using hnot⟩
        · obtain ⟨hz, hv, hend⟩ := hall u' v rfl
          exact ⟨by simp [hz], hv, by simpa using hend⟩
      · intro hall
        obtain ⟨-, hstart, hend⟩ := hall [] rest rfl
        refine ⟨⟨by simpa [← hw] using hend, hstart⟩, fun u v huv => ?_⟩
        obtain ⟨hz, hv, hend⟩ := hall (':' :: u) v (by rw [huv]; rfl)
        exact ⟨fun h => hz (List.mem_cons_of_mem _ h), hv, by simpa using hend⟩
    · rw [ih (w ++ [c]) _ (by simp [endsInParam_concat, hcolon, hw, and_comm])]
      constructor
      · intro hall u v huv
        rcases List.cons_eq_append_iff.mp huv with ⟨-, hv⟩ | ⟨u', rfl, rfl⟩
        · exact absurd (List.cons.inj hv).1.symm hcolon
        · obtain ⟨hz, hv, hend⟩ := hall u' v rfl
          exact ⟨by simp [hz, Ne.symm h0], hv, by simpa using hend⟩
      · intro hall u v huv
        obtain ⟨hz, hv, hend⟩ := hall (c :: u) v (by rw [huv]; rfl)
        exact ⟨fun h => hz (List.mem_cons_of_mem _ h), hv, by simpa using hend⟩

theorem replaceNames_of_notMem (m : NameToIdx) {l : List Char} (h : ':' ∉ l) :
    replaceNames m false l = l := by
  induction l with
  | nil => rfl
  | cons c l ih =>
    obtain ⟨hc, hl⟩ := List.ne_and_not_mem_of_not_mem_cons h
    simp [replaceNames, Ne.symm hc, ih hl]

theorem numbered_eq {sql : List Char} {name : Option (List Char)} {idx : UInt32}
    {m m' : NameToIdx} {n : Nat} (h : scan (cstr sql) name idx m = .ok m')
    (hsep : separate name.isSome sql) (hidx : idx.toNat = n + (!name.isSome).toNat)
    (hn : n + sql.count ':' < 2^31) :
    numbered n name.isSome sql = replaceNames m' name.isSome sql := by
  induction sql generalizing name idx m n with
  | nil => rfl
  | cons c rest ih =>
    by_cases h0 : c = '\x00'
    · subst h0
      have hrest : ':' ∉ rest := by simpa [separate] using hsep
      have hvalid : isValidParamNameChar '\x00' = false := by decide
      simp [numbered, replaceNames, hvalid, numbered_of_notMem _ hrest,
        replaceNames_of_notMem _ hrest]
    rw [cstr_cons h0] at h
    by_cases hcolon : c = ':'
    · subst hcolon
      cases name with
      | some nm => simp [separate] at hsep
      | none =>
        have hstart : startsName rest ∧ separate true rest := by simpa [separate] using hsep
        rw [List.count_cons_self] at hn
        have hidx : idx.toNat = n + 1 := hidx
        rw [scan, startsName_cstr, if_pos ⟨rfl, hstart.1⟩] at h
        have hcur := scan_current h
        rw [takeWhile_cstr] at hcur
        have hrec : numbered (n + 1) true rest = replaceNames m' true rest :=
          ih h hstart.2 (by simpa using hidx) (by omega)
        simp only [numbered, replaceNames, if_pos]
        rw [show (':' :: rest.takeWhile isValidParamNameChar) =
          [':'] ++ rest.takeWhile isValidParamNameChar from rfl, hcur]
        simp only [hidx, hrec]
    · rw [List.count_cons_of_ne hcolon] at hn
      cases name with
      | none =>
        rw [scan, if_neg (by simp [hcolon])] at h
        have hrec := ih h (by simpa [separate, h0, hcolon] using hsep) hidx hn
        simpa [numbered, replaceNames, hcolon] using hrec
      | some nm =>
        unfold scan at h
        split_ifs at h with hc
        · have hrec := ih h (by simpa [separate, h0, hcolon, hc] using hsep) hidx hn
          simpa [numbered, replaceNames, hcolon, hc] using hrec
        · obtain ⟨-, h⟩ := bind_addParam_ok h
          have hrec := ih h (by simpa [separate, h0, hcolon, hc] using hsep) (n := n) (by
            have hidx : idx.toNat = n := hidx
            rw [UInt32.toNat_add, hidx]
            exact Nat.mod_eq_of_lt (by simp; omega)) hn
          simpa [numbered, replaceNames, hcolon, hc] using hrec

/-- The text for PostgreSQL has the indices of the names in their places exactly when the colons are
all parameters. -/
theorem reformat_agrees_iff {sql : List Char} {m : NameToIdx} (h : ParamNameToIdx sql = .ok m) :
    CountAndReformatSqlBinds sql = some (replaceNames m false sql, m.length) ↔
      SeparateParams sql ∧ sql.count ':' < 2^31 := by
  have hlength : m.length = params false (cstr sql) := by
    simpa using scan_length h
  obtain ⟨hle, hiff⟩ := params_count false sql
  have hsep := separate_iff [] sql false (by simp [EndsInParam])
  rw [CountAndReformatSqlBinds, reformat_eq sql 0 (by omega), Nat.zero_add]
  constructor
  · intro hagree
    split_ifs at hagree with hlt
    obtain ⟨-, hcount⟩ := Prod.mk.inj (Option.some.inj hagree)
    exact ⟨hsep.mp (hiff.mp (by omega)), hlt⟩
  · rintro ⟨hall, hlt⟩
    have hcolons := hsep.mpr hall
    have htext : numbered 0 false sql = replaceNames m false sql :=
      numbered_eq h hcolons rfl (by omega)
    rw [if_pos hlt, htext, hlength, hiff.mpr hcolons]

theorem reformat_agrees_iff_two_params :
    ∃ m, ParamNameToIdx "A=:A,B=:B".toList = .ok m ∧
      CountAndReformatSqlBinds "A=:A,B=:B".toList =
        some (replaceNames m false "A=:A,B=:B".toList, m.length) ∧
      replaceNames m false "A=:A,B=:B".toList = "A=$1,B=$2".toList ∧ m.length = 2 := by
  have hnames : ParamNameToIdx "A=:A,B=:B".toList =
      .ok [([':', 'A'], 1), ([':', 'B'], 2)] := by decide
  have hseparate : SeparateParams "A=:A,B=:B".toList :=
    (separate_iff [] _ false (by simp [EndsInParam])).mp (by decide)
  exact ⟨_, hnames, (reformat_agrees_iff hnames).mpr ⟨hseparate, by decide⟩, by decide, rfl⟩

theorem reformat_numbers_assignment :
    ∃ m, ParamNameToIdx "A:=:B".toList = .ok m ∧ getIdx m ":B".toList = .ok 1 ∧
      CountAndReformatSqlBinds "A:=:B".toList = some ("A$1=$2".toList, 2) ∧
      CountAndReformatSqlBinds "A:=:B".toList ≠
        some (replaceNames m false "A:=:B".toList, m.length) := by
  have hreformat : CountAndReformatSqlBinds "A:=:B".toList = some ("A$1=$2".toList, 2) := by
    rw [CountAndReformatSqlBinds, reformat_eq _ _ (by omega)]
    decide
  exact ⟨[([':', 'B'], 1)], by decide, by decide, hreformat, by rw [hreformat]; decide⟩

end Cta.Rdbms.SqlParams

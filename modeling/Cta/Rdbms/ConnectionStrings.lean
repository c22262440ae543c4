import Cta.Lib.PosixRegex
import Cta.Lib.Text
import Mathlib.Data.List.Basic

/-! The database login: the connection string that is parsed, and the one that is displayed. -/
namespace Cta.Rdbms.ConnectionStrings
open Cta.Lib.Text
open Cta.Lib.PosixRegex (Piece)

inductive DbType where
  | DBTYPE_IN_MEMORY | DBTYPE_ORACLE | DBTYPE_SQLITE | DBTYPE_POSTGRESQL | DBTYPE_NONE
  deriving DecidableEq, Repr

structure Login where
  dbType : DbType
  username : List Char
  password : List Char
  database : List Char
  hostname : List Char
  port : UInt16
  connectionString : List Char
  deriving DecidableEq, Repr

/-- `missingGroup` is an access behind the end of the groups of a match. -/
inductive Failure where
  | exception (message : String)
  | missingGroup
  deriving DecidableEq, Repr

def s_fileFormat : String :=
  "one of in_memory, oracle:username/password@database, sqlite:filename, " ++
    "postgresql:[connectinfo | URI]"

def s_hiddenPassword : List Char := List.replicate 6 '*'

def in_memory : List Char := ['i', 'n', '_', 'm', 'e', 'm', 'o', 'r', 'y']
def oracle : List Char := ['o', 'r', 'a', 'c', 'l', 'e']
def sqlite : List Char := ['s', 'q', 'l', 'i', 't', 'e']
def postgresql : List Char := ['p', 'o', 's', 't', 'g', 'r', 'e', 's', 'q', 'l']

structure DbTypeAndConnectionDetails where
  dbTypeStr : List Char
  connectionDetails : List Char

def parseDbTypeAndConnectionDetails (connectionString : List Char) :
    DbTypeAndConnectionDetails where
  dbTypeStr := before ':' connectionString
  connectionDetails := behind ':' connectionString

def splitString (str : List Char) (separator : Char) : List (List Char) :=
  if str.isEmpty then [] else str.splitOn separator

def invalidFormat : Failure :=
  .exception ("Invalid connection string: Correct format is " ++ s_fileFormat)

def parseInMemory (connectionDetails : List Char) : Except Failure Login :=
  if !connectionDetails.isEmpty then .error invalidFormat
  else .ok ⟨.DBTYPE_IN_MEMORY, [], [], [], [], 0, in_memory⟩

def oracleConnectionString (user db : List Char) : List Char :=
  oracle ++ ':' :: (user ++ '/' :: (s_hiddenPassword ++ '@' :: db))

def parseOracle (connectionDetails : List Char) : Except Failure Login :=
  match splitString connectionDetails '@' with
  | [userAndPass, db] =>
    match splitString userAndPass '/' with
    | [user, pass] =>
      .ok ⟨.DBTYPE_ORACLE, user, pass, db, [], 0, oracleConnectionString user db⟩
    | _ => .error invalidFormat
  | _ => .error invalidFormat

def parseSqlite (connectionDetails : List Char) : Except Failure Login :=
  if connectionDetails.isEmpty then .error invalidFormat
  else .ok ⟨.DBTYPE_SQLITE, [], [], connectionDetails, [], 0,
    sqlite ++ ':' :: connectionDetails⟩

def scheme : List Char := postgresql ++ [':', '/', '/']

def regex : List (Piece Char) :=
  [⟨false, [.text scheme]⟩, ⟨true, [.any]⟩, ⟨false, [.text ['@']]⟩]

def regex2 : List (Piece Char) :=
  [⟨true, [.text scheme, .any, .text [':']]⟩, ⟨true, [.any]⟩, ⟨true, [.text ['@'], .any]⟩]

def exec (re : List (Piece Char)) (s : List Char) : List (List Char) :=
  Lib.PosixRegex.exec re (cstr s)

def group (result : List (List Char)) (i : Nat) : Except Failure (List Char) :=
  match result[i]? with
  | none => .error .missingGroup
  | some g => .ok g

def postgresqlHasPassword (connectionDetails : List Char) : Except Failure Bool :=
  if '@' ∉ connectionDetails then .ok false
  else (group (exec regex connectionDetails) 1).map fun usernamePassword =>
    decide (':' ∈ usernamePassword)

def postgresqlConnectionString (connectionDetails : List Char) : Except Failure (List Char) := do
  if !(← postgresqlHasPassword connectionDetails) then
    return postgresql ++ ':' :: connectionDetails
  else
    let result2 := exec regex2 connectionDetails
    return postgresql ++ ':' :: ((← group result2 1) ++ s_hiddenPassword ++ (← group result2 3))

def parsePostgresql (connectionDetails : List Char) : Except Failure Login :=
  (postgresqlConnectionString connectionDetails).map fun connectionString =>
    ⟨.DBTYPE_POSTGRESQL, [], [], connectionDetails, [], 0, connectionString⟩

def parseString (connectionString : List Char) : Except Failure Login :=
  if connectionString.isEmpty then .error (.exception "Invalid connection string: Empty string")
  else
    let typeAndDetails := parseDbTypeAndConnectionDetails connectionString
    if typeAndDetails.dbTypeStr = in_memory then parseInMemory typeAndDetails.connectionDetails
    else if typeAndDetails.dbTypeStr = oracle then parseOracle typeAndDetails.connectionDetails
    else if typeAndDetails.dbTypeStr = sqlite then parseSqlite typeAndDetails.connectionDetails
    else if typeAndDetails.dbTypeStr = postgresql then
      parsePostgresql typeAndDetails.connectionDetails
    else .error (.exception ("Invalid connection string: Unknown database type " ++
      String.ofList typeAndDetails.dbTypeStr))

/-- The first scheme of a text, and what stands around it. -/
structure FirstScheme (t earlier rest : List Char) : Prop where
  eq : t = earlier ++ (scheme ++ rest)
  first : ∀ x y, t = x ++ (scheme ++ y) → earlier.length ≤ x.length

theorem FirstScheme.exists {t x y : List Char} (h : t = x ++ (scheme ++ y)) :
    ∃ earlier rest, FirstScheme t earlier rest := by
  induction hn : x.length using Nat.strong_induction_on generalizing x y with
  | _ n ih =>
    by_cases hfirst : ∀ x' y', t = x' ++ (scheme ++ y') → x.length ≤ x'.length
    · exact ⟨x, y, h, hfirst⟩
    · push Not at hfirst
      obtain ⟨x', y', heq, hlt⟩ := hfirst
      exact ih x'.length (hn ▸ hlt) heq rfl

theorem FirstScheme.unique {t earlier earlier' rest rest' : List Char}
    (h : FirstScheme t earlier rest) (h' : FirstScheme t earlier' rest') :
    earlier = earlier' ∧ rest = rest' := by
  have hlen := Nat.le_antisymm (h.first _ _ h'.eq) (h'.first _ _ h.eq)
  obtain ⟨hearlier, hrest⟩ := List.append_inj (h.eq.symm.trans h'.eq) hlen
  exact ⟨hearlier, List.append_cancel_left hrest⟩

theorem FirstScheme.leftmost {t earlier rest : List Char} (h : FirstScheme t earlier rest)
    {re : List (Piece Char)} {m : List (List Char)}
    (hm : Lib.PosixRegex.longest re (scheme ++ rest) = some m)
    (hre : ∀ v, ∀ a ∈ Lib.PosixRegex.ways re v, scheme <+: v) :
    Lib.PosixRegex.leftmost re t = some m := by
  rw [h.eq]
  refine Lib.PosixRegex.leftmost_append earlier hm fun w hw hsuffix a ha => ?_
  obtain ⟨x, rfl⟩ := hsuffix
  obtain ⟨y, hy⟩ := hre _ a ha
  have heq : t = x ++ (scheme ++ y) := by rw [hy, h.eq, List.append_assoc]
  have hlen := h.first x y heq
  have hpos := List.length_pos_iff.mpr hw
  simp only [List.length_append] at hlen
  omega

theorem mem_ways_regex {v : List Char} {m : List (List Char)} :
    m ∈ Lib.PosixRegex.ways regex v ↔
      ∃ g, m = [scheme, g, ['@']] ∧ scheme ++ (g ++ ['@']) <+: v := by
  rw [Lib.PosixRegex.mem_ways]
  constructor
  · rintro ⟨hpre, hall⟩
    simp only [regex, List.forall₂_cons_left_iff, List.forall₂_nil_left_iff,
      Lib.PosixRegex.Accepts] at hall
    obtain ⟨_, _, ⟨_, rfl, rfl⟩, ⟨g, _, -, ⟨_, _, ⟨_, rfl, rfl⟩, rfl, rfl⟩, rfl⟩, rfl⟩ := hall
    exact ⟨g, by simp, by simpa using hpre⟩
  · rintro ⟨g, rfl, hpre⟩
    refine ⟨by simpa using hpre, ?_⟩
    simp [regex, Lib.PosixRegex.Accepts]

theorem mem_ways_regex2 {v : List Char} {m : List (List Char)} :
    m ∈ Lib.PosixRegex.ways regex2 v ↔
      ∃ f g b, m = [scheme ++ (f ++ [':']), g, '@' :: b] ∧
        scheme ++ (f ++ ':' :: (g ++ '@' :: b)) <+: v := by
  rw [Lib.PosixRegex.mem_ways]
  constructor
  · rintro ⟨hpre, hall⟩
    simp only [regex2, List.forall₂_cons_left_iff, List.forall₂_nil_left_iff,
      Lib.PosixRegex.Accepts] at hall
    obtain ⟨_, _, ⟨_, rfl, f, _, rfl, _, rfl, rfl⟩,
      ⟨g, _, -, ⟨_, _, ⟨_, rfl, b, _, rfl, rfl⟩, rfl, rfl⟩, rfl⟩, rfl⟩ := hall
    exact ⟨f, g, b, by simp, by simpa using hpre⟩
  · rintro ⟨f, g, b, rfl, hpre⟩
    refine ⟨by simpa using hpre, ?_⟩
    simp [regex2, Lib.PosixRegex.Accepts]

theorem longest_regex {g back : List Char} (hback : '@' ∉ back) :
    Lib.PosixRegex.longest regex (scheme ++ (g ++ '@' :: back)) = some [scheme, g, ['@']] := by
  refine Lib.PosixRegex.longest_eq_some (mem_ways_regex.mpr ⟨g, rfl, back, by simp⟩) ?_
  intro a ha
  obtain ⟨g', rfl, rest, heq⟩ := mem_ways_regex.mp ha
  have hg : g' ++ '@' :: rest = g ++ '@' :: back := by simpa using heq
  have hlen := length_le_last hg hback
  rcases Nat.lt_or_eq_of_le hlen with hlt | heq
  · refine le_of_lt (List.cons_lt_cons_iff.mpr (.inl ?_))
    simpa using hlt
  · simp [Lib.PosixRegex.rank, heq]

theorem longest_regex2 {front pw back : List Char} (hpw : ':' ∉ pw) (hback : '@' ∉ back) :
    Lib.PosixRegex.longest regex2 (scheme ++ (front ++ ':' :: (pw ++ '@' :: back))) =
      some [scheme ++ (front ++ [':']), pw, '@' :: back] := by
  refine Lib.PosixRegex.longest_eq_some
    (mem_ways_regex2.mpr ⟨front, pw, back, rfl, List.prefix_rfl⟩) ?_
  intro a ha
  obtain ⟨f, g, b, rfl, rest, heq⟩ := mem_ways_regex2.mp ha
  have hwhole : (f ++ ':' :: g) ++ '@' :: (b ++ rest) = (front ++ ':' :: pw) ++ '@' :: back := by
    simpa using heq
  have hlast := length_le_last hwhole hback
  have hfront : f.length ≤ front.length := by
    obtain ⟨r, hr⟩ := List.prefix_of_prefix_length_le ⟨_, hwhole⟩ ⟨_, rfl⟩ hlast
    have hcolon : f ++ ':' :: (g ++ r) = front ++ ':' :: pw := by simpa using hr
    exact length_le_last hcolon hpw
  have htotal := congrArg List.length hwhole
  simp only [List.length_append, List.length_cons] at hlast htotal
  have hrank (m : List (List Char)) : Lib.PosixRegex.rank m = m.flatten.length ::
      m.map List.length := rfl
  simp only [hrank, Lib.PosixRegex.cons_le_cons_iff, List.map_cons, List.map_nil, List.flatten_cons,
    List.flatten_nil, List.length_append, List.length_cons, List.length_nil, le_refl, and_true]
  omega

theorem exec_regex {t earlier g back : List Char}
    (h : FirstScheme (cstr t) earlier (g ++ '@' :: back)) (hback : '@' ∉ back) :
    exec regex t = [scheme ++ (g ++ ['@']), g] := by
  have hleft := h.leftmost (longest_regex hback) fun v a ha => by
    obtain ⟨g', -, hpre⟩ := mem_ways_regex.mp ha
    exact (List.prefix_append _ _).trans hpre
  rw [exec, Lib.PosixRegex.exec, hleft]
  simp [regex]

/-- The details have an `@` but no scheme with one behind it. -/
def AtWithoutScheme (connectionDetails : List Char) : Prop :=
  '@' ∈ connectionDetails ∧
    ∀ earlier g back, cstr connectionDetails ≠ earlier ++ (scheme ++ (g ++ '@' :: back))

theorem exec_regex_nil {t : List Char}
    (h : ∀ earlier g back, cstr t ≠ earlier ++ (scheme ++ (g ++ '@' :: back))) :
    exec regex t = [] := by
  have hleft : Lib.PosixRegex.leftmost regex (cstr t) = none := by
    refine Lib.PosixRegex.leftmost_eq_none fun v hv m hm => ?_
    obtain ⟨g, -, back, heq⟩ := mem_ways_regex.mp hm
    obtain ⟨earlier, hearlier⟩ := hv
    exact h earlier g back (by rw [← hearlier, ← heq]; simp)
  rw [exec, Lib.PosixRegex.exec, hleft]

/-- The details are a URI in which the text between the last `:` before the last `@` and that `@`
is `pw`. -/
structure PasswordAt (connectionDetails front pw back : List Char) : Prop where
  uri : ∃ earlier,
    FirstScheme (cstr connectionDetails) earlier (front ++ ':' :: (pw ++ '@' :: back))
  lastColon : ':' ∉ pw
  lastAt : '@' ∉ back

def displayed (front back : List Char) : List Char :=
  postgresql ++ ':' :: (scheme ++ (front ++ ':' :: (s_hiddenPassword ++ '@' :: back)))

theorem exec_regex2 {t front pw back : List Char} (h : PasswordAt t front pw back) :
    exec regex2 t = [scheme ++ (front ++ ':' :: (pw ++ '@' :: back)), scheme ++ (front ++ [':']),
      pw, '@' :: back] := by
  obtain ⟨⟨earlier, hfirst⟩, hpw, hback⟩ := h
  have hleft := hfirst.leftmost (longest_regex2 hpw hback) fun v a ha => by
    obtain ⟨f, g, b, -, hpre⟩ := mem_ways_regex2.mp ha
    exact (List.prefix_append _ _).trans hpre
  rw [exec, Lib.PosixRegex.exec, hleft]
  simp [regex2]

theorem mem_of_mem_cstr {c : Char} {t : List Char} (h : c ∈ cstr t) : c ∈ t :=
  (List.takeWhile_prefix _).subset h

theorem PasswordAt.mem_at {t front pw back : List Char} (h : PasswordAt t front pw back) :
    '@' ∈ t := by
  obtain ⟨⟨earlier, hfirst⟩, -, -⟩ := h
  exact mem_of_mem_cstr (by rw [hfirst.eq]; simp)

theorem PasswordAt.not_atWithoutScheme {t front pw back : List Char}
    (h : PasswordAt t front pw back) : ¬ AtWithoutScheme t := by
  obtain ⟨⟨earlier, hfirst⟩, -, -⟩ := h
  intro hno
  exact hno.2 earlier (front ++ ':' :: pw) back (by rw [hfirst.eq]; simp)

theorem PasswordAt.shown {t front pw back : List Char} (h : PasswordAt t front pw back) :
    postgresqlConnectionString t = .ok (displayed front back) := by
  have hat := h.mem_at
  have hexec2 := exec_regex2 h
  obtain ⟨⟨earlier, hfirst⟩, -, hback⟩ := h
  have hexec : exec regex t = [scheme ++ ((front ++ ':' :: pw) ++ ['@']), front ++ ':' :: pw] :=
    exec_regex (by simpa using hfirst) hback
  have hhas : postgresqlHasPassword t = .ok true := by
    simp [postgresqlHasPassword, hat, hexec, group, Except.map]
  simp [postgresqlConnectionString, hhas, hexec2, group, displayed, bind, Except.bind, pure,
    Except.pure]

/-- The details are displayed as they are, with the password replaced, or not at all. -/
theorem shown_cases (t : List Char) :
    AtWithoutScheme t ∧ postgresqlConnectionString t = .error .missingGroup ∨
      ¬ AtWithoutScheme t ∧ (∀ front pw back, ¬ PasswordAt t front pw back) ∧
        postgresqlConnectionString t = .ok (postgresql ++ ':' :: t) ∨
      ∃ front pw back, PasswordAt t front pw back ∧
        postgresqlConnectionString t = .ok (displayed front back) := by
  by_cases hat : '@' ∈ t
  · by_cases hno : AtWithoutScheme t
    · refine .inl ⟨hno, ?_⟩
      simp [postgresqlConnectionString, postgresqlHasPassword, hat, exec_regex_nil hno.2, group,
        Except.map, bind, Except.bind]
    · obtain ⟨x, y, z, hxyz⟩ : ∃ x y z, cstr t = x ++ (scheme ++ (y ++ '@' :: z)) := by
        by_contra hcon
        push Not at hcon
        exact hno ⟨hat, hcon⟩
      obtain ⟨earlier, rest, hfirst⟩ := FirstScheme.exists hxyz
      -- the first scheme has an `@` behind it too
      have hrest : '@' ∈ rest := by
        have hlen := hfirst.first _ _ hxyz
        have hsuffix : scheme ++ (y ++ '@' :: z) <:+ scheme ++ rest :=
          List.suffix_of_suffix_length_le ⟨x, hxyz.symm⟩ ⟨earlier, hfirst.eq.symm⟩ (by
            have := congrArg List.length (hxyz.symm.trans hfirst.eq)
            simp only [List.length_append] at this ⊢
            omega)
        have hmem : '@' ∈ scheme ++ rest := hsuffix.subset (by simp)
        rcases List.mem_append.mp hmem with h | h
        · exact absurd h (by decide)
        · exact h
      obtain ⟨g, back, rfl, hback⟩ := exists_last hrest
      by_cases hcolon : ':' ∈ g
      · obtain ⟨front, pw, rfl, hpw⟩ := exists_last hcolon
        have hpassword : PasswordAt t front pw back :=
          ⟨⟨earlier, by simpa using hfirst⟩, hpw, hback⟩
        exact .inr (.inr ⟨front, pw, back, hpassword, hpassword.shown⟩)
      · refine .inr (.inl ⟨hno, fun front pw back' hpassword => ?_, ?_⟩)
        · obtain ⟨⟨earlier', hfirst'⟩, -, hback'⟩ := hpassword
          have hsame := (hfirst'.unique hfirst).2
          have hsplit : (front ++ ':' :: pw) ++ '@' :: back' = g ++ '@' :: back := by
            simpa using hsame
          exact hcolon ((last_inj hsplit hback hback').1 ▸ by simp)
        · simp [postgresqlConnectionString, postgresqlHasPassword, hat, exec_regex hfirst hback,
            group, Except.map, hcolon, bind, Except.bind, pure, Except.pure]
  · refine .inr (.inl ⟨fun h => hat h.1, fun front pw back h => hat h.mem_at, ?_⟩)
    simp [postgresqlConnectionString, postgresqlHasPassword, hat, bind, Except.bind, pure,
      Except.pure]

theorem notMem_cstr_zero (t : List Char) : '\x00' ∉ cstr t := by
  intro h
  have := List.mem_takeWhile_imp h
  simp at this

/-- A displayed text is itself a URI with the password's place. -/
theorem passwordAt_displayed {t front pw back : List Char} (h : PasswordAt t front pw back) :
    PasswordAt (scheme ++ (front ++ ':' :: (s_hiddenPassword ++ '@' :: back))) front
      s_hiddenPassword back := by
  obtain ⟨⟨earlier, hfirst⟩, -, hback⟩ := h
  have hzero : '\x00' ∉ scheme ++ (front ++ ':' :: (s_hiddenPassword ++ '@' :: back)) := by
    intro hmem
    refine notMem_cstr_zero t ?_
    rw [hfirst.eq]
    have hstars : '\x00' ∉ s_hiddenPassword := by decide
    simp only [List.mem_append, List.mem_cons] at hmem ⊢
    tauto
  refine ⟨⟨[], ?_⟩, by decide, hback⟩
  rw [cstr_of_notMem hzero]
  exact ⟨rfl, fun x y _ => Nat.zero_le _⟩

/-- Two details are displayed alike only if they are the same or have the password in the same
place. -/
theorem shown_eq_iff {t t' x x' : List Char} (h : postgresqlConnectionString t = .ok x)
    (h' : postgresqlConnectionString t' = .ok x') :
    x = x' ↔ t = t' ∨ ∃ front pw pw' back, PasswordAt t front pw back ∧
      PasswordAt t' front pw' back := by
  constructor
  · rintro rfl
    rcases shown_cases t with ⟨-, ht⟩ | ⟨-, hnot, ht⟩ | ⟨front, pw, back, hpw, ht⟩
    · simp [ht] at h
    · obtain rfl := Except.ok.inj (ht.symm.trans h)
      rcases shown_cases t' with ⟨-, ht'⟩ | ⟨-, -, ht'⟩ | ⟨front', pw', back', hpw', ht'⟩
      · simp [ht'] at h'
      · have heq := Except.ok.inj (h'.symm.trans ht')
        exact .inl (by simpa using heq)
      · have heq := Except.ok.inj (h'.symm.trans ht')
        have hdetails : t = scheme ++ (front' ++ ':' :: (s_hiddenPassword ++ '@' :: back')) := by
          simpa [displayed] using heq
        exact absurd (hdetails ▸ passwordAt_displayed hpw') (hnot _ _ _)
    · obtain rfl := Except.ok.inj (ht.symm.trans h)
      rcases shown_cases t' with ⟨-, ht'⟩ | ⟨-, hnot', ht'⟩ | ⟨front', pw', back', hpw', ht'⟩
      · simp [ht'] at h'
      · have heq := Except.ok.inj (h'.symm.trans ht')
        have hdetails : scheme ++ (front ++ ':' :: (s_hiddenPassword ++ '@' :: back)) = t' := by
          simpa [displayed] using heq
        exact absurd (hdetails ▸ passwordAt_displayed hpw) (hnot' _ _ _)
      · have heq := Except.ok.inj (h'.symm.trans ht')
        have hsplit : (front ++ ':' :: s_hiddenPassword) ++ '@' :: back =
            (front' ++ ':' :: s_hiddenPassword) ++ '@' :: back' := by
          simpa [displayed] using heq
        obtain ⟨hfront, rfl⟩ := last_inj hsplit hpw'.lastAt hpw.lastAt
        obtain rfl := (List.append_left_inj _).mp hfront
        exact .inr ⟨front, pw, pw', back, hpw, hpw'⟩
  · rintro (rfl | ⟨front, pw, pw', back, hpw, hpw'⟩)
    · exact Except.ok.inj (h.symm.trans h')
    · obtain rfl := Except.ok.inj (hpw.shown.symm.trans h)
      exact Except.ok.inj (hpw'.shown.symm.trans h')

theorem splitString_two {str u v : List Char} {separator : Char}
    (h : splitString str separator = [u, v]) :
    str = u ++ separator :: v ∧ separator ∉ u ∧ separator ∉ v := by
  have hsingle {l w : List Char} (hl : l.splitOn separator = [w]) : separator ∉ l ∧ l = w := by
    have hnot : separator ∉ l := by
      intro hmem
      obtain ⟨x, y, rfl⟩ := List.append_of_mem hmem
      have hlen := congrArg List.length hl
      rw [List.splitOn_append_cons_self] at hlen
      have hx := List.length_pos_iff.mpr (List.splitOn_ne_nil separator x)
      have hy := List.length_pos_iff.mpr (List.splitOn_ne_nil separator y)
      simp only [List.length_append, List.length_singleton] at hlen
      omega
    rw [List.splitOn_eq_singleton hnot] at hl
    exact ⟨hnot, List.singleton_inj.mp hl⟩
  unfold splitString at h
  split_ifs at h with hempty
  by_cases hmem : separator ∈ str
  · obtain ⟨x, y, rfl, hx⟩ := List.eq_append_cons_of_mem hmem
    rw [List.splitOn_append_cons_self_of_not_mem hx] at h
    obtain ⟨rfl, hy⟩ := List.cons_eq_cons.mp h
    obtain ⟨hnot, rfl⟩ := hsingle hy
    exact ⟨rfl, hx, hnot⟩
  · rw [List.splitOn_eq_singleton hmem] at h
    simp at h

theorem parseOracle_ok {user pw db : List Char} {l : Login}
    (h : parseOracle (user ++ '/' :: (pw ++ '@' :: db)) = .ok l) :
    l.connectionString = oracleConnectionString user db := by
  unfold parseOracle at h
  split at h
  · rename_i userAndPass db' hat
    split at h
    · rename_i user' pass hslash
      obtain rfl := Except.ok.inj h
      obtain ⟨heq, hu, hd⟩ := splitString_two hat
      have hsplit : (user ++ '/' :: pw) ++ '@' :: db = userAndPass ++ '@' :: db' := by
        simpa using heq
      obtain ⟨rfl, -, rfl⟩ := (List.append_cons_inj_of_notMem hu hd).mp hsplit.symm
      obtain ⟨heq', hu', hp'⟩ := splitString_two hslash
      obtain ⟨rfl, -, -⟩ := (List.append_cons_inj_of_notMem hu' hp').mp heq'.symm
      rfl
    · cases h
  · cases h

theorem parseDbTypeAndConnectionDetails_append {dbType : List Char} (h : ':' ∉ dbType)
    (details : List Char) :
    parseDbTypeAndConnectionDetails (dbType ++ ':' :: details) = ⟨dbType, details⟩ := by
  rw [parseDbTypeAndConnectionDetails, before_append h, behind_append h]

theorem parseString_oracle (details : List Char) :
    parseString (oracle ++ ':' :: details) = parseOracle details := by
  rw [parseString, if_neg (by simp), parseDbTypeAndConnectionDetails_append (by decide)]
  dsimp only
  rw [if_neg (by decide), if_pos rfl]

theorem parseString_postgresql (details : List Char) :
    parseString (postgresql ++ ':' :: details) = parsePostgresql details := by
  rw [parseString, if_neg (by simp), parseDbTypeAndConnectionDetails_append (by decide)]
  dsimp only
  rw [if_neg (by decide), if_neg (by decide), if_neg (by decide), if_pos rfl]

theorem parsePostgresql_ok {details : List Char} {l : Login} (h : parsePostgresql details = .ok l) :
    postgresqlConnectionString details = .ok l.connectionString := by
  unfold parsePostgresql at h
  cases hshown : postgresqlConnectionString details with
  | error e => simp [hshown, Except.map] at h
  | ok x =>
    simp only [hshown, Except.map, Except.ok.injEq] at h
    rw [← h]

/-- The only access to a missing group is the one in `postgresqlHasPassword`. -/
theorem missingGroup_iff (connectionString : List Char) :
    parseString connectionString = .error .missingGroup ↔
      ∃ details, connectionString = postgresql ++ ':' :: details ∧ AtWithoutScheme details := by
  have hpostgresql (details : List Char) :
      parsePostgresql details = .error .missingGroup ↔ AtWithoutScheme details := by
    unfold parsePostgresql
    rcases shown_cases details with ⟨hno, h⟩ | ⟨hno, -, h⟩ | ⟨front, pw, back, hpw, h⟩
    · simp [h, hno, Except.map]
    · simp [h, hno, Except.map]
    · simp [h, hpw.not_atWithoutScheme, Except.map]
  constructor
  · intro h
    unfold parseString parseDbTypeAndConnectionDetails at h
    simp only at h
    split_ifs at h with hempty hmemory horacle hsqlite htype
    · simp at h
    · simp only [parseInMemory, invalidFormat] at h
      split_ifs at h
      simp at h
    · simp only [parseOracle, invalidFormat] at h
      split at h
      · split at h <;> simp at h
      · simp at h
    · simp only [parseSqlite, invalidFormat] at h
      split_ifs at h
      simp at h
    · have hno := (hpostgresql _).mp h
      refine ⟨behind ':' connectionString, ?_, hno⟩
      have hcolon : ':' ∈ connectionString := by
        by_contra hnot
        have hnil : behind ':' connectionString = [] := by
          rw [behind, List.dropWhile_eq_nil_iff.mpr (all_ne hnot), List.tail_nil]
        exact absurd (hnil ▸ hno.1) List.not_mem_nil
      obtain ⟨u, v, rfl, hu⟩ := List.eq_append_cons_of_mem hcolon
      rw [← htype, before_append hu, behind_append hu]
    · simp at h
  · rintro ⟨details, rfl, hno⟩
    rw [parseString_postgresql]
    exact (hpostgresql details).mpr hno

def keyword : List Char := ['p', 'a', 's', 's', 'w', 'o', 'r', 'd']

def Blank (c : Char) : Prop := c ∈ [' ', '\t', '\n', '\x0b', '\x0c', '\r']

/-- A value without quotes ends at a blank; a backslash keeps the character behind it. -/
inductive Plain : List Char → Prop
  | nil : Plain []
  | char {c : Char} {v : List Char} : c ≠ '\\' → ¬ Blank c → Plain v → Plain (c :: v)
  | escaped (c : Char) {v : List Char} : Plain v → Plain ('\\' :: c :: v)

inductive Quoted : List Char → Prop
  | nil : Quoted []
  | char {c : Char} {v : List Char} : c ≠ '\\' → c ≠ '\'' → Quoted v → Quoted (c :: v)
  | escaped (c : Char) {v : List Char} : Quoted v → Quoted ('\\' :: c :: v)

def Value (v : List Char) : Prop :=
  Plain v ∨ ∃ u, Quoted u ∧ v = '\'' :: (u ++ ['\''])

inductive DifferOnlyInPassword : List Char → List Char → Prop
  | oracle (user pw pw' db : List Char) :
      DifferOnlyInPassword (oracle ++ ':' :: (user ++ '/' :: (pw ++ '@' :: db)))
        (oracle ++ ':' :: (user ++ '/' :: (pw' ++ '@' :: db)))
  | connectinfo (front blanks blanks' pw pw' back : List Char) :
      (∀ c ∈ blanks ++ blanks', Blank c) → Value pw → Value pw' →
      (∀ c ∈ back.head?, Blank c) →
      DifferOnlyInPassword
        (postgresql ++ ':' :: (front ++ (keyword ++ (blanks ++ '=' :: (blanks' ++ (pw ++ back))))))
        (postgresql ++ ':' :: (front ++ (keyword ++ (blanks ++ '=' :: (blanks' ++ (pw' ++ back))))))
  | uri (scheme user pw pw' back : List Char) :
      scheme = ConnectionStrings.scheme ∨ scheme = "postgres://".toList →
      (∀ c ∈ user, c ∉ [':', '@', '/']) → (∀ c ∈ pw ++ pw', c ∉ ['@', '/']) →
      DifferOnlyInPassword
        (postgresql ++ ':' :: (scheme ++ (user ++ ':' :: (pw ++ '@' :: back))))
        (postgresql ++ ':' :: (scheme ++ (user ++ ':' :: (pw' ++ '@' :: back))))
  | parameter (scheme front pw pw' back : List Char) :
      scheme = ConnectionStrings.scheme ∨ scheme = "postgres://".toList →
      '&' ∉ pw ++ pw' → (∀ c ∈ back.head?, c = '&') →
      DifferOnlyInPassword
        (postgresql ++ ':' :: (scheme ++ (front ++ (keyword ++ '=' :: (pw ++ back)))))
        (postgresql ++ ':' :: (scheme ++ (front ++ (keyword ++ '=' :: (pw' ++ back)))))

/-- The database is Oracle, the strings are the same, or the passwords are what stands between the
last `:` before the last `@` of a URI and that `@`. -/
def Hidden (connectionString connectionString' : List Char) : Prop :=
  oracle ++ [':'] <+: connectionString ∨ connectionString = connectionString' ∨
    ∃ details details' front pw pw' back,
      connectionString = postgresql ++ ':' :: details ∧
      connectionString' = postgresql ++ ':' :: details' ∧
      PasswordAt details front pw back ∧ PasswordAt details' front pw' back

theorem hidden_postgresql (details details' : List Char) :
    Hidden (postgresql ++ ':' :: details) (postgresql ++ ':' :: details') ↔
      details = details' ∨ ∃ front pw pw' back, PasswordAt details front pw back ∧
        PasswordAt details' front pw' back := by
  have horacle : ¬ oracle ++ [':'] <+: postgresql ++ ':' :: details := by
    simp [oracle, postgresql]
  unfold Hidden
  simp [horacle]

theorem postgresql_display_iff {details details' : List Char} {l l' : Login}
    (h : parseString (postgresql ++ ':' :: details) = .ok l)
    (h' : parseString (postgresql ++ ':' :: details') = .ok l') :
    l.connectionString = l'.connectionString ↔
      Hidden (postgresql ++ ':' :: details) (postgresql ++ ':' :: details') := by
  rw [parseString_postgresql] at h h'
  rw [hidden_postgresql]
  exact shown_eq_iff (parsePostgresql_ok h) (parsePostgresql_ok h')

/-- A group is missing exactly when there is an `@` without scheme, and what is displayed hides the
password exactly where the second regular expression looks for it. -/
theorem password_hidden_iff (connectionString connectionString' : List Char) :
    (parseString connectionString = .error .missingGroup ↔
      ∃ details, connectionString = postgresql ++ ':' :: details ∧ AtWithoutScheme details) ∧
    ∀ l l', parseString connectionString = .ok l → parseString connectionString' = .ok l' →
      DifferOnlyInPassword connectionString connectionString' →
      (l.connectionString = l'.connectionString ↔ Hidden connectionString connectionString') := by
  refine ⟨missingGroup_iff connectionString, fun l l' h h' hpair => ?_⟩
  cases hpair with
  | oracle user pw pw' db =>
    rw [parseString_oracle] at h h'
    have hdisplay : l.connectionString = l'.connectionString :=
      (parseOracle_ok h).trans (parseOracle_ok h').symm
    have hpre : oracle ++ [':'] <+: oracle ++ ':' :: (user ++ '/' :: (pw ++ '@' :: db)) :=
      ⟨user ++ '/' :: (pw ++ '@' :: db), by simp⟩
    exact iff_of_true hdisplay (.inl hpre)
  | connectinfo => exact postgresql_display_iff h h'
  | uri => exact postgresql_display_iff h h'
  | parameter => exact postgresql_display_iff h h'

def uriWith (pw : List Char) : List Char := scheme ++ ('u' :: ':' :: (pw ++ ['@', 'h']))

theorem passwordAt_uriWith {c : Char} (hzero : c ≠ '\x00') (hcolon : c ≠ ':') :
    PasswordAt (uriWith [c]) ['u'] [c] ['h'] := by
  refine ⟨⟨[], ?_, fun _ _ _ => Nat.zero_le _⟩, by simpa using hcolon.symm, by decide⟩
  exact cstr_of_notMem (by simp [uriWith, scheme, postgresql, hzero.symm])

theorem parse_uriWith {c : Char} (hzero : c ≠ '\x00') (hcolon : c ≠ ':') :
    parseString (postgresql ++ ':' :: uriWith [c]) =
      .ok ⟨.DBTYPE_POSTGRESQL, [], [], uriWith [c], [], 0, displayed ['u'] ['h']⟩ := by
  rw [parseString_postgresql, parsePostgresql, (passwordAt_uriWith hzero hcolon).shown]
  rfl

theorem password_hidden_iff_uri :
    Hidden (postgresql ++ ':' :: uriWith ['a']) (postgresql ++ ':' :: uriWith ['b']) :=
  ((password_hidden_iff _ _).2 _ _ (parse_uriWith (by decide) (by decide))
    (parse_uriWith (by decide) (by decide))
    (.uri scheme ['u'] ['a'] ['b'] ['h'] (.inl rfl) (by simp) (by simp))).mp rfl

def connectinfoWith (pw : List Char) : List Char :=
  postgresql ++ ':' :: (['u', 's', 'e', 'r', '=', 'u', ' '] ++ (keyword ++ '=' :: pw))

/-- The password of a connectinfo is displayed, and an `@` in one is taken for a URI. -/
theorem connectinfo_displayed :
    (∃ l l', parseString (connectinfoWith ['a']) = .ok l ∧
      parseString (connectinfoWith ['b']) = .ok l' ∧
      DifferOnlyInPassword (connectinfoWith ['a']) (connectinfoWith ['b']) ∧
      l.connectionString ≠ l'.connectionString) ∧
    parseString (connectinfoWith ['@']) = .error .missingGroup := by
  have hvalue (c : Char) (hc : c ≠ '\\') (hb : ¬ Blank c) : Value [c] := .inl (.char hc hb .nil)
  have ha : ¬ Blank 'a' := by unfold Blank; decide
  have hb : ¬ Blank 'b' := by unfold Blank; decide
  refine ⟨⟨_, _, rfl, rfl, .connectinfo ['u', 's', 'e', 'r', '=', 'u', ' '] [] [] ['a'] ['b'] []
    (by simp) (hvalue 'a' (by decide) ha) (hvalue 'b' (by decide) hb) (by simp), by decide⟩, ?_⟩
  rfl

end Cta.Rdbms.ConnectionStrings

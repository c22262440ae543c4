import Mathlib.Data.List.Forall2
import Mathlib.Data.List.Infix
import Mathlib.Data.List.MinMax
import Mathlib.Data.List.Lex

/-! Regular expressions of fixed texts, `.*` and groups, matched as POSIX says: leftmost, then the
longest, then every piece from left to right as long as possible. -/
namespace Cta.Lib.PosixRegex
variable {α : Type*} [DecidableEq α]

inductive Item (α : Type*) where
  | text (t : List α)
  | any

/-- A group that is captured, or what stands between two groups. -/
structure Piece (α : Type*) where
  captured : Bool
  items : List (Item α)

def prefixes : List (Item α) → List α → List (List α)
  | [], _ => [[]]
  | .text t :: items, s =>
    if t <+: s then (prefixes items (s.drop t.length)).map (t ++ ·) else []
  | .any :: items, s =>
    s.inits.flatMap fun u => (prefixes items (s.drop u.length)).map (u ++ ·)

/-- The ways to match a beginning of a text, piece by piece. -/
def ways : List (Piece α) → List α → List (List (List α))
  | [], _ => [[]]
  | piece :: pieces, s =>
    (prefixes piece.items s).flatMap fun u => (ways pieces (s.drop u.length)).map (u :: ·)

def rank (m : List (List α)) : List Nat := m.flatten.length :: m.map List.length

def longest (re : List (Piece α)) (s : List α) : Option (List (List α)) :=
  (ways re s).argmax rank

def leftmost (re : List (Piece α)) : List α → Option (List (List α))
  | [] => longest re []
  | c :: s => longest re (c :: s) <|> leftmost re s

/-- The whole match and the groups; nothing without a match. -/
def exec (re : List (Piece α)) (s : List α) : List (List α) :=
  match leftmost re s with
  | none => []
  | some m => m.flatten :: ((re.zip m).filter (·.1.captured)).map Prod.snd

def Accepts : List (Item α) → List α → Prop
  | [], u => u = []
  | .text t :: items, u => ∃ v, u = t ++ v ∧ Accepts items v
  | .any :: items, u => ∃ w v, u = w ++ v ∧ Accepts items v

theorem mem_prefixes {items : List (Item α)} {s u : List α} :
    u ∈ prefixes items s ↔ u <+: s ∧ Accepts items u := by
  induction items generalizing s u with
  | nil =>
    simp only [prefixes, List.mem_singleton, Accepts]
    exact ⟨fun h => ⟨h ▸ List.nil_prefix, h⟩, And.right⟩
  | cons item items ih =>
    have hdrop {t v : List α} (ht : t <+: s) : v <+: s.drop t.length ↔ t ++ v <+: s := by
      obtain ⟨rest, rfl⟩ := ht
      rw [List.drop_left, List.prefix_append_right_inj]
    cases item with
    | text t =>
      constructor
      · intro h
        unfold prefixes at h
        split_ifs at h with ht
        · obtain ⟨v, hv, rfl⟩ := List.mem_map.mp h
          obtain ⟨hpre, hacc⟩ := ih.mp hv
          exact ⟨(hdrop ht).mp hpre, v, rfl, hacc⟩
        · exact absurd h List.not_mem_nil
      · rintro ⟨hpre, v, rfl, hacc⟩
        have ht : t <+: s := (List.prefix_append t v).trans hpre
        unfold prefixes
        rw [if_pos ht]
        exact List.mem_map.mpr ⟨v, ih.mpr ⟨(hdrop ht).mpr hpre, hacc⟩, rfl⟩
    | any =>
      constructor
      · intro h
        obtain ⟨w, hw, h⟩ := List.mem_flatMap.mp h
        obtain ⟨v, hv, rfl⟩ := List.mem_map.mp h
        obtain ⟨hpre, hacc⟩ := ih.mp hv
        exact ⟨(hdrop ((List.mem_inits _ _).mp hw)).mp hpre, w, v, rfl, hacc⟩
      · rintro ⟨hpre, w, v, rfl, hacc⟩
        have hw : w <+: s := (List.prefix_append w v).trans hpre
        exact List.mem_flatMap.mpr ⟨w, (List.mem_inits _ _).mpr hw,
          List.mem_map.mpr ⟨v, ih.mpr ⟨(hdrop hw).mpr hpre, hacc⟩, rfl⟩⟩

theorem mem_ways {re : List (Piece α)} {s : List α} {m : List (List α)} :
    m ∈ ways re s ↔ m.flatten <+: s ∧ List.Forall₂ (fun piece u => Accepts piece.items u) re m := by
  induction re generalizing s m with
  | nil =>
    simp only [ways, List.mem_singleton, List.forall₂_nil_left_iff]
    exact ⟨fun h => ⟨h ▸ List.nil_prefix, h⟩, And.right⟩
  | cons piece re ih =>
    have hdrop {u : List α} {m : List (List α)} (hu : u <+: s) :
        m.flatten <+: s.drop u.length ↔ (u :: m).flatten <+: s := by
      obtain ⟨rest, rfl⟩ := hu
      rw [List.drop_left, List.flatten_cons, List.prefix_append_right_inj]
    constructor
    · intro h
      obtain ⟨u, hu, h⟩ := List.mem_flatMap.mp h
      obtain ⟨m', hm', rfl⟩ := List.mem_map.mp h
      obtain ⟨hpre, hacc⟩ := mem_prefixes.mp hu
      obtain ⟨hrest, hall⟩ := ih.mp hm'
      exact ⟨(hdrop hpre).mp hrest, .cons hacc hall⟩
    · rintro ⟨hpre, hall⟩
      obtain ⟨u, m', hacc, hall', rfl⟩ := List.forall₂_cons_left_iff.mp hall
      have hu : u <+: s := (List.prefix_append u _).trans hpre
      exact List.mem_flatMap.mpr ⟨u, mem_prefixes.mpr ⟨hu, hacc⟩,
        List.mem_map.mpr ⟨m', ih.mpr ⟨(hdrop hu).mpr hpre, hall'⟩, rfl⟩⟩

omit [DecidableEq α] in
theorem eq_of_lengths {m m' : List (List α)} {s : List α} (h : m.flatten <+: s)
    (h' : m'.flatten <+: s) (hlen : m.map List.length = m'.map List.length) : m = m' := by
  induction m generalizing m' s with
  | nil => simpa using hlen.symm
  | cons u m ih =>
    cases m' with
    | nil => simp at hlen
    | cons u' m' =>
      obtain ⟨hu, hm⟩ := List.cons_eq_cons.mp hlen
      rw [List.flatten_cons] at h h'
      have hpre := (List.prefix_append u _).trans h
      have hsame : u = u' := by
        have hu' := (List.prefix_append u' _).trans h'
        rw [List.prefix_iff_eq_take.mp hpre, List.prefix_iff_eq_take.mp hu', hu]
      subst hsame
      obtain ⟨rest, rfl⟩ := hpre
      rw [List.prefix_append_right_inj] at h h'
      rw [ih h h' hm]

theorem cons_le_cons_iff {a b : Nat} {l l' : List Nat} :
    a :: l ≤ b :: l' ↔ a < b ∨ a = b ∧ l ≤ l' := by
  rw [← not_lt, List.cons_lt_cons_iff, ← not_lt]
  rcases lt_trichotomy a b with h | rfl | h
  · simp [h, h.ne', not_lt.mpr h.le]
  · simp
  · simp [h, h.ne', not_lt.mpr h.le]

theorem longest_eq_some {re : List (Piece α)} {s : List α} {m : List (List α)} (hm : m ∈ ways re s)
    (hbest : ∀ a ∈ ways re s, rank a ≤ rank m) : longest re s = some m := by
  unfold longest
  cases h : (ways re s).argmax rank with
  | none => exact absurd (List.argmax_eq_none.mp h ▸ hm) List.not_mem_nil
  | some m' =>
    have hmem : m' ∈ ways re s := List.argmax_mem h
    have hrank : rank m' = rank m :=
      le_antisymm (hbest m' hmem) (not_lt.mp (List.not_lt_of_mem_argmax hm h))
    rw [eq_of_lengths (mem_ways.mp hmem).1 (mem_ways.mp hm).1 (List.cons_eq_cons.mp hrank).2]

theorem longest_eq_none {re : List (Piece α)} {s : List α} :
    longest re s = none ↔ ∀ m, m ∉ ways re s := by
  rw [longest, List.argmax_eq_none, List.eq_nil_iff_forall_not_mem]

theorem leftmost_append {re : List (Piece α)} (u : List α) {v : List α} {m : List (List α)}
    (hm : longest re v = some m)
    (hfirst : ∀ w, w ≠ [] → w <:+ u → ∀ a, a ∉ ways re (w ++ v)) :
    leftmost re (u ++ v) = some m := by
  induction u with
  | nil => cases v <;> simp [leftmost, hm]
  | cons c u ih =>
    have hnone : longest re (c :: (u ++ v)) = none :=
      longest_eq_none.mpr (hfirst (c :: u) (List.cons_ne_nil c u) List.suffix_rfl)
    rw [List.cons_append, leftmost, hnone]
    exact ih fun w hw hsuffix => hfirst w hw (hsuffix.trans (List.suffix_cons c u))

theorem leftmost_eq_none {re : List (Piece α)} {s : List α}
    (h : ∀ v, v <:+ s → ∀ m, m ∉ ways re v) : leftmost re s = none := by
  induction s with
  | nil => exact longest_eq_none.mpr (h [] List.suffix_rfl)
  | cons c s ih =>
    rw [leftmost, longest_eq_none.mpr (h _ List.suffix_rfl)]
    exact ih fun v hv => h v (hv.trans (List.suffix_cons c s))

end Cta.Lib.PosixRegex

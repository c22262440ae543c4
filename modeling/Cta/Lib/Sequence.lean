import Mathlib.Data.List.Basic
import Mathlib.Data.List.Induction
import Mathlib.Tactic.Linarith

/-! Repeated fields edited in place by swaps of neighbours: moving the last entry
down to an index, and pushing an entry to the end to drop it. Both amount to an
insertion and a deletion at that index. -/
namespace Cta.Lib.Sequence
variable {α : Type*}

def swapAdjacent : Nat → List α → List α
  | 0, a :: b :: l => b :: a :: l
  | n+1, a :: l => a :: swapAdjacent n l
  | _, l => l

theorem swapAdjacent_append (xs : List α) (a b : α) (ys : List α) :
    swapAdjacent xs.length (xs ++ a :: b :: ys) = xs ++ b :: a :: ys := by
  induction xs with
  | nil => rfl
  | cons x xs ih => simpa [swapAdjacent] using ih

/-- Swap the entry at the given position down until it reaches the target. A target
above the position is never met and the walk runs off the front of the array. -/
def moveDown (target : Nat) : Nat → List α → Option (List α)
  | 0, l => if target = 0 then some l else none
  | n+1, l => if target = n+1 then some l else moveDown target n (swapAdjacent n l)

theorem moveDown_append (xs ys : List α) (a : α) :
    moveDown xs.length (xs.length + ys.length) (xs ++ ys ++ [a]) = some (xs ++ a :: ys) := by
  have main : ∀ (ys zs : List α), moveDown xs.length (xs.length + ys.length)
      (xs ++ ys ++ a :: zs) = some (xs ++ a :: (ys ++ zs)) := by
    intro ys
    induction ys using List.reverseRecOn with
    | nil =>
      intro zs
      cases h : xs.length <;> simp [moveDown]
    | append_singleton ys y ih =>
      intro zs
      have hs := swapAdjacent_append (xs ++ ys) y a zs
      have hl : xs.length + (ys ++ [y]).length = (xs ++ ys).length + 1 := by
        simp [Nat.add_assoc]
      have hne : ¬ xs.length = (xs ++ ys).length + 1 := by
        simp only [List.length_append]; omega
      rw [hl, moveDown, if_neg hne]
      have he : xs ++ (ys ++ [y]) ++ a :: zs = (xs ++ ys) ++ y :: a :: zs := by simp
      rw [he, hs, List.length_append]
      simpa using ih (y :: zs)
  simpa using main ys []

/-- Swap the entry at an index up, step by step, the given number of times. -/
def pushUp : Nat → Nat → List α → List α
  | 0, _, l => l
  | n+1, i, l => pushUp n (i+1) (swapAdjacent i l)

def removeBySwaps (i : Nat) (l : List α) : List α :=
  (pushUp (l.length - 1 - i) i l).dropLast

theorem pushUp_append (xs ys : List α) (a : α) :
    pushUp ys.length xs.length (xs ++ a :: ys) = xs ++ ys ++ [a] := by
  induction ys generalizing xs with
  | nil => simp [pushUp]
  | cons y ys ih =>
    rw [List.length_cons, pushUp, swapAdjacent_append]
    have h := ih (xs ++ [y])
    simpa using h

theorem removeBySwaps_append (xs ys : List α) (a : α) :
    removeBySwaps xs.length (xs ++ a :: ys) = xs ++ ys := by
  have hl : (xs ++ a :: ys).length - 1 - xs.length = ys.length := by simp
  rw [removeBySwaps, hl, pushUp_append, List.dropLast_concat]

theorem exists_split_of_lt {l : List α} {i : Nat} (h : i < l.length) :
    ∃ xs a ys, l = xs ++ a :: ys ∧ xs.length = i ∧ l[i]? = some a := by
  refine ⟨l.take i, l[i], l.drop (i+1), ?_, ?_, ?_⟩
  · rw [List.getElem_cons_drop, List.take_append_drop]
  · simp; omega
  · exact List.getElem?_eq_getElem h

theorem exists_block {β : Type*} {f : β → List α} {gs : List β} {pre post : List α} {a : α}
    (h : gs.flatMap f = pre ++ a :: post) :
    ∃ gpre g gpost u v, gs = gpre ++ g :: gpost ∧ f g = u ++ a :: v ∧
      pre = gpre.flatMap f ++ u ∧ post = v ++ gpost.flatMap f := by
  induction gs generalizing pre with
  | nil => simp at h
  | cons g gs ih =>
    rw [List.flatMap_cons] at h
    rcases List.append_eq_append_iff.mp h with ⟨xs, hpre, hrest⟩ | ⟨xs, hg, hrest⟩
    · obtain ⟨gpre, g', gpost, u, v, rfl, hg', rfl, rfl⟩ := ih hrest
      exact ⟨g :: gpre, g', gpost, u, v, rfl, hg', by simp [hpre], rfl⟩
    · cases xs with
      | nil =>
        have hr : gs.flatMap f = [] ++ a :: post := by simpa using hrest.symm
        obtain ⟨gpre, g', gpost, u, v, rfl, hg', hu, rfl⟩ := ih hr
        refine ⟨g :: gpre, g', gpost, u, v, rfl, hg', ?_, rfl⟩
        rw [List.flatMap_cons, List.append_assoc, ← hu, hg]
        simp
      | cons x xs =>
        obtain ⟨rfl, rfl⟩ := List.cons.inj (by simpa using hrest)
        exact ⟨[], g, gs, pre, xs, rfl, hg, by simp, rfl⟩

theorem exists_of_forall₂ {β : Type*} {R : α → β → Prop} {l : List α} {m : List β}
    (h : List.Forall₂ R l m) {a : α} (ha : a ∈ l) : ∃ b ∈ m, R a b := by
  induction h with
  | nil => simp at ha
  | @cons x y _ _ hxy _ ih =>
    rcases List.mem_cons.mp ha with rfl | ha
    · exact ⟨y, List.mem_cons_self, hxy⟩
    · obtain ⟨b, hb, hab⟩ := ih ha
      exact ⟨b, List.mem_cons_of_mem y hb, hab⟩

/-- A fold that may fail does not, and keeps an invariant of what it went through, when
every step does. -/
theorem foldlM_invariant {ε β : Type*} {f : β → α → Except ε β} {I : β → List α → Prop}
    (hstep : ∀ b done a, I b done → ∃ b', f b a = .ok b' ∧ I b' (done ++ [a]))
    {b : β} (h : I b []) (l : List α) : ∃ b', l.foldlM f b = .ok b' ∧ I b' l := by
  have main : ∀ (l done : List α) (b : β), I b done →
      ∃ b', l.foldlM f b = .ok b' ∧ I b' (done ++ l) := by
    intro l
    induction l with
    | nil => exact fun done b h => ⟨b, rfl, by simpa using h⟩
    | cons a l ih =>
      intro done b h
      obtain ⟨b', he, hb'⟩ := hstep b done a h
      obtain ⟨b'', he', hb''⟩ := ih _ _ hb'
      refine ⟨b'', ?_, by simpa using hb''⟩
      rw [List.foldlM_cons, he]
      exact he'
  exact main l [] b h

/-- A fold that keeps within a bound, holds on to it once there, and goes there with the elements
that lie on it, ends on the bound if one of them does. -/
theorem foldl_eq_bound {β : Type*} {f : β → α → β} (Within : β → Prop) {OnBound : α → Prop} {b : β}
    {l : List α} (keeps : ∀ m, Within m → ∀ a ∈ l, Within (f m a)) (stays : ∀ a ∈ l, f b a = b)
    (reaches : ∀ m, Within m → ∀ a ∈ l, OnBound a → f m a = b) {m : β} (hm : Within m)
    (hex : m = b ∨ ∃ a ∈ l, OnBound a) : l.foldl f m = b := by
  induction l generalizing m with
  | nil => simpa using hex
  | cons a l ih =>
    have htail : ∀ {P : α → Prop}, (∀ x ∈ a :: l, P x) → ∀ x ∈ l, P x :=
      fun h x hx => h x (List.mem_cons_of_mem a hx)
    refine ih (fun m hm => htail (keeps m hm)) (htail stays) (fun m hm => htail (reaches m hm))
      (keeps m hm a List.mem_cons_self) ?_
    cases hex with
    | inl hb =>
      rw [hb]
      exact .inl (stays a List.mem_cons_self)
    | inr hex =>
      obtain ⟨x, hx, hbound⟩ := hex
      cases List.mem_cons.mp hx with
      | inl hhead => exact .inl (reaches m hm a List.mem_cons_self (hhead ▸ hbound))
      | inr hlater => exact .inr ⟨x, hlater, hbound⟩

/-- The second list has `y` where the first one has `x`, its first entry with a property. -/
def ReplacesFirst (p : α → Prop) (x y : α) (xs ys : List α) : Prop :=
  ∃ before after, xs = before ++ x :: after ∧ ys = before ++ y :: after ∧
    (∀ z ∈ before, ¬p z) ∧ p x

theorem replacesFirst_head {p : α → Prop} {x : α} (y : α) (xs : List α) (hx : p x) :
    ReplacesFirst p x y (x :: xs) (y :: xs) :=
  ⟨[], xs, rfl, rfl, nofun, hx⟩

theorem ReplacesFirst.eq_of_head {p : α → Prop} {x y a : α} {xs ys : List α}
    (h : ReplacesFirst p x y (a :: xs) ys) (ha : p a) : x = a ∧ ys = y :: xs := by
  obtain ⟨before, after, hxs, rfl, hbefore, -⟩ := h
  cases before with
  | nil =>
    obtain ⟨rfl, rfl⟩ := List.cons.inj hxs
    exact ⟨rfl, rfl⟩
  | cons z before =>
    obtain ⟨rfl, -⟩ := List.cons.inj hxs
    exact absurd ha (hbefore a List.mem_cons_self)

theorem ReplacesFirst.cons {p : α → Prop} {x y a : α} {xs ys : List α}
    (h : ReplacesFirst p x y xs ys) (ha : ¬p a) : ReplacesFirst p x y (a :: xs) (a :: ys) := by
  obtain ⟨before, after, rfl, rfl, hbefore, hx⟩ := h
  exact ⟨a :: before, after, rfl, rfl, List.forall_mem_cons.mpr ⟨ha, hbefore⟩, hx⟩

theorem ReplacesFirst.find?_left {p : α → Prop} [DecidablePred p] {x y : α} {xs ys : List α}
    (h : ReplacesFirst p x y xs ys) : xs.find? p = some x := by
  obtain ⟨before, after, rfl, -, hbefore, hx⟩ := h
  have hnone : before.find? p = none := by simpa using hbefore
  rw [List.find?_append, hnone, Option.none_or, List.find?_cons_of_pos (by simpa using hx)]

theorem ReplacesFirst.find?_right {p : α → Prop} [DecidablePred p] {x y : α} {xs ys : List α}
    (h : ReplacesFirst p x y xs ys) (hy : p y) : ys.find? p = some y := by
  obtain ⟨before, after, -, rfl, hbefore, -⟩ := h
  have hnone : before.find? p = none := by simpa using hbefore
  rw [List.find?_append, hnone, Option.none_or, List.find?_cons_of_pos (by simpa using hy)]

theorem ReplacesFirst.find?_other {p q : α → Prop} [DecidablePred q] {x y : α} {xs ys : List α}
    (h : ReplacesFirst p x y xs ys) (hx : ¬q x) (hy : ¬q y) : ys.find? q = xs.find? q := by
  obtain ⟨before, after, rfl, rfl, -⟩ := h
  rw [List.find?_append, List.find?_append, List.find?_cons_of_neg (by simpa using hy),
    List.find?_cons_of_neg (by simpa using hx)]

theorem ReplacesFirst.eq_of_same {p : α → Prop} {x y : α} {xs : List α}
    (h : ReplacesFirst p x y xs xs) : x = y := by
  obtain ⟨before, after, hxs, hys, -⟩ := h
  simpa using hxs.symm.trans hys

/-- The shortest prefix with a property, or the whole list if no prefix has it. -/
structure ShortestPrefix (p : List α → Prop) (xs ys : List α) : Prop where
  isPrefix : xs <+: ys
  least : ∀ zs, zs <+: ys → p zs → xs <+: zs
  reaches : p xs ∨ xs = ys

section
variable {p : List α → Prop} {xs xs' ys : List α}

theorem ShortestPrefix.unique (h : ShortestPrefix p xs ys) (h' : ShortestPrefix p xs' ys) :
    xs = xs' := by
  have hle : ∀ {us vs : List α}, ShortestPrefix p us ys → ShortestPrefix p vs ys →
      us <+: vs := by
    intro us vs hus hvs
    cases hvs.reaches with
    | inl hp => exact hus.least vs hvs.isPrefix hp
    | inr hall => exact hall ▸ hus.isPrefix
  exact (hle h h').eq_of_length_le (hle h' h).length_le

theorem shortestPrefix_nil (h : p []) (ys : List α) : ShortestPrefix p [] ys :=
  ⟨List.nil_prefix, fun _ _ _ => List.nil_prefix, .inl h⟩

theorem ShortestPrefix.none_of_not (h : ShortestPrefix p xs ys) (hp : ¬p xs) :
    xs = ys ∧ ∀ zs, zs <+: ys → ¬p zs := by
  have hall := h.reaches.resolve_left hp
  refine ⟨hall, fun zs hzs hpz => hp ?_⟩
  have hle := h.least zs hzs hpz
  rw [hall] at hle ⊢
  rwa [hle.eq_of_length_le hzs.length_le]

theorem prefix_append_cases {zs : List α} (h : zs <+: xs ++ ys) :
    zs <+: xs ∨ ∃ us, us <+: ys ∧ zs = xs ++ us := by
  obtain ⟨rest, hrest⟩ := h
  obtain ⟨us, hxs, -⟩ | ⟨us, rfl, hys⟩ := List.append_eq_append_iff.mp hrest
  · exact .inl ⟨us, hxs.symm⟩
  · exact .inr ⟨us, ⟨rest, hys.symm⟩, rfl⟩

theorem ShortestPrefix.append_right (h : ShortestPrefix p xs ys) (hp : p xs) (zs : List α) :
    ShortestPrefix p xs (ys ++ zs) := by
  refine ⟨h.isPrefix.trans (List.prefix_append ys zs), fun us hus hpu => ?_, .inl hp⟩
  cases prefix_append_cases hus with
  | inl hus => exact h.least us hus hpu
  | inr hus =>
    obtain ⟨vs, -, rfl⟩ := hus
    exact h.isPrefix.trans (List.prefix_append ys vs)

theorem ShortestPrefix.append_left (hbefore : ∀ zs, zs <+: ys → ¬p zs)
    (h : ShortestPrefix (fun zs => p (ys ++ zs)) xs xs') :
    ShortestPrefix p (ys ++ xs) (ys ++ xs') := by
  refine ⟨(List.prefix_append_right_inj ys).mpr h.isPrefix, fun us hus hpu => ?_, ?_⟩
  · cases prefix_append_cases hus with
    | inl hus => exact absurd hpu (hbefore us hus)
    | inr hus =>
      obtain ⟨vs, hvs, rfl⟩ := hus
      exact (List.prefix_append_right_inj ys).mpr (h.least vs hvs hpu)
  · exact h.reaches.imp_right (congrArg (ys ++ ·))

theorem ShortestPrefix.filter {keep : α → Bool}
    (h : ShortestPrefix (fun zs => p (zs.filter keep)) xs ys) :
    ShortestPrefix p (xs.filter keep) (ys.filter keep) := by
  refine ⟨h.isPrefix.filter keep, fun zs hzs hpz => ?_, h.reaches.imp_right (congrArg _)⟩
  obtain ⟨rest, hrest⟩ := hzs
  obtain ⟨us, vs, rfl, rfl, -⟩ := List.filter_eq_append_iff.mp hrest.symm
  exact (h.least us (List.prefix_append us vs) hpz).filter keep

theorem ShortestPrefix.map {β : Type*} {q : List β → Prop} {f : α → β}
    (h : ShortestPrefix (fun zs => q (zs.map f)) xs ys) :
    ShortestPrefix q (xs.map f) (ys.map f) := by
  refine ⟨h.isPrefix.map f, fun zs hzs hqz => ?_, h.reaches.imp_right (congrArg _)⟩
  obtain ⟨rest, hrest⟩ := hzs
  obtain ⟨us, vs, rfl, rfl, -⟩ := List.map_eq_append_iff.mp hrest.symm
  exact (h.least us (List.prefix_append us vs) hqz).map f

end

def swapOut (p : α → Bool) (l : List α) : Option (List α) :=
  match l.findIdx? p, l.getLast? with
  | some i, some last => some (l.set i last).dropLast
  | _, _ => none

def swapOutAll (p : α → Bool) : Nat → List α → List α
  | 0, l => l
  | fuel + 1, l =>
    match swapOut p l with
    | none => l
    | some l => swapOutAll p fuel l

theorem dropLast_set_perm (xs ys : List α) (a : α) {last : α}
    (h : (xs ++ a :: ys).getLast? = some last) :
    (a :: ((xs ++ a :: ys).set xs.length last).dropLast).Perm (xs ++ a :: ys) := by
  have hset : (xs ++ a :: ys).set xs.length last = xs ++ last :: ys := by simp
  rw [hset]
  cases ys using List.reverseRecOn with
  | nil =>
    obtain rfl : a = last := by simpa using h
    rw [List.dropLast_concat]
    exact (List.perm_append_singleton a xs).symm
  | append_singleton zs b =>
    have hassoc : ∀ c, xs ++ c :: (zs ++ [b]) = (xs ++ c :: zs) ++ [b] := by simp
    obtain rfl : b = last := by
      rw [hassoc, List.getLast?_concat] at h
      exact Option.some.inj h
    rw [hassoc, List.dropLast_concat]
    refine .trans (.cons a (.append_left xs ?_)) List.perm_middle.symm
    exact (List.perm_append_singleton b zs).symm

theorem swapOut_none {p : α → Bool} {l : List α} (h : swapOut p l = none) :
    ∀ a ∈ l, p a = false := by
  cases hi : l.findIdx? p with
  | none => exact List.findIdx?_eq_none_iff.mp hi
  | some i =>
    obtain ⟨hlt, -⟩ := List.findIdx?_eq_some_iff_getElem.mp hi
    have hne : l ≠ [] := List.ne_nil_of_length_pos (Nat.lt_of_le_of_lt (Nat.zero_le i) hlt)
    simp [swapOut, hi, List.getLast?_eq_some_getLast hne] at h

theorem swapOut_some {p : α → Bool} {l m : List α} (h : swapOut p l = some m) :
    ∃ a, p a = true ∧ (a :: m).Perm l := by
  cases hi : l.findIdx? p with
  | none => simp [swapOut, hi] at h
  | some i =>
    obtain ⟨hlt, hp, -⟩ := List.findIdx?_eq_some_iff_getElem.mp hi
    have hne : l ≠ [] := List.ne_nil_of_length_pos (Nat.lt_of_le_of_lt (Nat.zero_le i) hlt)
    have hlast := List.getLast?_eq_some_getLast hne
    obtain rfl : (l.set i (l.getLast hne)).dropLast = m := by
      simpa [swapOut, hi, hlast] using h
    obtain ⟨xs, a, ys, hl, rfl, ha⟩ := exists_split_of_lt hlt
    have hpa : p a = true := by
      rw [List.getElem?_eq_getElem hlt] at ha
      rwa [Option.some.inj ha] at hp
    refine ⟨a, hpa, ?_⟩
    generalize l.getLast hne = last at hlast ⊢
    rw [hl] at hlast ⊢
    exact dropLast_set_perm xs ys a hlast

theorem swapOutAll_perm {p : α → Bool} {fuel : Nat} {l : List α} (h : l.length ≤ fuel) :
    (swapOutAll p fuel l).Perm (l.filter fun a => !p a) := by
  induction fuel generalizing l with
  | zero =>
    obtain rfl := List.eq_nil_of_length_eq_zero (Nat.le_zero.mp h)
    exact .refl []
  | succ fuel ih =>
    rw [swapOutAll]
    cases hm : swapOut p l with
    | none =>
      have hkeep : l.filter (fun a => !p a) = l :=
        List.filter_eq_self.mpr fun a ha => by simp [swapOut_none hm a ha]
      simp only [hkeep]
      exact .refl l
    | some m =>
      obtain ⟨a, ha, hperm⟩ := swapOut_some hm
      have hlen := hperm.length_eq
      rw [List.length_cons] at hlen
      have hgone := hperm.filter fun a => !p a
      rw [List.filter_cons_of_neg (by simp [ha])] at hgone
      exact (ih (by omega)).trans hgone

end Cta.Lib.Sequence

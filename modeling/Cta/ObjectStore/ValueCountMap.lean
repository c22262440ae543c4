import Cta.ObjectStore.Base
import Mathlib.Data.Multiset.AddSub
import Mathlib.Data.Multiset.Replicate
import Mathlib.Algebra.BigOperators.Group.List.Basic
import Mathlib.Algebra.Order.Group.Multiset
import Mathlib.Data.List.Induction
import Mathlib.Tactic.Tauto

/-! Running counters of the queues: a repeated field of (value, count) pairs, edited
in place. A well formed field denotes a multiset of values. -/
namespace Cta.ObjectStore
open StoreError
variable {κ : Type*}

structure ValueCountPair (κ : Type*) where
  value : κ
  count : Nat
  deriving DecidableEq, Repr

abbrev ValueCountMap (κ : Type*) := List (ValueCountPair κ)

namespace ValueCountMap

def incCount [DecidableEq κ] (v : κ) : ValueCountMap κ → Except StoreError (ValueCountMap κ)
  | [] => .ok [⟨v, 1⟩]
  | p :: m =>
    if p.value = v then
      if p.count < 1 then .error (countMapWrongCount p.count)
      else .ok ({ p with count := p.count + 1 } :: m)
    else (incCount v m).map (p :: ·)

/-- Overwrite an entry with the last one and drop the last: the swap of `decCount`. -/
def swapWithLastAndDrop (i : Nat) (m : ValueCountMap κ) : ValueCountMap κ :=
  match m.getLast? with
  | some p => (m.set i p).dropLast
  | none => []

def decCount [DecidableEq κ] (v : κ) (m : ValueCountMap κ) : Except StoreError (ValueCountMap κ) :=
  match m.findIdx? (fun p => decide (p.value = v)) with
  | none => .error countMapNoEntry
  | some i =>
    match m[i]? with
    | none => .error countMapNoEntry
    | some p =>
      if p.count < 1 then .error (countMapWrongCount p.count)
      else if p.count - 1 ≠ 0 then .ok (m.set i { p with count := p.count - 1 })
      else
        let m' := swapWithLastAndDrop i m
        -- the value must not be found again once its entry is trimmed
        if m'.any (fun q => decide (q.value = v)) then .error countMapStillFound else .ok m'

def clear (_ : ValueCountMap κ) : ValueCountMap κ := []

def total : ValueCountMap κ → Except StoreError Nat
  | [] => .ok 0
  | p :: m =>
    if p.count < 1 then .error (countMapWrongCount p.count)
    else (total m).map (p.count + ·)

def maxValue : ValueCountMap Nat → Except StoreError Nat
  | [] => .error countMapEmpty
  | m => .ok (m.foldl (fun ret p => if ret < p.value then p.value else ret) 0)

def minValue : ValueCountMap Nat → Except StoreError Nat
  | [] => .error countMapEmpty
  | m => .ok (m.foldl (fun ret p => if p.value < ret then p.value else ret) (2^64 - 1))

/-- The values with a non zero counter, each with the first one found. -/
def getMap [DecidableEq κ] (m : ValueCountMap κ) : List (κ × Nat) :=
  m.foldl (fun ret p =>
    if p.count ≠ 0 ∧ p.value ∉ ret.map Prod.fst then ret ++ [(p.value, p.count)] else ret) []

/-- The values a map counts, each as often as its counter says. -/
def toMultiset (m : ValueCountMap κ) : Multiset κ :=
  (m.map fun p => Multiset.replicate p.count p.value).sum

structure WellFormed (m : ValueCountMap κ) : Prop where
  nodup : (m.map ValueCountPair.value).Nodup
  positive : ∀ p ∈ m, 1 ≤ p.count

def Counts (m : ValueCountMap κ) (s : Multiset κ) : Prop := WellFormed m ∧ toMultiset m = s

@[simp] theorem toMultiset_nil : toMultiset ([] : ValueCountMap κ) = 0 := rfl

@[simp] theorem toMultiset_cons (p : ValueCountPair κ) (m : ValueCountMap κ) :
    toMultiset (p :: m) = Multiset.replicate p.count p.value + toMultiset m := by
  simp [toMultiset]

@[simp] theorem toMultiset_append (m m' : ValueCountMap κ) :
    toMultiset (m ++ m') = toMultiset m + toMultiset m' := by
  simp [toMultiset]

theorem toMultiset_perm {m m' : ValueCountMap κ} (h : m.Perm m') :
    toMultiset m = toMultiset m' := by
  exact (h.map fun p => Multiset.replicate p.count p.value).sum_eq

theorem counts_nil : Counts ([] : ValueCountMap κ) 0 :=
  ⟨⟨List.nodup_nil, by simp⟩, rfl⟩

theorem WellFormed.tail {p : ValueCountPair κ} {m : ValueCountMap κ}
    (h : WellFormed (p :: m)) : WellFormed m :=
  ⟨(List.nodup_cons.mp h.nodup).2, fun q hq => h.positive q (List.mem_cons_of_mem p hq)⟩

theorem WellFormed.mem_toMultiset {m : ValueCountMap κ} (h : WellFormed m) (v : κ) :
    v ∈ toMultiset m ↔ v ∈ m.map ValueCountPair.value := by
  induction m with
  | nil => simp
  | cons p m ih =>
    have hp : p.count ≠ 0 := by
      have := h.positive p List.mem_cons_self
      omega
    simp [Multiset.mem_replicate, hp, ih h.tail]

theorem incCount_counts [DecidableEq κ] {m : ValueCountMap κ} {s : Multiset κ} (v : κ)
    (h : Counts m s) :
    ∃ m', incCount v m = .ok m' ∧ Counts m' (v ::ₘ s) := by
  have main : ∀ m : ValueCountMap κ, WellFormed m → ∃ m', incCount v m = .ok m' ∧
      WellFormed m' ∧ toMultiset m' = v ::ₘ toMultiset m ∧
      ∀ w, w ∈ m'.map ValueCountPair.value ↔ w = v ∨ w ∈ m.map ValueCountPair.value := by
    intro m
    induction m with
    | nil =>
      intro _
      exact ⟨[⟨v, 1⟩], rfl, ⟨by simp, by simp⟩, by simp, by simp⟩
    | cons p m ih =>
      intro hw
      have hp := hw.positive p List.mem_cons_self
      by_cases hv : p.value = v
      · refine ⟨{ p with count := p.count + 1 } :: m, ?_, ⟨hw.nodup, ?_⟩, ?_, ?_⟩
        · simp [incCount, hv, Nat.not_lt.mpr hp]
        · intro q hq
          rcases List.mem_cons.mp hq with rfl | hq
          · simp
          · exact hw.positive q (List.mem_cons_of_mem p hq)
        · simp [Multiset.replicate_succ, hv]
        · intro w
          simp [hv]
      · obtain ⟨m', he, hw', hs, hm⟩ := ih hw.tail
        refine ⟨p :: m', by simp [incCount, hv, he, Except.map], ⟨?_, ?_⟩, ?_, ?_⟩
        · have hn := (List.nodup_cons.mp hw.nodup).1
          rw [List.map_cons, List.nodup_cons]
          exact ⟨fun hc => ((hm _).mp hc).elim hv hn, hw'.nodup⟩
        · intro q hq
          rcases List.mem_cons.mp hq with rfl | hq
          · exact hp
          · exact hw'.positive q hq
        · rw [toMultiset_cons, hs, toMultiset_cons, Multiset.add_cons]
        · intro w
          rw [List.map_cons, List.mem_cons, hm w, List.map_cons, List.mem_cons]
          tauto
  obtain ⟨m', he, hw, hs, _⟩ := main m h.1
  exact ⟨m', he, hw, by rw [hs, h.2]⟩

/-- Dropping an entry through the swap with the last one only reorders the rest. -/
theorem swapWithLastAndDrop_perm (xs ys : ValueCountMap κ) (p : ValueCountPair κ) :
    (swapWithLastAndDrop xs.length (xs ++ p :: ys)).Perm (xs ++ ys) := by
  induction ys using List.reverseRecOn with
  | nil => simp [swapWithLastAndDrop]
  | append_singleton ys y _ =>
    have hl : (xs ++ p :: (ys ++ [y])).getLast? = some y := by
      rw [show xs ++ p :: (ys ++ [y]) = (xs ++ p :: ys) ++ [y] by simp]
      exact List.getLast?_concat
    have hd : ((xs ++ p :: (ys ++ [y])).set xs.length y).dropLast = xs ++ y :: ys := by
      rw [List.set_append_right _ _ (Nat.le_refl _), Nat.sub_self, List.set_cons_zero,
        show xs ++ y :: (ys ++ [y]) = (xs ++ y :: ys) ++ [y] by simp, List.dropLast_concat]
    simp only [swapWithLastAndDrop, hl, hd]
    exact List.Perm.append_left xs (List.perm_append_singleton y ys).symm

theorem exists_first {m : ValueCountMap κ} {v : κ} (h : v ∈ m.map ValueCountPair.value) :
    ∃ xs p ys, m = xs ++ p :: ys ∧ p.value = v ∧ ∀ q ∈ xs, q.value ≠ v := by
  obtain ⟨as, bs, he, hn⟩ := List.eq_append_cons_of_mem h
  obtain ⟨xs, rest, rfl, rfl, hr⟩ := List.map_eq_append_iff.mp he
  obtain ⟨p, ys, rfl, hp, rfl⟩ := List.map_eq_cons_iff.mp hr
  exact ⟨xs, p, ys, rfl, hp, fun q hq hv => hn (hv ▸ List.mem_map_of_mem hq)⟩

theorem findIdx_first [DecidableEq κ] {xs : ValueCountMap κ} {p : ValueCountPair κ} {v : κ}
    (ys : ValueCountMap κ) (hp : p.value = v) (hxs : ∀ q ∈ xs, q.value ≠ v) :
    (xs ++ p :: ys).findIdx? (fun q => decide (q.value = v)) = some xs.length := by
  have hn : xs.findIdx? (fun q => decide (q.value = v)) = none := by
    rw [List.findIdx?_eq_none_iff]
    intro q hq
    simpa using hxs q hq
  simp [List.findIdx?_append, hn, List.findIdx?_cons, hp]

/-- Decrementing a value that is present never fails and takes one occurrence away. -/
theorem decCount_counts [DecidableEq κ] {m : ValueCountMap κ} {s : Multiset κ} {v : κ}
    (h : Counts m s) (hv : v ∈ s) :
    ∃ m', decCount v m = .ok m' ∧ Counts m' (s.erase v) := by
  obtain ⟨hw, rfl⟩ := h
  obtain ⟨xs, p, ys, rfl, rfl, hxs⟩ := exists_first ((hw.mem_toMultiset v).mp hv)
  have hi := findIdx_first ys (rfl : p.value = p.value) hxs
  have hp : 1 ≤ p.count := hw.positive p (by simp)
  obtain ⟨c, hc⟩ : ∃ c, p.count = c + 1 := ⟨p.count - 1, by omega⟩
  have hsum : toMultiset (xs ++ p :: ys) =
      p.value ::ₘ (toMultiset xs + (Multiset.replicate c p.value + toMultiset ys)) := by
    rw [toMultiset_append, toMultiset_cons, hc, Multiset.replicate_succ, Multiset.cons_add,
      Multiset.add_cons]
  have herase : (toMultiset (xs ++ p :: ys)).erase p.value =
      toMultiset xs + (Multiset.replicate c p.value + toMultiset ys) := by
    rw [hsum, Multiset.erase_cons_head]
  by_cases h0 : c = 0
  · -- the entry is trimmed: the rest keeps the other values, in another order
    subst h0
    have hperm := swapWithLastAndDrop_perm xs ys p
    have hnd : p.value ∉ (xs ++ ys).map ValueCountPair.value := by
      have hn := hw.nodup
      rw [List.map_append, List.map_cons, List.nodup_middle, List.nodup_cons] at hn
      simpa using hn.1
    have hany : (swapWithLastAndDrop xs.length (xs ++ p :: ys)).any
        (fun q => decide (q.value = p.value)) = false := by
      rw [List.any_eq_false]
      intro q hq
      have hq' := hperm.mem_iff.mp hq
      have hne : q.value ≠ p.value := fun he => hnd (he ▸ List.mem_map_of_mem hq')
      simpa using hne
    refine ⟨swapWithLastAndDrop xs.length (xs ++ p :: ys), ?_, ⟨?_, ?_⟩, ?_⟩
    · simp [decCount, hi, hc, hany]
    · have hn := hw.nodup
      rw [List.map_append, List.map_cons, List.nodup_middle, List.nodup_cons] at hn
      rw [(hperm.map _).nodup_iff, List.map_append]
      exact hn.2
    · intro q hq
      have hq' := hperm.mem_iff.mp hq
      exact hw.positive q (by simp only [List.mem_append, List.mem_cons] at hq' ⊢; tauto)
    · rw [toMultiset_perm hperm, herase]
      simp
  · have hset : (xs ++ p :: ys).set xs.length { p with count := c } =
        xs ++ { p with count := c } :: ys := by
      rw [List.set_append_right _ _ (Nat.le_refl _), Nat.sub_self, List.set_cons_zero]
    refine ⟨xs ++ { p with count := c } :: ys, ?_, ⟨?_, ?_⟩, ?_⟩
    · simp [decCount, hi, hc, h0, hset]
    · simpa using hw.nodup
    · intro q hq
      rcases List.mem_append.mp hq with hq | hq
      · exact hw.positive q (List.mem_append_left _ hq)
      · rcases List.mem_cons.mp hq with rfl | hq
        · simpa using Nat.one_le_iff_ne_zero.mpr h0
        · exact hw.positive q (by simp [hq])
    · rw [herase]
      simp

theorem decCount_cons [DecidableEq κ] {m : ValueCountMap κ} {v : κ} {s : Multiset κ}
    (h : Counts m (v ::ₘ s)) : ∃ m', decCount v m = .ok m' ∧ Counts m' s := by
  obtain ⟨m', he, hc⟩ := decCount_counts h (Multiset.mem_cons_self v s)
  rw [Multiset.erase_cons_head] at hc
  exact ⟨m', he, hc⟩

theorem total_counts {m : ValueCountMap κ} {s : Multiset κ} (h : Counts m s) :
    total m = .ok (Multiset.card s) := by
  obtain ⟨hw, rfl⟩ := h
  induction m with
  | nil => rfl
  | cons p m ih =>
    have hp := hw.positive p List.mem_cons_self
    simp [total, Nat.not_lt.mpr hp, ih hw.tail, Except.map]

theorem incCount_total [DecidableEq κ] {m : ValueCountMap κ} {n : Nat} (v : κ)
    (h : total m = .ok n) : ∃ m', incCount v m = .ok m' ∧ total m' = .ok (n + 1) := by
  induction m generalizing n with
  | nil =>
    obtain rfl : 0 = n := by simpa [total] using h
    exact ⟨[⟨v, 1⟩], rfl, rfl⟩
  | cons p m ih =>
    by_cases hp : p.count < 1
    · simp [total, hp] at h
    · cases ht : total m with
      | error e => simp [total, hp, ht, Except.map] at h
      | ok k =>
        obtain rfl : p.count + k = n := by simpa [total, hp, ht, Except.map] using h
        by_cases hv : p.value = v
        · refine ⟨{ p with count := p.count + 1 } :: m, by simp [incCount, hv, hp], ?_⟩
          simp [total, ht, Except.map]
          omega
        · obtain ⟨m', he, ht'⟩ := ih ht
          refine ⟨p :: m', by simp [incCount, hv, he, Except.map], ?_⟩
          simp [total, hp, ht', Except.map]
          omega

end ValueCountMap
end Cta.ObjectStore

import Cta.ObjectStore.ValueCountMap

/-! Count maps with the 64-bit counters of the stored messages, over whole runs of calls. As long as
no counter overflows they are the counters of `ValueCountMap`. -/
namespace Cta.ObjectStore.CountMaps
variable {κ : Type}

structure CountPair (κ : Type) where
  value : κ
  count : UInt64
  deriving DecidableEq, Repr

abbrev CountMap (κ : Type) := List (CountPair κ)

/-- The exceptions; the name of the class and of the function are part of the message. -/
inductive CountError (κ : Type)
  | noEntry (className : String) (value : κ)
  | wrongCount (function : String) (value : κ) (count : UInt64)
  | unexpectedSize (expectedSize newSize : Nat)
  | stillFound (value : κ) (count : UInt64)
  | emptyMap (function : String)
  deriving DecidableEq, Repr

def CountError.message [ToString κ] : CountError κ → String
  | noEntry className value =>
    "In " ++ className ++ "::decCount: no entry found for value=" ++ toString value
  | wrongCount function value count =>
    "In ValueCountMap::" ++ function ++ " value=" ++ toString value ++ " count=" ++ toString count
  | unexpectedSize expectedSize newSize =>
    "In ValueCountMap::decCount: unexpected size after trimming empty entry. expectedSize=" ++
      toString expectedSize ++ " newSize=" ++ toString newSize
  | stillFound value count =>
    "In ValueCountMap::decCount: still found the value after trimming empty entry. value=" ++
      toString value ++ " count=" ++ toString count
  | emptyMap function => "In ValueCountMap::" ++ function ++ ": empty map"

namespace CountMap
variable [DecidableEq κ]

def find (v : κ) (m : CountMap κ) : Option Nat := m.findIdx? fun p => decide (p.value = v)

def incCount (v : κ) (m : CountMap κ) : CountMap κ × Except (CountError κ) Unit :=
  match m with
  | [] => ([⟨v, 1⟩], .ok ())
  | p :: m =>
    if p.value = v then
      if p.count < 1 then
        (p :: m, .error (.wrongCount "incCount: unexpected count" p.value p.count))
      else ({ p with count := p.count + 1 } :: m, .ok ())
    else (p :: (incCount v m).1, (incCount v m).2)

/-- The entry and the last one, which may be itself, change places. -/
def swapWithLast (i : Nat) (m : CountMap κ) : CountMap κ :=
  match m[i]?, m.getLast? with
  | some counter, some last => (m.set i last).set (m.length - 1) counter
  | _, _ => m

def trim (v : κ) (i : Nat) (m : CountMap κ) : CountMap κ × Except (CountError κ) Unit :=
  let trimmed := (swapWithLast i m).dropLast
  if m.length - 1 ≠ trimmed.length then
    (trimmed, .error (.unexpectedSize (m.length - 1) trimmed.length))
  else
    match trimmed.find? fun p => decide (p.value = v) with
    | some counter => (trimmed, .error (.stillFound counter.value counter.count))
    | none => (trimmed, .ok ())

/-- `className` is `ValueCountMap` or `RetrieveActivityCountMap`. -/
def decCount (className : String) (v : κ) (m : CountMap κ) :
    CountMap κ × Except (CountError κ) Unit :=
  match find v m with
  | none => (m, .error (.noEntry className v))
  | some i =>
    match m[i]? with
    | none => (m, .error (.noEntry className v))
    | some counter =>
      if counter.count < 1 then
        (m, .error (.wrongCount "decCount: entry with wrong count" v counter.count))
      else
        let m' := m.set i { counter with count := counter.count - 1 }
        if counter.count - 1 = 0 then trim v i m' else (m', .ok ())

def clear (_ : CountMap κ) : CountMap κ := []

def total : CountMap κ → Except (CountError κ) UInt64
  | [] => .ok 0
  | p :: m =>
    if p.count < 1 then .error (.wrongCount "total: unexpected count" p.value p.count)
    else (total m).map (p.count + ·)

def maxValue (m : CountMap UInt64) : Except (CountError UInt64) UInt64 :=
  if m = [] then .error (.emptyMap "maxValue")
  else .ok (m.foldl (fun ret p => if ret < p.value then p.value else ret) 0)

def minValue (m : CountMap UInt64) : Except (CountError UInt64) UInt64 :=
  if m = [] then .error (.emptyMap "minValue")
  else .ok (m.foldl (fun ret p => if ret > p.value then p.value else ret) (UInt64.ofNat (2^64 - 1)))

end CountMap

inductive Call (κ : Type)
  | incCount (v : κ)
  | decCount (v : κ)
  | clear
  deriving DecidableEq, Repr

variable [DecidableEq κ]

def call (className : String) (m : CountMap κ) : Call κ → CountMap κ × Except (CountError κ) Unit
  | .incCount v => m.incCount v
  | .decCount v => m.decCount className v
  | .clear => (m.clear, .ok ())

/-- The map after calls on an empty one, those that throw included. -/
def run (className : String) (calls : List (Call κ)) : CountMap κ :=
  calls.foldl (fun m c => (call className m c).1) []

/-- How often each value was incremented and not decremented since it was last cleared. -/
def counted (calls : List (Call κ)) : Multiset κ :=
  calls.foldl (fun s c =>
    match c with
    | .incCount v => v ::ₘ s
    | .decCount v => s.erase v
    | .clear => 0) 0

/-- The list is the multiset: each value once, with its number. -/
structure Exact (m : CountMap κ) (s : Multiset κ) : Prop where
  nodup : (m.map CountPair.value).Nodup
  count : ∀ p ∈ m, 0 < p.count.toNat ∧ p.count.toNat = s.count p.value
  present : ∀ v, v ∈ m.map CountPair.value ↔ v ∈ s

namespace CountMap
open ValueCountMap (Counts)

def stored (m : CountMap κ) : ValueCountMap κ := m.map fun p => ⟨p.value, p.count.toNat⟩

theorem toNat_lt_one {c : UInt64} : c.toNat < 1 ↔ c < 1 := Iff.rfl

theorem toNat_add_one {c : UInt64} (h : c.toNat + 1 < 2^64) : (c + 1).toNat = c.toNat + 1 := by
  rw [UInt64.toNat_add]
  exact Nat.mod_eq_of_lt h

theorem toNat_sub_one {c : UInt64} (h : ¬ c < 1) : (c - 1).toNat = c.toNat - 1 :=
  UInt64.toNat_sub_of_le c 1 (UInt64.not_lt.mp h)

omit [DecidableEq κ] in
theorem values_stored (m : CountMap κ) :
    (stored m).map ValueCountPair.value = m.map CountPair.value := by
  simp [stored]

theorem incCount_stored {v : κ} {m : CountMap κ} {m' : ValueCountMap κ}
    (h : ValueCountMap.incCount v (stored m) = .ok m')
    (hfits : ∀ p ∈ m, p.value = v → p.count.toNat + 1 < 2^64) :
    (incCount v m).2 = .ok () ∧ stored (incCount v m).1 = m' := by
  induction m generalizing m' with
  | nil => exact ⟨rfl, Except.ok.inj h⟩
  | cons p m ih =>
    rw [stored, List.map_cons, ← stored] at h
    unfold ValueCountMap.incCount at h
    unfold incCount
    by_cases hv : p.value = v
    · simp only [hv, if_true, toNat_lt_one] at h ⊢
      split_ifs at h ⊢
      refine ⟨rfl, ?_⟩
      rw [← Except.ok.inj h]
      simp [stored, toNat_add_one (hfits p List.mem_cons_self hv)]
    · simp only [hv, if_false] at h ⊢
      cases hrec : ValueCountMap.incCount v (stored m) with
      | error e => rw [hrec] at h; cases h
      | ok m1 =>
        rw [hrec] at h
        obtain ⟨hok, heq⟩ := ih hrec fun q hq => hfits q (List.mem_cons_of_mem _ hq)
        exact ⟨hok, by rw [← Except.ok.inj h, ← heq]; rfl⟩

theorem find_stored (v : κ) (m : CountMap κ) :
    (stored m).findIdx? (fun p => decide (p.value = v)) = find v m := by
  rw [stored, List.findIdx?_map]
  rfl

omit [DecidableEq κ] in
theorem swapWithLast_concat {xs : CountMap κ} {last : CountPair κ} {i : Nat}
    (hi : i < (xs ++ [last]).length) (counter : CountPair κ) :
    (swapWithLast i ((xs ++ [last]).set i counter)).dropLast = xs.set i last := by
  rw [List.length_append, List.length_singleton] at hi
  by_cases hlt : i < xs.length
  · have hget : (xs.set i counter ++ [last])[i]? = some counter := by
      rw [List.getElem?_append_left (by simpa using hlt), List.getElem?_set_self hlt]
    have hlast : (xs.set i counter ++ [last]).getLast? = some last := List.getLast?_concat
    rw [List.set_append_left i _ hlt, swapWithLast, hget, hlast]
    simp [List.set_append_left i _ (show i < (xs.set i counter).length by simpa using hlt)]
  · obtain rfl : i = xs.length := by omega
    simp [swapWithLast, List.set_eq_of_length_le]

omit [DecidableEq κ] in
theorem stored_trimmed {m : CountMap κ} {i : Nat} (hi : i < m.length) (counter : CountPair κ) :
    stored (swapWithLast i (m.set i counter)).dropLast =
      ValueCountMap.swapWithLastAndDrop i (stored m) := by
  rcases List.eq_nil_or_concat' m with rfl | ⟨xs, last, rfl⟩
  · simp at hi
  · rw [swapWithLast_concat hi]
    rw [List.length_append, List.length_singleton] at hi
    by_cases hlt : i < xs.length
    · simp [ValueCountMap.swapWithLastAndDrop, stored, List.map_set,
        List.set_append_left i _ (show i < (xs.map _).length by simpa using hlt)]
    · obtain rfl : i = xs.length := by omega
      simp [ValueCountMap.swapWithLastAndDrop, stored, List.set_eq_of_length_le]

omit [DecidableEq κ] in
theorem length_trimmed {m : CountMap κ} {i : Nat} (hi : i < m.length) (counter : CountPair κ) :
    (swapWithLast i (m.set i counter)).dropLast.length = m.length - 1 := by
  rcases List.eq_nil_or_concat' m with rfl | ⟨xs, last, rfl⟩
  · simp at hi
  · rw [swapWithLast_concat hi]
    simp

theorem decCount_stored (className : String) {v : κ} {m : CountMap κ} {m' : ValueCountMap κ}
    (h : ValueCountMap.decCount v (stored m) = .ok m') :
    (decCount className v m).2 = .ok () ∧ stored (decCount className v m).1 = m' := by
  unfold ValueCountMap.decCount at h
  rw [find_stored] at h
  cases hfind : find v m with
  | none => simp [hfind] at h
  | some i =>
    cases hi : m[i]? with
    | none => simp [hfind, stored, hi] at h
    | some counter =>
      have hi' : (stored m)[i]? = some ⟨counter.value, counter.count.toNat⟩ := by
        simp [stored, hi]
      have hlength : i < m.length := (List.getElem?_eq_some_iff.mp hi).1
      simp only [hfind, hi', toNat_lt_one] at h
      split_ifs at h with hlt hzero hfound
      · -- the counter goes down
        have hcount : counter.count - 1 ≠ 0 := fun h0 => hzero (by
          rw [← toNat_sub_one hlt, h0]; rfl)
        simp only [decCount, hfind, hi, if_neg hlt, if_neg hcount, true_and]
        rw [← Except.ok.inj h]
        simp [stored, List.map_set, toNat_sub_one hlt]
      · -- the entry is trimmed, and neither cross check fails
        have hcount : counter.count - 1 = 0 := by
          apply UInt64.toNat.inj
          rw [toNat_sub_one hlt]
          simpa using hzero
        have htrimmed := stored_trimmed hlength { counter with count := counter.count - 1 }
        have hsize := length_trimmed hlength { counter with count := counter.count - 1 }
        have hnone : ∀ trimmed : CountMap κ, stored trimmed = ValueCountMap.swapWithLastAndDrop i
            (stored m) → trimmed.find? (fun p => decide (p.value = v)) = none := by
          intro trimmed heq
          refine List.find?_eq_none.mpr fun p hp hv => hfound ?_
          rw [← heq]
          exact List.any_eq_true.mpr ⟨_, List.mem_map_of_mem hp, hv⟩
        simp only [decCount, hfind, hi, if_neg hlt, if_pos hcount, trim, List.length_set, hsize,
          ne_eq, not_true_eq_false, if_false, hnone _ htrimmed, true_and]
        rw [← Except.ok.inj h, htrimmed]

theorem decCount_absent (className : String) {v : κ} {m : CountMap κ}
    (h : v ∉ m.map CountPair.value) :
    decCount className v m = (m, .error (.noEntry className v)) := by
  have hfind : find v m = none := by
    rw [find, List.findIdx?_eq_none_iff]
    intro p hp
    simpa using fun hv : p.value = v => h (hv ▸ List.mem_map_of_mem hp)
  rw [decCount, hfind]

omit [DecidableEq κ] in
theorem total_stored {m : CountMap κ} {n : Nat} (h : ValueCountMap.total (stored m) = .ok n) :
    total m = .ok (UInt64.ofNat n) := by
  induction m generalizing n with
  | nil =>
    rw [← Except.ok.inj h]
    rfl
  | cons p m ih =>
    rw [stored, List.map_cons, ← stored] at h
    simp only [ValueCountMap.total, toNat_lt_one] at h
    split_ifs at h with hlt
    cases hrec : ValueCountMap.total (stored m) with
    | error e => rw [hrec] at h; cases h
    | ok n1 =>
      rw [hrec] at h
      rw [total, if_neg hlt, ih hrec, ← Except.ok.inj h]
      simp [Except.map]

theorem count_toMultiset {m : ValueCountMap κ} (h : ValueCountMap.WellFormed m)
    {p : ValueCountPair κ} (hp : p ∈ m) :
    (ValueCountMap.toMultiset m).count p.value = p.count := by
  induction m with
  | nil => simp at hp
  | cons q m ih =>
    rw [ValueCountMap.toMultiset_cons, Multiset.count_add, Multiset.count_replicate]
    have hq : q.value ∉ m.map ValueCountPair.value := (List.nodup_cons.mp h.nodup).1
    rcases List.mem_cons.mp hp with rfl | hp
    · have hnone : p.value ∉ ValueCountMap.toMultiset m := fun hin =>
        hq ((h.tail.mem_toMultiset _).mp hin)
      rw [if_pos rfl, Multiset.count_eq_zero_of_notMem hnone, Nat.add_zero]
    · have hne : q.value ≠ p.value := fun heq => hq (heq ▸ List.mem_map_of_mem hp)
      rw [if_neg hne, ih h.tail hp, Nat.zero_add]

theorem Counts.exact {m : CountMap κ} {s : Multiset κ} (h : Counts (stored m) s) : Exact m s := by
  obtain ⟨hwell, rfl⟩ := h
  have hvalues := values_stored m
  refine ⟨hvalues ▸ hwell.nodup, fun p hp => ?_, fun v => ?_⟩
  · have hp' : (⟨p.value, p.count.toNat⟩ : ValueCountPair κ) ∈ stored m :=
      List.mem_map_of_mem (f := fun p : CountPair κ =>
        (⟨p.value, p.count.toNat⟩ : ValueCountPair κ)) hp
    exact ⟨hwell.positive _ hp', (count_toMultiset hwell hp').symm⟩
  · rw [← hvalues, hwell.mem_toMultiset]

/-- What is left by a search for the best entry is one of them, unless all are worse than the
start. -/
theorem foldl_best (better : UInt64 → UInt64 → Prop) [DecidableRel better]
    (hasymm : ∀ a b, better a b → ¬ better b a)
    (htrans : ∀ a b c, ¬ better a b → ¬ better b c → ¬ better a c) (m : CountMap UInt64)
    (start : UInt64) :
    let best := m.foldl (fun ret p => if better p.value ret then p.value else ret) start
    (best = start ∨ best ∈ m.map CountPair.value) ∧ ¬ better start best ∧
      ∀ w ∈ m.map CountPair.value, ¬ better w best := by
  induction m generalizing start with
  | nil => exact ⟨.inl rfl, fun h => hasymm _ _ h h, by simp⟩
  | cons p m ih =>
    obtain ⟨hfrom, hstart, hrest⟩ := ih (if better p.value start then p.value else start)
    rw [List.foldl_cons, List.map_cons]
    refine ⟨?_, ?_, ?_⟩
    · rcases hfrom with hfrom | hfrom
      · split_ifs at hfrom with hbetter
        · exact .inr (List.mem_cons.mpr (.inl (by simpa [hbetter] using hfrom)))
        · exact .inl (by simpa [hbetter] using hfrom)
      · exact .inr (List.mem_cons_of_mem _ hfrom)
    · split_ifs at hstart ⊢ with hbetter
      · exact htrans _ _ _ (hasymm _ _ hbetter) hstart
      · exact hstart
    · intro w hw
      rcases List.mem_cons.mp hw with rfl | hw
      · split_ifs at hstart ⊢ with hbetter
        · exact hstart
        · exact htrans _ _ _ hbetter hstart
      · exact hrest w hw

theorem mem_of_extreme {m : CountMap UInt64} (hne : m ≠ []) {start v : UInt64}
    (hextreme : ∀ w ∈ m.map CountPair.value, v = start → w = start)
    (h : v = start ∨ v ∈ m.map CountPair.value) : v ∈ m.map CountPair.value := by
  rcases h with hstart | hmem
  · obtain ⟨p, rest, rfl⟩ := List.exists_cons_of_ne_nil hne
    have hp := hextreme p.value (by simp) hstart
    exact List.mem_cons.mpr (.inl (hstart.trans hp.symm))
  · exact hmem

theorem maxValue_spec {m : CountMap UInt64} (hne : m ≠ []) :
    ∃ v ∈ m.map CountPair.value, maxValue m = .ok v ∧ ∀ w ∈ m.map CountPair.value, w ≤ v := by
  obtain ⟨hfrom, -, hall⟩ := foldl_best (fun w ret => ret < w)
    (fun a b h => UInt64.not_lt.mpr (UInt64.le_of_lt h))
    (fun a b c h h' => UInt64.not_lt.mpr (UInt64.le_trans (UInt64.not_lt.mp h)
      (UInt64.not_lt.mp h'))) m 0
  refine ⟨_, mem_of_extreme hne ?_ hfrom, if_neg hne, fun w hw => UInt64.not_lt.mp (hall w hw)⟩
  intro w hw hzero
  have hle := UInt64.not_lt.mp (hall w hw)
  rw [hzero] at hle
  exact UInt64.le_antisymm hle UInt64.zero_le

theorem minValue_spec {m : CountMap UInt64} (hne : m ≠ []) :
    ∃ v ∈ m.map CountPair.value, minValue m = .ok v ∧ ∀ w ∈ m.map CountPair.value, v ≤ w := by
  obtain ⟨hfrom, -, hall⟩ := foldl_best (fun w ret => ret > w)
    (fun a b h => UInt64.not_lt.mpr (UInt64.le_of_lt h))
    (fun a b c h h' => UInt64.not_lt.mpr (UInt64.le_trans (UInt64.not_lt.mp h')
      (UInt64.not_lt.mp h))) m (UInt64.ofNat (2^64 - 1))
  refine ⟨_, mem_of_extreme hne ?_ hfrom, if_neg hne, fun w hw => UInt64.not_lt.mp (hall w hw)⟩
  intro w hw hmax
  have hle := UInt64.not_lt.mp (hall w hw)
  rw [hmax] at hle
  refine UInt64.le_antisymm ?_ hle
  have := w.toNat_lt
  rw [UInt64.le_iff_toNat_le, UInt64.toNat_ofNat']
  omega

end CountMap

open ValueCountMap (Counts)

def Fits (s : Multiset κ) : Prop := ∀ v, s.count v < 2^64

theorem incCount_counts {m : CountMap κ} {s : Multiset κ} {v : κ}
    (h : Counts (CountMap.stored m) s) (hfits : s.count v + 1 < 2^64) :
    (m.incCount v).2 = .ok () ∧ Counts (CountMap.stored (m.incCount v).1) (v ::ₘ s) := by
  obtain ⟨m', hinc, hcounts⟩ := ValueCountMap.incCount_counts v h
  obtain ⟨hok, rfl⟩ := CountMap.incCount_stored hinc fun p hp hv => by
    rw [(CountMap.Counts.exact h).count p hp |>.2, hv]
    exact hfits
  exact ⟨hok, hcounts⟩

theorem decCount_counts (className : String) {m : CountMap κ} {s : Multiset κ} {v : κ}
    (h : Counts (CountMap.stored m) s) (hv : v ∈ s) :
    (m.decCount className v).2 = .ok () ∧
      Counts (CountMap.stored (m.decCount className v).1) (s.erase v) := by
  obtain ⟨m', hdec, hcounts⟩ := ValueCountMap.decCount_counts h hv
  obtain ⟨hok, rfl⟩ := CountMap.decCount_stored className hdec
  exact ⟨hok, hcounts⟩

theorem decCount_refused (className : String) {m : CountMap κ} {s : Multiset κ} {v : κ}
    (h : Counts (CountMap.stored m) s) (hv : v ∉ s) :
    m.decCount className v = (m, .error (.noEntry className v)) :=
  CountMap.decCount_absent className fun hin =>
    hv (((CountMap.Counts.exact h).present v).mp hin)

theorem counted_concat (calls : List (Call κ)) (c : Call κ) :
    counted (calls ++ [c]) =
      match c with
      | .incCount v => v ::ₘ counted calls
      | .decCount v => (counted calls).erase v
      | .clear => 0 := by
  rw [counted, List.foldl_concat]
  rfl

theorem call_counts (className : String) {calls : List (Call κ)} {c : Call κ}
    (h : Counts (CountMap.stored (run className calls)) (counted calls))
    (hfits : Fits (counted (calls ++ [c]))) :
    Counts (CountMap.stored (run className (calls ++ [c]))) (counted (calls ++ [c])) := by
  have hrun : run className (calls ++ [c]) = (call className (run className calls) c).1 :=
    List.foldl_concat _ _ _ _
  rw [hrun]
  cases c with
  | incCount v =>
    have hv := hfits v
    rw [counted_concat] at hv ⊢
    rw [Multiset.count_cons_self] at hv
    exact (incCount_counts h hv).2
  | decCount v =>
    rw [counted_concat]
    by_cases hv : v ∈ counted calls
    · exact (decCount_counts className h hv).2
    · simp only [call, decCount_refused className h hv, Multiset.erase_of_notMem hv]
      exact h
  | clear =>
    rw [counted_concat]
    exact ValueCountMap.counts_nil

theorem run_counts (className : String) {calls : List (Call κ)}
    (hfits : ∀ before, before <+: calls → Fits (counted before)) :
    Counts (CountMap.stored (run className calls)) (counted calls) := by
  induction calls using List.reverseRecOn with
  | nil => exact ValueCountMap.counts_nil
  | append_singleton calls c ih =>
    refine call_counts className (ih fun before hbefore => ?_) (hfits _ List.prefix_rfl)
    exact hfits before (hbefore.trans (List.prefix_append calls [c]))

theorem card_counted_le (calls : List (Call κ)) : Multiset.card (counted calls) ≤ calls.length := by
  induction calls using List.reverseRecOn with
  | nil => exact Nat.le_refl 0
  | append_singleton calls c ih =>
    rw [counted_concat, List.length_append, List.length_singleton]
    cases c with
    | incCount v => simpa using ih
    | decCount v => exact (Multiset.card_erase_le).trans (Nat.le_succ_of_le ih)
    | clear => exact Nat.zero_le _

theorem fits_of_length {calls : List (Call κ)} (h : calls.length < 2^64) :
    ∀ before, before <+: calls → Fits (counted before) := by
  intro before hbefore v
  calc (counted before).count v ≤ Multiset.card (counted before) := Multiset.count_le_card v _
    _ ≤ before.length := card_counted_le before
    _ ≤ calls.length := hbefore.length_le
    _ < 2^64 := h

/-- What the functions that read a map, or count a value down, make of it. -/
structure Answers (className : String) (m : CountMap κ) (s : Multiset κ) : Prop where
  exact : Exact m s
  incCount : ∀ v, s.count v + 1 < 2^64 → (m.incCount v).2 = .ok ()
  decCount : ∀ v, v ∈ s → (m.decCount className v).2 = .ok ()
  refused : ∀ v, v ∉ s → m.decCount className v = (m, .error (.noEntry className v))
  total : m.total = .ok (UInt64.ofNat (Multiset.card s))

structure Extremes (m : CountMap UInt64) (s : Multiset UInt64) : Prop where
  max : s ≠ 0 → ∃ v ∈ s, m.maxValue = .ok v ∧ ∀ w ∈ s, w ≤ v
  min : s ≠ 0 → ∃ v ∈ s, m.minValue = .ok v ∧ ∀ w ∈ s, v ≤ w
  empty : s = 0 → m.maxValue = .error (.emptyMap "maxValue") ∧
    m.minValue = .error (.emptyMap "minValue")

theorem Exact.eq_nil_iff {m : CountMap κ} {s : Multiset κ} (h : Exact m s) : m = [] ↔ s = 0 := by
  rw [Multiset.eq_zero_iff_forall_notMem, ← List.map_eq_nil_iff (f := CountPair.value),
    List.eq_nil_iff_forall_not_mem]
  exact forall_congr' fun v => not_congr (h.present v)

theorem answers_of_counts (className : String) {m : CountMap κ} {s : Multiset κ}
    (h : Counts (CountMap.stored m) s) : Answers className m s :=
  ⟨CountMap.Counts.exact h, fun _ hfits => (incCount_counts h hfits).1,
    fun _ hv => (decCount_counts className h hv).1, fun _ hv => decCount_refused className h hv,
    CountMap.total_stored (ValueCountMap.total_counts h)⟩

theorem Exact.extremes {m : CountMap UInt64} {s : Multiset UInt64} (h : Exact m s) :
    Extremes m s := by
  have hiff := h.eq_nil_iff
  refine ⟨fun hne => ?_, fun hne => ?_, fun h0 => ?_⟩
  · obtain ⟨v, hv, hmax, hall⟩ := CountMap.maxValue_spec (mt hiff.mp hne)
    exact ⟨v, (h.present v).mp hv, hmax, fun w hw => hall w ((h.present w).mpr hw)⟩
  · obtain ⟨v, hv, hmin, hall⟩ := CountMap.minValue_spec (mt hiff.mp hne)
    exact ⟨v, (h.present v).mp hv, hmin, fun w hw => hall w ((h.present w).mpr hw)⟩
  · obtain rfl := hiff.mpr h0
    exact ⟨rfl, rfl⟩

/-- The count maps are multisets, in every run in which no counter overflows. -/
theorem count_maps_exact :
    (∀ (κ : Type) [DecidableEq κ] (className : String) (calls : List (Call κ)),
      (∀ before, before <+: calls → Fits (counted before)) →
        Answers className (run className calls) (counted calls)) ∧
      ∀ (className : String) (calls : List (Call UInt64)),
        (∀ before, before <+: calls → Fits (counted before)) →
          Extremes (run className calls) (counted calls) :=
  ⟨fun _ _ className _ hfits => answers_of_counts className (run_counts className hfits),
    fun className _ hfits =>
      (answers_of_counts className (run_counts className hfits)).exact.extremes⟩

theorem count_maps_exact_trimmed :
    Answers "RetrieveActivityCountMap"
        (run "RetrieveActivityCountMap" [.incCount "a", .incCount "b", .decCount "a"]) {"b"} ∧
      Extremes (run "ValueCountMap" [.incCount 3, .decCount 5, .incCount 7]) {7, 3} :=
  ⟨count_maps_exact.1 String _ [.incCount "a", .incCount "b", .decCount "a"]
      (fits_of_length (by decide)),
    count_maps_exact.2 _ [.incCount 3, .decCount 5, .incCount 7] (fits_of_length (by decide))⟩

theorem run_replicate_incCount (className : String) (v : κ) (n : Nat) (hn : n < 2^64) :
    run className (List.replicate (n + 1) (.incCount v)) = [⟨v, UInt64.ofNat (n + 1)⟩] := by
  induction n with
  | zero => rfl
  | succ n ih =>
    have hpos : ¬ UInt64.ofNat (n + 1) < 1 := by
      rw [UInt64.lt_iff_toNat_lt, UInt64.toNat_ofNat', Nat.mod_eq_of_lt (by omega)]
      exact Nat.not_lt.mpr (Nat.le_add_left 1 n)
    rw [List.replicate_succ', run, List.foldl_concat]
    change (call className (run className _) _).1 = _
    rw [ih (by omega)]
    simp only [call, CountMap.incCount, if_true, if_neg hpos]
    rw [UInt64.ofNat_add (n + 1) 1]
    rfl

theorem counter_overflows :
    ¬ Exact (run "ValueCountMap" (List.replicate (2^64) (.incCount (0 : UInt64))))
      (counted (List.replicate (2^64) (.incCount 0))) := by
  have hrun := run_replicate_incCount "ValueCountMap" (0 : UInt64) (2^64 - 1) (by omega)
  rw [Nat.sub_add_cancel (by omega)] at hrun
  intro h
  have hpos := (h.count ⟨0, UInt64.ofNat (2^64)⟩ (by rw [hrun]; exact List.mem_singleton_self _)).1
  exact absurd hpos (by decide)

end Cta.ObjectStore.CountMaps

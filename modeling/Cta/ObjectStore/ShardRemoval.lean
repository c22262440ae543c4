import Cta.Lib.Sequence
import Cta.ObjectStore.Base
import Mathlib.Algebra.BigOperators.Group.List.Basic
import Mathlib.Data.Option.Basic
import Mathlib.Data.UInt
import Mathlib.Tactic.Abel

/-! Removal of jobs from a shard by request address, the same for archive and retrieve
shards up to the description that is returned for a removed job. -/
namespace Cta.ObjectStore.ShardRemoval
open Cta.Lib.Sequence

structure RemovalResult (I : Type) where
  jobsRemoved : Nat := 0
  jobsAfter : Nat := 0
  bytesRemoved : UInt64 := 0
  bytesAfter : UInt64 := 0
  removedJobs : List I := []
  deriving DecidableEq, Repr

structure JobFields (J I : Type) where
  address : J → Address
  size : J → UInt64
  toInfo : J → I

structure Removal (J I : Type) where
  jobs : List J
  jobsTotalSize : UInt64
  result : RemovalResult I
  totalSize : UInt64

section
variable {J I : Type} (f : JobFields J I)

def Removal.take (r : Removal J I) (i : Nat) (j : J) : Removal J I where
  jobs := removeBySwaps i r.jobs
  jobsTotalSize := r.jobsTotalSize - f.size j
  result :=
    { r.result with
      removedJobs := r.result.removedJobs ++ [f.toInfo j]
      bytesRemoved := r.result.bytesRemoved + f.size j
      jobsRemoved := r.result.jobsRemoved + 1 }
  totalSize := r.totalSize - f.size j

def Removal.takeAll (a : Address) : Nat → Removal J I → Removal J I
  | 0, r => r
  | n+1, r =>
    match r.jobs.findIdx? (fun p => decide (f.address p = a)) with
    | none => r
    | some i =>
      match r.jobs[i]? with
      | none => r
      | some j => Removal.takeAll a n (r.take f i j)

def removeJobs (jobs : List J) (jobsTotalSize : UInt64) (jobsToRemove : List Address) :
    Removal J I :=
  let r := jobsToRemove.foldl (fun r a => r.takeAll f a r.jobs.length)
    (⟨jobs, jobsTotalSize, {}, jobsTotalSize⟩ : Removal J I)
  { r with result := { r.result with bytesAfter := r.totalSize, jobsAfter := r.jobs.length } }

def bytes (l : List J) : UInt64 := (l.map f.size).sum

def keptOf (jobs : List J) (as : List Address) : List J :=
  jobs.filter fun p => decide (f.address p ∉ as)

def goneOf (jobs : List J) (as : List Address) : List J :=
  jobs.filter fun p => decide (f.address p ∈ as)

variable {f}

theorem bytes_append (l m : List J) : bytes f (l ++ m) = bytes f l + bytes f m := by
  simp [bytes]

theorem bytes_perm {l m : List J} (h : l.Perm m) : bytes f l = bytes f m := (h.map _).sum_eq

theorem keptOf_goneOf_perm (jobs : List J) (as : List Address) :
    (goneOf f jobs as ++ keptOf f jobs as).Perm jobs := by
  simpa [goneOf, keptOf] using List.filter_append_perm (fun p => decide (f.address p ∈ as)) jobs

/-- What a removal state has taken out of the jobs it started from. -/
structure Removal.Describes (f : JobFields J I) (r : Removal J I) (total : UInt64)
    (gone : List J) : Prop where
  removed : r.result.removedJobs = gone.map f.toInfo
  count : r.result.jobsRemoved = gone.length
  bytesRemoved : r.result.bytesRemoved = bytes f gone
  jobsTotal : r.jobsTotalSize = total - bytes f gone
  after : r.totalSize = total - bytes f gone

theorem Removal.Describes.take {r : Removal J I} {total : UInt64} {gone : List J}
    (h : r.Describes f total gone) (i : Nat) (j : J) :
    (r.take f i j).Describes f total (gone ++ [j]) where
  removed := by simp [Removal.take, h.removed]
  count := by simp [Removal.take, h.count]
  bytesRemoved := by simp [Removal.take, h.bytesRemoved, bytes]
  jobsTotal := by
    simp only [Removal.take, h.jobsTotal, bytes_append]
    simp [bytes]; abel
  after := by
    simp only [Removal.take, h.after, bytes_append]
    simp [bytes]; abel

theorem Removal.takeAll_describes (a : Address) (n : Nat) {r : Removal J I} {total : UInt64}
    {gone : List J} (h : r.Describes f total gone) (hn : r.jobs.length ≤ n) :
    (r.takeAll f a n).jobs = r.jobs.filter (fun p => decide (f.address p ≠ a)) ∧
      (r.takeAll f a n).Describes f total
        (gone ++ r.jobs.filter (fun p => decide (f.address p = a))) := by
  induction n generalizing r gone with
  | zero =>
    have hnil : r.jobs = [] := List.length_eq_zero_iff.mp (by omega)
    simpa [Removal.takeAll, hnil] using h
  | succ n ih =>
    unfold Removal.takeAll
    cases hf : r.jobs.findIdx? (fun p => decide (f.address p = a)) with
    | none =>
      have hno := List.findIdx?_eq_none_iff.mp hf
      have h1 : r.jobs.filter (fun p => decide (f.address p ≠ a)) = r.jobs :=
        List.filter_eq_self.mpr fun p hp => by simpa using hno p hp
      have h2 : r.jobs.filter (fun p => decide (f.address p = a)) = [] :=
        List.filter_eq_nil_iff.mpr fun p hp => by simpa using hno p hp
      exact ⟨h1.symm, by rw [h2]; simpa using h⟩
    | some i =>
      obtain ⟨hlt, hi, hbefore⟩ := List.findIdx?_eq_some_iff_getElem.mp hf
      obtain ⟨xs, j, ys, hsplit, hxs, hj⟩ := exists_split_of_lt hlt
      have hja : f.address j = a := by
        have hij : r.jobs[i] = j := Option.some.inj ((List.getElem?_eq_getElem hlt).symm.trans hj)
        simpa [hij] using hi
      have hxa : ∀ p ∈ xs, f.address p ≠ a := by
        intro p hp
        obtain ⟨k, hk, rfl⟩ := List.getElem_of_mem hp
        have hb := hbefore k (by omega)
        simpa [hsplit, List.getElem_append_left hk] using hb
      have hf1 : xs.filter (fun p => decide (f.address p = a)) = [] :=
        List.filter_eq_nil_iff.mpr fun p hp => by simpa using hxa p hp
      have hrest : (r.take f i j).jobs = xs ++ ys := by
        rw [← hxs]
        simp only [Removal.take, hsplit]
        exact removeBySwaps_append xs ys j
      obtain ⟨h1, h2⟩ := ih (h.take i j) (by
        rw [hrest]
        have := congrArg List.length hsplit
        simp at this ⊢
        omega)
      simp only [hj]
      rw [hrest] at h1 h2
      constructor
      · rw [h1, hsplit]
        simp [List.filter_append, hja]
      · rw [hsplit]
        simpa [List.filter_append, List.filter_cons, hja, hf1] using h2

/-- The outcome of a removal in terms of the jobs it is made from. -/
structure Outcome (f : JobFields J I) (jobs : List J) (total : UInt64) (as : List Address)
    (r : Removal J I) : Prop where
  left : r.jobs = keptOf f jobs as
  jobsTotal : r.jobsTotalSize = total - bytes f (goneOf f jobs as)
  removedJobs : ∃ out : List J,
    r.result.removedJobs = out.map f.toInfo ∧ out.Perm (goneOf f jobs as)
  jobsRemoved : r.result.jobsRemoved = (goneOf f jobs as).length
  bytesRemoved : r.result.bytesRemoved = bytes f (goneOf f jobs as)
  jobsAfter : r.result.jobsAfter = (keptOf f jobs as).length
  bytesAfter : r.result.bytesAfter = total - bytes f (goneOf f jobs as)

theorem removeJobs_outcome (jobs : List J) (total : UInt64) (as : List Address) :
    Outcome f jobs total as (removeJobs f jobs total as) := by
  have main : ∀ (as done : List Address) (r : Removal J I) (out : List J),
      r.jobs = keptOf f jobs done → r.Describes f total out → out.Perm (goneOf f jobs done) →
      ∃ out', (as.foldl (fun r a => r.takeAll f a r.jobs.length) r).jobs
          = keptOf f jobs (done ++ as) ∧
        (as.foldl (fun r a => r.takeAll f a r.jobs.length) r).Describes f total out' ∧
        out'.Perm (goneOf f jobs (done ++ as)) := by
    intro as
    induction as with
    | nil => intro done r out hk hd hp; exact ⟨out, by simpa using hk, hd, by simpa using hp⟩
    | cons a as ih =>
      intro done r out hk hd hp
      obtain ⟨h1, h2⟩ := Removal.takeAll_describes a _ hd (Nat.le_refl _)
      rw [hk] at h1 h2
      have hk' : (keptOf f jobs done).filter (fun p => decide (f.address p ≠ a)) =
          keptOf f jobs (done ++ [a]) := by
        simp only [keptOf, List.filter_filter]
        exact List.filter_congr fun p _ => by simp [and_comm]
      have hg' : (out ++ (keptOf f jobs done).filter fun p => decide (f.address p = a)).Perm
          (goneOf f jobs (done ++ [a])) := by
        -- jobs of a that are still there, plus those gone before
        refine (hp.append_right _).trans ?_
        have hsplit := List.filter_append_perm (fun p => decide (f.address p ∈ done))
          (goneOf f jobs (done ++ [a]))
        refine List.Perm.trans (List.Perm.of_eq ?_) hsplit
        simp only [goneOf, keptOf, List.filter_filter]
        congr 1
        · exact List.filter_congr fun p _ => by by_cases hd : f.address p ∈ done <;> simp [hd]
        · exact List.filter_congr fun p _ => by by_cases hd : f.address p ∈ done <;> simp [hd]
      obtain ⟨out', h3, h4, h5⟩ := ih (done ++ [a]) _ _ (h1.trans hk') h2 hg'
      refine ⟨out', ?_, ?_, ?_⟩
      · simpa [hk] using h3
      · simpa [hk] using h4
      · simpa using h5
  obtain ⟨out, h1, h2, h3⟩ := main as [] ⟨jobs, total, {}, total⟩ []
    (by simp [keptOf]) ⟨rfl, rfl, rfl, by simp [bytes], by simp [bytes]⟩ (by simp [goneOf])
  rw [List.nil_append] at h1 h3
  refine ⟨h1, ?_, ?_, ?_, ?_, ?_, ?_⟩
  · exact h2.jobsTotal.trans (by rw [bytes_perm h3])
  · exact ⟨out, h2.removed, h3⟩
  · exact h2.count.trans h3.length_eq
  · exact h2.bytesRemoved.trans (bytes_perm h3)
  · exact congrArg List.length h1
  · exact h2.after.trans (by rw [bytes_perm h3])

/-- Addresses still to remove once the jobs of a shard are taken out. -/
def stillToRemove (f : JobFields J I) (las : List Address) (jobs : List J) : List Address :=
  las.filter fun a => decide (a ∉ (goneOf f jobs las).map f.address)

theorem filter_removedJobs (infoAddress : I → Address) {las : List Address} {jobs out : List J}
    (hinfo : ∀ j, infoAddress (f.toInfo j) = f.address j) (hperm : out.Perm (goneOf f jobs las)) :
    (las.filter fun a => !((out.map f.toInfo).any fun j => decide (infoAddress j = a))) =
      stillToRemove f las jobs := by
  refine List.filter_congr fun a _ => ?_
  rw [Bool.eq_iff_iff]
  simp only [List.any_map, Bool.not_eq_true', List.any_eq_false, Function.comp_apply, hinfo,
    decide_eq_true_eq, List.mem_map, not_exists, not_and]
  exact forall_congr' fun j => by rw [hperm.mem_iff]

def Share (f : JobFields J I) (as : List Address) (s t : List J) : Prop :=
  ∃ j ∈ s, ∃ k ∈ t, f.address j = f.address k ∧ f.address j ∈ as

instance Share.decidable (f : JobFields J I) (as : List Address) (s t : List J) :
    Decidable (Share f as s t) :=
  inferInstanceAs (Decidable (∃ j ∈ s, ∃ k ∈ t, f.address j = f.address k ∧ f.address j ∈ as))

def InOneShard (f : JobFields J I) (as : List Address) (parts : ShardAddress → Option (List J))
    (bs : List ShardAddress) : Prop :=
  ∀ a ∈ bs, ∀ b ∈ bs, ∀ s ∈ parts a, ∀ t ∈ parts b, Share f as s t → a = b

instance InOneShard.decidable (f : JobFields J I) (as : List Address)
    (parts : ShardAddress → Option (List J)) (bs : List ShardAddress) :
    Decidable (InOneShard f as parts bs) :=
  inferInstanceAs (Decidable (∀ a ∈ bs, ∀ b ∈ bs, ∀ s ∈ parts a, ∀ t ∈ parts b,
    Share f as s t → a = b))

/-- Where a removal stands: the shards already visited hold no job to remove, and what
the others hold of them is still on the list. -/
structure Removing (f : JobFields J I) (as las : List Address)
    (parts : ShardAddress → Option (List J)) (visited ahead : List ShardAddress) : Prop where
  subset : las ⊆ as
  cleared : ∀ a ∈ visited, ∀ s ∈ parts a, ∀ j ∈ s, f.address j ∉ as
  listed : ∀ a ∈ ahead, ∀ s ∈ parts a, ∀ j ∈ s, f.address j ∈ as → f.address j ∈ las
  once : InOneShard f as parts ahead

theorem Removing.start {as : List Address} {parts : ShardAddress → Option (List J)}
    {bs : List ShardAddress} (h : InOneShard f as parts bs) : Removing f as as parts [] bs :=
  ⟨List.Subset.refl _, by simp, fun _ _ _ _ _ _ hj => hj, h⟩

section
variable {as las : List Address} {parts parts' : ShardAddress → Option (List J)}
  {visited ahead : List ShardAddress} {a : ShardAddress} {s : List J}

theorem Removing.step (h : Removing f as las parts visited (a :: ahead))
    (hn : (visited ++ a :: ahead).Nodup) (hs : parts a = some s) {mid : List ShardAddress}
    (hmid : mid.Sublist [a]) (hother : ∀ b, b ≠ a → parts' b = parts b)
    (ha : ∀ t ∈ parts' a, t = keptOf f s las) :
    Removing f as (stillToRemove f las s) parts' (visited ++ mid) ahead := by
  have hva : ∀ b ∈ visited ++ ahead, b ≠ a := by
    rw [List.nodup_middle, List.nodup_cons] at hn
    intro b hb he
    exact hn.1 (he ▸ hb)
  have hahead : ∀ b ∈ ahead, parts' b = parts b := fun b hb => hother b (hva b (by simp [hb]))
  refine ⟨fun x hx => h.subset (List.mem_of_mem_filter hx), ?_, ?_, ?_⟩
  · intro b hb t ht j hj
    cases List.mem_append.mp hb with
    | inl hb =>
      rw [hother b (hva b (by simp [hb]))] at ht
      exact h.cleared b hb t ht j hj
    | inr hb =>
      obtain rfl : b = a := by simpa using hmid.subset hb
      rw [ha t ht] at hj
      obtain ⟨hj, hnot⟩ := List.mem_filter.mp hj
      intro hjas
      exact of_decide_eq_true hnot (h.listed b (by simp) s hs j hj hjas)
  · intro b hb t ht j hj hjas
    rw [hahead b hb] at ht
    refine List.mem_filter.mpr ⟨h.listed b (by simp [hb]) t ht j hj hjas, decide_eq_true ?_⟩
    intro hgone
    obtain ⟨k, hk, hkj⟩ := List.mem_map.mp hgone
    have hks : k ∈ s := List.mem_of_mem_filter hk
    exact hva b (by simp [hb])
      (h.once b (by simp [hb]) a (by simp) t ht s hs ⟨j, hj, k, hks, hkj.symm, hjas⟩)
  · intro b hb c hc t ht u hu
    rw [hahead b hb] at ht
    rw [hahead c hc] at hu
    exact h.once b (by simp [hb]) c (by simp [hc]) t ht u hu

theorem Removing.finished (h : Removing f as las parts visited ahead)
    (hend : las = [] ∨ ahead = []) (ha : a ∈ visited ++ ahead) (hs : s ∈ parts a) {j : J}
    (hj : j ∈ s) : f.address j ∉ as := by
  cases List.mem_append.mp ha with
  | inl ha => exact h.cleared a ha s hs j hj
  | inr ha =>
    cases hend with
    | inl hlas =>
      intro hjas
      simpa [hlas] using h.listed a ha s hs j hj hjas
    | inr hahead => simp [hahead] at ha

end

section
variable {ε W : Type} {as las : List Address} {w : W} {visited ahead : List ShardAddress}
  {fuel : Nat}

/-- What a round does to the shard that it visits, which stays or goes, and to the others. -/
structure Round (f : JobFields J I) (addresses : W → List ShardAddress)
    (parts : W → ShardAddress → Option (List J)) (visited ahead : List ShardAddress)
    (a : ShardAddress) (las : List Address) (s : List J) (mid : List ShardAddress) (w w' : W) :
    Prop where
  visits : parts w a = some s
  stays : mid.Sublist [a]
  pointers : addresses w' = visited ++ mid ++ ahead
  others : ∀ b, b ≠ a → parts w' b = parts w b
  left : ∀ t ∈ parts w' a, t = keptOf f s las

theorem Removing.loop (addresses : W → List ShardAddress)
    (parts : W → ShardAddress → Option (List J)) (Holds : W → Prop)
    {loop : Nat → List Address → Nat → EStateM ε W Unit}
    {round : List Address → Nat → EStateM ε W (List Address × Nat)}
    (hends : ∀ fuel las i w, las = [] ∨ (addresses w).length ≤ i → loop fuel las i w = .ok () w)
    (hgoes : ∀ fuel las i w las' i' w', ¬(las = [] ∨ (addresses w).length ≤ i) →
      round las i w = .ok (las', i') w' → loop (fuel + 1) las i w = loop fuel las' i' w')
    (hnodup : ∀ w, Holds w → (addresses w).Nodup)
    (hround : ∀ w visited a ahead las, Holds w → addresses w = visited ++ a :: ahead → las ⊆ as →
      ∃ s mid w', Round f addresses parts visited ahead a las s mid w w' ∧ Holds w' ∧
        round las visited.length w = .ok (stillToRemove f las s, (visited ++ mid).length) w')
    (hw : Holds w) (haddr : addresses w = visited ++ ahead)
    (hr : Removing f as las (parts w) visited ahead) (hfuel : ahead.length ≤ fuel) :
    ∃ w', loop fuel las visited.length w = .ok () w' ∧ Holds w' ∧
      ∀ a ∈ addresses w', ∀ s ∈ parts w' a, ∀ j ∈ s, f.address j ∉ as := by
  induction ahead generalizing w visited las fuel with
  | nil =>
    have hlen : (addresses w).length ≤ visited.length := by rw [haddr, List.append_nil]
    refine ⟨w, hends _ _ _ _ (.inr hlen), hw, fun a ha s hs j hj => ?_⟩
    exact hr.finished (.inr rfl) (haddr ▸ ha) hs hj
  | cons a ahead ih =>
    by_cases hlas : las = []
    · refine ⟨w, hends _ _ _ _ (.inl hlas), hw, fun a ha s hs j hj => ?_⟩
      exact hr.finished (.inl hlas) (haddr ▸ ha) hs hj
    · cases fuel with
      | zero => simp at hfuel
      | succ fuel =>
        obtain ⟨s, mid, w1, hround1, hw1, hrun1⟩ := hround w visited a ahead las hw haddr hr.subset
        have hr1 := hr.step (haddr ▸ hnodup w hw) hround1.visits hround1.stays hround1.others
          hround1.left
        obtain ⟨w2, hrun2, hw2, hleft⟩ :=
          ih hw1 hround1.pointers hr1 (Nat.le_of_succ_le_succ hfuel)
        have hmore : ¬(las = [] ∨ (addresses w).length ≤ visited.length) := by
          simp [hlas, haddr]
        exact ⟨w2, (hgoes _ _ _ _ _ _ _ hmore hrun1).trans hrun2, hw2, hleft⟩

end

end
end Cta.ObjectStore.ShardRemoval

import Cta.ObjectStore.ArchiveQueueBooks
import Cta.ObjectStore.RetrieveQueueBookkeeping

/-! The oldest and youngest start times of a retrieve queue, over runs of additions and removals. An
addition takes zero for a time that is not set; a rebuild that finds no job sets both times to the
limits of the type. -/
namespace Cta.ObjectStore.RetrieveQueue
open ValueCountMap Cta.Lib.PartedStore Cta.Lib.Runs
open ArchiveQueue (Extremes StartTimes StartTimes.foldl_note lt_iff_toInt64_lt)

def afterCall (w : Queue) (c : Call) : Queue := finalWorld (c.run w)

def startTimes (js : List RetrieveJobPointer) : List Int64 := js.map (·.startTime.toInt64)

def storedJobs (st : Stored RetrieveQueue RetrieveQueueShard) : List RetrieveJobPointer :=
  jobsIn (found st.parts st.root.retrieveQueueShards)

/-- The summary of a queue with jobs gives the minimum and the maximum of their start times. -/
def TimesReported (w : Queue) : Prop :=
  storedJobs w.stored ≠ [] → ∃ summary, getJobsSummary w.stored.root = .ok summary ∧
    Extremes (startTimes (storedJobs w.stored)) summary.oldestJobStartTime
      summary.youngestJobStartTime

/-- Additions of jobs with positive start times, which split no existing shard twice and cut it
cleanly. -/
def StartsPositive (w : Queue) : Call → Prop
  | .add jobsToAdd => SplitsOnce w jobsToAdd ∧ CutsCleanly w jobsToAdd ∧
      ∀ j ∈ jobsToAdd, 0 < j.startTime
  | .remove _ => True

def NeverRefills (w : Queue) : Call → Prop
  | .add jobsToAdd => jobsToAdd = [] ∨ w.stored.root.retrieveJobsCount ≠ 0 ∨
      w.stored.root.youngestJobCreationTime = 0
  | .remove _ => True

instance StartsPositive.decidable (w : Queue) : ∀ c, Decidable (StartsPositive w c)
  | .add _ => inferInstanceAs (Decidable (_ ∧ _))
  | .remove _ => inferInstanceAs (Decidable True)

instance NeverRefills.decidable (w : Queue) : ∀ c, Decidable (NeverRefills w c)
  | .add _ => inferInstanceAs (Decidable (_ ∨ _))
  | .remove _ => inferInstanceAs (Decidable True)

def Unused (p : RetrieveQueue) : Prop :=
  p.oldestJobCreationTime = 0 ∧ p.youngestJobCreationTime = 0 ∨
    p.oldestJobCreationTime = Int64.maxValue.toUInt64 ∧
      p.youngestJobCreationTime = Int64.minValue.toUInt64

/-- The times of the queue object are those of the jobs, if there is any. -/
structure Timed (p : RetrieveQueue) (M : Multiset RetrieveJobPointer) : Prop where
  positive : ∀ j ∈ M, 0 < j.startTime.toInt64
  extremes : ∀ js : List RetrieveJobPointer, js = M → js ≠ [] →
    Extremes (startTimes js) p.oldestJobCreationTime.toInt64 p.youngestJobCreationTime.toInt64
  unused : M = 0 → Unused p

section
variable {p p' : RetrieveQueue} {M N : Multiset RetrieveJobPointer} {js : List RetrieveJobPointer}

theorem mem_startTimes {t : Int64} : t ∈ startTimes js ↔ ∃ j ∈ js, j.startTime.toInt64 = t :=
  List.mem_map

theorem startTimes_append (js ks : List RetrieveJobPointer) :
    startTimes (js ++ ks) = startTimes js ++ startTimes ks := List.map_append

theorem Timed.of_list (hpos : ∀ j ∈ js, 0 < j.startTime.toInt64)
    (hext : js ≠ [] → Extremes (startTimes js) p.oldestJobCreationTime.toInt64
      p.youngestJobCreationTime.toInt64) (hun : js = [] → Unused p) : Timed p js where
  positive := hpos
  extremes ks hks hne := by
    have hperm := Multiset.coe_eq_coe.mp hks
    refine (hext fun hnil => hne ?_).congr fun t => ?_
    · subst hnil
      exact hperm.eq_nil
    · simp only [mem_startTimes, hperm.mem_iff]
  unused hzero := hun ((Multiset.coe_eq_zero _).mp hzero)

theorem Timed.congr (h : Timed p M) (hs : SameTimes p p') : Timed p' M := by
  refine ⟨h.positive, ?_, ?_⟩
  · rw [hs.oldest, hs.youngest]
    exact h.extremes
  · unfold Unused
    rw [hs.oldest, hs.youngest]
    exact h.unused

theorem totalsOf_times (js : List RetrieveJobPointer) (t : RebuildTotals) :
    (startTimes js).foldl StartTimes.note ⟨t.oldestJobCreationTime, t.youngestJobCreationTime⟩ =
      ⟨(totalsOf js t).oldestJobCreationTime, (totalsOf js t).youngestJobCreationTime⟩ := by
  induction js generalizing t with
  | nil => rfl
  | cons j js ih => exact ih (t.addJob j.toInfo)

theorem TimesRebuilt.timed (h : TimesRebuilt p js) (hpos : ∀ j ∈ js, 0 < j.startTime.toInt64) :
    Timed p js := by
  refine Timed.of_list hpos (fun hne => ?_) ?_
  · obtain ⟨⟨h1, h2⟩, h3, h4⟩ := StartTimes.foldl_note (startTimes js) {}
    rw [show ({} : StartTimes) = ⟨({} : RebuildTotals).oldestJobCreationTime,
      ({} : RebuildTotals).youngestJobCreationTime⟩ from rfl, totalsOf_times] at h1 h2 h3 h4
    dsimp only at h1 h2 h3 h4
    obtain ⟨j, hj⟩ := List.exists_mem_of_ne_nil js hne
    have hjt : j.startTime.toInt64 ∈ startTimes js := mem_startTimes.mpr ⟨j, hj, rfl⟩
    rw [h.oldest, h.youngest, Int64.toInt64_toUInt64, Int64.toInt64_toUInt64]
    refine ⟨?_, fun t ht => h2 t (List.mem_cons_of_mem _ ht), ?_,
      fun t ht => h4 t (List.mem_cons_of_mem _ ht)⟩
    · rcases List.mem_cons.mp h1 with he | hmem
      · -- only the greatest time of all is not below the initial value
        have hle : Int64.maxValue ≤ j.startTime.toInt64 := by
          have := h2 _ (List.mem_cons_of_mem _ hjt)
          rwa [he] at this
        rw [he, Int64.le_antisymm hle (Int64.le_maxValue _)]
        exact hjt
      · exact hmem
    · refine (List.mem_cons.mp h3).resolve_left fun he => ?_
      have hle := Int64.lt_of_lt_of_le (hpos j hj) (h4 _ (List.mem_cons_of_mem _ hjt))
      rw [he] at hle
      exact absurd hle (by decide)
  · rintro rfl
    exact .inr ⟨h.oldest, h.youngest⟩

theorem Timed.removed {out : List RetrieveJobPointer}
    (h : Timed p (N + (out : Multiset RetrieveJobPointer))) (ht : TimesAfter p p' out N) :
    Timed p' N := by
  have hpos : ∀ j ∈ N, 0 < j.startTime.toInt64 :=
    fun j hj => h.positive j (Multiset.mem_add.mpr (.inl hj))
  rcases ht with ⟨js, rfl, hre⟩ | ⟨hsame, hstrict⟩
  · exact hre.timed hpos
  · refine Timed.congr ?_ hsame
    obtain ⟨ks, rfl⟩ : ∃ ks : List RetrieveJobPointer, (ks : Multiset RetrieveJobPointer) = N :=
      ⟨N.toList, N.coe_toList⟩
    rw [Multiset.coe_add] at h
    by_cases hnil : ks ++ out = []
    · obtain ⟨rfl, rfl⟩ := List.append_eq_nil_iff.mp hnil
      exact h
    · have hall := h.extremes (ks ++ out) rfl hnil
      rw [startTimes_append] at hall
      have hleft := hall.of_append fun t ht => by
        obtain ⟨j, hj, rfl⟩ := List.mem_map.mp ht
        exact hstrict j hj
      refine Timed.of_list hpos (fun _ => hleft) ?_
      rintro rfl
      exact absurd hleft.oldest_mem List.not_mem_nil

theorem toPointer_time (j : JobToAdd) : j.toPointer.startTime.toInt64 = j.startTime :=
  Int64.toInt64_toUInt64 j.startTime

theorem Timed.note (h : Timed p js) (hok : js ≠ [] ∨ p.youngestJobCreationTime = 0) {j : JobToAdd}
    (hj : 0 < j.startTime) : Timed (noteJob p j) (js ++ [j.toPointer] : List _) := by
  refine Timed.of_list ?_ (fun _ => ?_) (by simp)
  · intro k hk
    rcases List.mem_append.mp hk with hk | hk
    · exact h.positive k hk
    · rw [List.mem_singleton.mp hk, toPointer_time]
      exact hj
  · rw [startTimes_append, show startTimes [j.toPointer] = [j.startTime] from
      congrArg (fun t => [t]) (toPointer_time j)]
    by_cases hnil : js = []
    · subst hnil
      have hzero : p.oldestJobCreationTime = 0 ∧ p.youngestJobCreationTime = 0 := by
        have hy := hok.resolve_left fun hne => hne rfl
        rcases h.unused rfl with hun | ⟨-, hmin⟩
        · exact hun
        · rw [hy] at hmin
          exact absurd hmin (by decide)
      simpa [noteJob, noteStartTime, hzero, startTimes] using Extremes.singleton j.startTime
    · have hext := h.extremes js rfl hnil
      have hnot : ∀ {t : UInt64}, t.toInt64 ∈ startTimes js → t ≠ 0 := by
        rintro t ht rfl
        obtain ⟨k, hk, he⟩ := mem_startTimes.mp ht
        have := h.positive k hk
        rw [he] at this
        exact absurd this (by decide)
      have hpush := hext.push (t := j.startTime.toUInt64) (fun u hu => by
        obtain ⟨k, hk, rfl⟩ := mem_startTimes.mp hu
        exact Int64.le_of_lt (h.positive k hk)) (by simpa using Int64.le_of_lt hj)
      rw [Int64.toInt64_toUInt64] at hpush
      simpa [noteJob, noteStartTime, hnot hext.oldest_mem, hnot hext.youngest_mem] using hpush

theorem Timed.noteAll {ks : List JobToAdd} (h : Timed p js)
    (hok : js ≠ [] ∨ p.youngestJobCreationTime = 0) (hks : ∀ j ∈ ks, 0 < j.startTime) :
    Timed (ks.foldl noteJob p) (js ++ ks.map JobToAdd.toPointer : List _) := by
  induction ks generalizing p js with
  | nil => simpa using h
  | cons k ks ih =>
    have := ih (h.note hok (hks k List.mem_cons_self)) (.inl (by simp))
      fun j hj => hks j (List.mem_cons_of_mem k hj)
    simpa using this

theorem toNat_lt_of_pos {x : UInt64} (h : 0 < x.toInt64) : x.toNat < 2^63 := by
  have hto : x.toInt64.toInt = x.toBitVec.toInt := rfl
  rw [Int64.lt_iff_toInt_lt, hto] at h
  simp only [BitVec.toInt, UInt64.toNat_toBitVec, Int64.toInt_zero] at h
  have := x.toNat_lt
  split_ifs at h <;> omega

theorem youngest_stays {ks : List JobToAdd}
    (hp : p.youngestJobCreationTime = Int64.minValue.toUInt64) (hks : ∀ j ∈ ks, 0 < j.startTime) :
    (ks.foldl noteJob p).youngestJobCreationTime = Int64.minValue.toUInt64 := by
  induction ks generalizing p with
  | nil => exact hp
  | cons k ks ih =>
    refine ih ?_ fun j hj => hks j (List.mem_cons_of_mem k hj)
    have hk := hks k List.mem_cons_self
    have hset : p.youngestJobCreationTime ≠ 0 := by
      rw [hp]
      decide
    have hnot : ¬ p.youngestJobCreationTime < k.startTime.toUInt64 := by
      have hlt := toNat_lt_of_pos (x := k.startTime.toUInt64) (by simpa using hk)
      have hmin : Int64.minValue.toUInt64.toNat = 2^63 := by decide
      rw [hp, UInt64.lt_iff_toNat_lt]
      omega
    rw [noteJob, noteStartTime, if_pos hset, if_neg hnot, hp]

end

theorem getJobsSummary_ok {p : RetrieveQueue} {jobs : Multiset RetrieveJobPointer}
    (hb : Booked p jobs) (hne : jobs ≠ 0) : ∃ summary, getJobsSummary p = .ok summary ∧
      summary.oldestJobStartTime = p.oldestJobCreationTime.toInt64 ∧
      summary.youngestJobStartTime = p.youngestJobCreationTime.toInt64 := by
  have hmap : ∀ {m : ValueCountMap Nat} {f : RetrieveJobPointer → Nat}, Counts m (jobs.map f) →
      m ≠ [] := by
    rintro m f hc rfl
    exact hne (Multiset.map_eq_zero.mp hc.2.symm)
  obtain ⟨x, xs, hx⟩ := List.exists_cons_of_ne_nil (hmap hb.counted.priority)
  obtain ⟨y, ys, hy⟩ := List.exists_cons_of_ne_nil (hmap hb.counted.age)
  unfold getJobsSummary
  by_cases hzero : p.retrieveJobsCount = 0
  · rw [if_pos hzero]
    exact ⟨_, rfl, rfl, rfl⟩
  · rw [if_neg hzero, hx, hy]
    exact ⟨_, rfl, rfl, rfl⟩

/-- The queue object is as stored, and agrees with the shards, start times included. -/
structure Timekeeping (w : Queue) : Prop where
  fetched : w.stored.root = w.memory
  agrees : ∃ M, Sane w.memory w.stored.parts w.nextId M ∧ Timed w.memory M

theorem timekeeping_emptyQueue (maxShardSize : Nat) : Timekeeping (emptyQueue maxShardSize) := by
  have htimed : Timed (emptyQueue maxShardSize).memory ([] : List RetrieveJobPointer) :=
    Timed.of_list (by simp) (fun h => absurd rfl h) fun _ => .inl ⟨rfl, rfl⟩
  exact ⟨rfl, 0, (inOrder_emptyQueue maxShardSize).sane, htimed⟩

theorem Timekeeping.reported {w : Queue} (h : Timekeeping w) : TimesReported w := by
  obtain ⟨hroot, M, hs, ht⟩ := h
  intro hne
  have hM : (storedJobs w.stored : Multiset RetrieveJobPointer) = M := by
    rw [storedJobs, hroot]
    exact hs.content
  have hzero : M ≠ 0 := by
    rintro rfl
    exact hne ((Multiset.coe_eq_zero _).mp hM)
  obtain ⟨summary, hsum, hold, hyoung⟩ := getJobsSummary_ok hs.booked hzero
  refine ⟨summary, hroot ▸ hsum, ?_⟩
  rw [hold, hyoung]
  exact ht.extremes _ hM hne

theorem Timekeeping.remove {w : Queue} (h : Timekeeping w) (jobsToRemove : List Address) :
    Timekeeping (afterCall w (.remove jobsToRemove)) := by
  obtain ⟨hroot, M, hs, ht⟩ := h
  obtain ⟨w', N, hrun, hroot', hs', ht'⟩ := Sane.removeAny (I := Timed)
    (fun _ _ _ _ hI hafter => hI.removed hafter) hs hroot ht jobsToRemove
  simpa [afterCall, Call.run, hrun, finalWorld] using (⟨hroot', N, hs', ht'⟩ : Timekeeping w')

theorem Timekeeping.add {w : Queue} (h : Timekeeping w) {jobsToAdd : List JobToAdd}
    (hc : StartsPositive w (.add jobsToAdd)) :
    (NeverRefills w (.add jobsToAdd) → Timekeeping (afterCall w (.add jobsToAdd))) ∧
      (TimesReported (afterCall w (.add jobsToAdd)) → NeverRefills w (.add jobsToAdd)) := by
  obtain ⟨hroot, M, hs, ht⟩ := h
  obtain ⟨⟨hj, honce⟩, hcuts, hpos⟩ := hc
  by_cases hnil : jobsToAdd = []
  · subst hnil
    refine ⟨fun _ => ?_, fun _ => .inl rfl⟩
    simpa [afterCall, Call.run, addJobsAndCommit, finalWorld] using
      (⟨hroot, M, hs, ht⟩ : Timekeeping w)
  obtain ⟨w', hrun, hroot', hs', -, planned, hperm, hacc⟩ :=
    hs.add hroot hnil hj honce hcuts
  have hafter : afterCall w (.add jobsToAdd) = w' := by
    simp [afterCall, Call.run, hrun, finalWorld]
  have hplanned : ∀ j ∈ planned, 0 < j.startTime := fun j hj => hpos j (hperm.mem_iff.mp hj)
  obtain ⟨js, rfl⟩ : ∃ js : List RetrieveJobPointer, (js : Multiset RetrieveJobPointer) = M :=
    ⟨M.toList, M.coe_toList⟩
  have hcount : w.stored.root.retrieveJobsCount ≠ 0 ↔ js ≠ [] := by
    rw [hroot, hs.count, Multiset.coe_card]
    exact not_congr List.length_eq_zero_iff
  have hjobs : ((js ++ planned.map JobToAdd.toPointer : List RetrieveJobPointer) :
      Multiset RetrieveJobPointer) = js + jobsToAdd.map JobToAdd.toPointer := by
    rw [Multiset.coe_add, Multiset.coe_eq_coe]
    exact (hperm.map _).append_left js
  rw [hafter]
  refine ⟨fun hok => ⟨hroot', _, hs', ?_⟩, fun hrep => ?_⟩
  · rw [← hjobs]
    refine (ht.noteAll ?_ hplanned).congr hacc.noted
    rw [← hcount, ← hroot]
    exact hok.resolve_left hnil
  · by_contra hno
    obtain ⟨-, hempty, hset⟩ : jobsToAdd ≠ [] ∧ ¬ w.stored.root.retrieveJobsCount ≠ 0 ∧
        w.stored.root.youngestJobCreationTime ≠ 0 := by
      simpa only [NeverRefills, not_or] using hno
    obtain rfl : js = [] := not_not.mp (mt hcount.mpr hempty)
    rw [hroot] at hset
    have hyoung : w'.memory.youngestJobCreationTime = Int64.minValue.toUInt64 := by
      have hmin := ((ht.unused rfl).resolve_left fun hun => hset hun.2).2
      rw [hacc.noted.youngest, youngest_stays hmin hplanned]
    -- the first job added starts after the time reported as the youngest
    obtain ⟨j, rest, rfl⟩ := List.exists_cons_of_ne_nil hnil
    have hqueued : (storedJobs w'.stored : Multiset RetrieveJobPointer) =
        (j :: rest).map JobToAdd.toPointer := by
      rw [storedJobs, hroot', hs'.content]
      exact zero_add _
    have hmem : j.toPointer ∈ storedJobs w'.stored := by
      rw [← Multiset.mem_coe, hqueued]
      exact List.mem_cons_self
    obtain ⟨summary, hsum, hext⟩ := hrep (List.ne_nil_of_mem hmem)
    obtain ⟨summary', hsum', -, hy⟩ := getJobsSummary_ok hs'.booked (by simp)
    rw [hroot', hsum'] at hsum
    obtain rfl := Except.ok.inj hsum
    have hle := hext.le_youngest _ (mem_startTimes.mpr ⟨_, hmem, rfl⟩)
    rw [hy, hyoung, toPointer_time, Int64.toInt64_toUInt64] at hle
    exact absurd (Int64.lt_of_lt_of_le (hpos j List.mem_cons_self) hle) (by decide)

theorem start_times_iff (maxShardSize : Nat) (calls : List Call)
    (h : AllSteps afterCall StartsPositive (emptyQueue maxShardSize) calls) :
    AllStates afterCall TimesReported (emptyQueue maxShardSize) calls ↔
      AllSteps afterCall NeverRefills (emptyQueue maxShardSize) calls := by
  have hinit := timekeeping_emptyQueue maxShardSize
  refine h.allStates_iff (I := Timekeeping) (fun w c hw hc _ => ?_) (fun w c hw hc _ hok => ?_)
    hinit hinit.reported
  · cases c with
    | add jobsToAdd => exact ⟨(hw.add hc).2, fun hok => ((hw.add hc).1 hok).reported⟩
    | remove jobsToRemove => exact ⟨fun _ => True.intro, fun _ => (hw.remove jobsToRemove).reported⟩
  · cases c with
    | add jobsToAdd => exact (hw.add hc).1 hok
    | remove jobsToRemove => exact hw.remove jobsToRemove

/-- The removals take the extreme times away, then leave nothing. -/
theorem start_times_iff_emptied :
    AllStates afterCall TimesReported (emptyQueue 2)
      [.add [recallJob 1 "a" 5, recallJob 2 "b" 3], .add [recallJob 3 "c" 8],
        .remove ["b", "c"], .remove ["a"]] :=
  (start_times_iff 2 _ (by decide +kernel)).mpr (by decide +kernel)

def refillRun : List Call := [.add [recallJob 1 "a" 5], .remove ["a"], .add [recallJob 2 "b" 7]]

example : ((getJobsSummary (refillRun.foldl afterCall (emptyQueue 2)).stored.root).map fun s =>
    (s.jobs, s.oldestJobStartTime, s.youngestJobStartTime)) = .ok (1, 7, Int64.minValue) := by
  decide +kernel

theorem start_times_wrong_refillRun :
    ¬ ∀ (maxShardSize : Nat) (calls : List Call),
      AllSteps afterCall StartsPositive (emptyQueue maxShardSize) calls →
      AllStates afterCall TimesReported (emptyQueue maxShardSize) calls := by
  intro h
  have hrep := (h 2 refillRun (by decide +kernel)).last
  have hjobs : startTimes (storedJobs (refillRun.foldl afterCall (emptyQueue 2)).stored) = [7] := by
    decide +kernel
  have hne : storedJobs (refillRun.foldl afterCall (emptyQueue 2)).stored ≠ [] := by
    intro hnil
    simp [hnil, startTimes] at hjobs
  have hsum : ((getJobsSummary (refillRun.foldl afterCall (emptyQueue 2)).stored.root).map
      (·.youngestJobStartTime)) = .ok Int64.minValue := by
    decide +kernel
  obtain ⟨summary, hok, hext⟩ := hrep hne
  rw [hok] at hsum
  have hyoung : summary.youngestJobStartTime = Int64.minValue := Except.ok.inj hsum
  have hmem := hext.youngest_mem
  rw [hjobs, hyoung, List.mem_singleton] at hmem
  exact absurd hmem (by decide)

end Cta.ObjectStore.RetrieveQueue

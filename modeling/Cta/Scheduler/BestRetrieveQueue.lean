import Cta.Scheduler.QueueStatistics
import Mathlib.Data.Finset.Sort
import Mathlib.Data.List.GetD
import Mathlib.Data.String.Basic

/-! Which of the candidates for a retrieve the selection may return. -/
namespace Cta.Scheduler.RetrieveFailure
open Cta.Lib.Selection
open Cta.ObjectStore (Address)
open Cta.ObjectStore.RootEntry (Payload)

/-- What a selection meets in the cache, the catalogue and the object store. `updated` is an entry
after the wait for the thread that updates it; the catalogue may fail to answer, and the root entry
may be out of reach. -/
structure Surroundings where
  cache : String → Option RetrieveQueueStatisticsWithTime
  updated : String → RetrieveQueueStatisticsWithTime
  now : Int
  getTapesByVid : String → Option (List (String × TapeState))
  re : Option Payload
  queues : Address → Except Failure RetrieveQueueObject

namespace Surroundings

def statistics (w : Surroundings) (s : WeakSorting RetrieveQueueStatistics.gt) (random : Nat) :
    Statistics where
  cache := w.cache
  updated := w.updated
  now := w.now
  getTapesByVid vid := (w.getTapesByVid vid).elim (.error .exception) .ok
  getRetrieveQueueStatistics vid := w.re.elim (.error .exception) fun re =>
    getRetrieveQueueStatistics re w.queues {vid} [⟨vid, 1⟩]
  sort := s.sort
  perm := s.perm
  random

def selectBestRetrieveQueue (w : Surroundings) (s : WeakSorting RetrieveQueueStatistics.gt)
    (random : Nat) (candidateVids : Finset String) (forceDisabledTape : Bool) :
    Except Failure String :=
  (w.statistics s random).selectBestRetrieveQueue (candidateVids.sort (· ≤ ·)) forceDisabledTape

def entry (w : Surroundings) (vid : String) : Except Failure RetrieveQueueStatisticsWithTime :=
  (w.statistics (.insertion _) 0).entry vid

def Usable (w : Surroundings) (candidateVids : Finset String) (forceDisabledTape : Bool)
    (vid : String) (entry : RetrieveQueueStatisticsWithTime) : Prop :=
  vid ∈ candidateVids ∧ w.entry vid = .ok entry ∧ Statistics.usable forceDisabledTape entry = true

def Best (w : Surroundings) (candidateVids : Finset String) (forceDisabledTape : Bool)
    (vid : String) (entry : RetrieveQueueStatisticsWithTime) : Prop :=
  w.Usable candidateVids forceDisabledTape vid entry ∧ ∀ other otherEntry,
    w.Usable candidateVids forceDisabledTape other otherEntry →
      otherEntry.stats.gt entry.stats = false

/-- However the sort leaves ties and whatever the random number is, one of the best is returned,
and no tape is available exactly if there is none. -/
def ChoosesBest (w : Surroundings) (candidateVids : Finset String) (forceDisabledTape : Bool) :
    Prop :=
  ∀ s random, match w.selectBestRetrieveQueue s random candidateVids forceDisabledTape with
    | .ok vid => ∃ entry, w.Best candidateVids forceDisabledTape vid entry
    | .error e => e = .noTapeAvailableForRetrieve ∧
        ∀ vid entry, ¬w.Usable candidateVids forceDisabledTape vid entry

def NeedsUpdate (w : Surroundings) (vid : String) : Prop :=
  ∀ entry, w.cache vid = some entry →
    entry.updating = false ∧ w.now - entry.updateTime > c_retrieveQueueCacheMaxAge

/-- The catalogue knows the tape, and no queue makes the lookup of the statistics fail. -/
def CanUpdate (w : Surroundings) (vid : String) : Prop :=
  (∃ state, w.getTapesByVid vid = some [(vid, state)]) ∧ ∃ re, w.re = some re

/-- The statistics in the cache are those of the tape, or still those of a new entry. -/
structure CacheNamed (w : Surroundings) : Prop where
  cache : ∀ vid entry, w.cache vid = some entry → entry.stats.vid = vid ∨ entry.stats.vid = ""
  updated : ∀ vid, (w.updated vid).stats.vid = vid ∨ (w.updated vid).stats.vid = ""

/-- What has to be updated can be, the statistics have an order, and there is no usable candidate, a
single best one, or none that is not among the best ones. -/
structure OnlyBest (w : Surroundings) (candidateVids : Finset String) (forceDisabledTape : Bool) :
    Prop where
  update : ∀ vid ∈ candidateVids, w.NeedsUpdate vid → w.CanUpdate vid
  ordered : ∀ vid entry vid' entry', w.Usable candidateVids forceDisabledTape vid entry →
    w.Usable candidateVids forceDisabledTape vid' entry' → ¬entry.stats.Opposed entry'.stats
  chosen : (∀ vid entry, ¬w.Usable candidateVids forceDisabledTape vid entry) ∨
    (∃ vid entry, w.Best candidateVids forceDisabledTape vid entry ∧ entry.stats.vid = vid) ∧
      ((∀ vid entry vid' entry', w.Best candidateVids forceDisabledTape vid entry →
          w.Best candidateVids forceDisabledTape vid' entry' → vid = vid') ∨
        ∀ vid ∈ candidateVids, ∃ entry, w.Best candidateVids forceDisabledTape vid entry)

section
variable {w : Surroundings} {candidateVids : Finset String} {forceDisabledTape : Bool}
  {vid : String} {vids : List String} {s : WeakSorting RetrieveQueueStatistics.gt} {random : Nat}
  {entry : RetrieveQueueStatisticsWithTime}

theorem statistics_sort : (w.statistics s random).sort = s.sort := rfl

theorem statistics_random : (w.statistics s random).random = random := rfl

theorem statistics_entry : (w.statistics s random).entry vid = w.entry vid := rfl

/-- Whatever is queued, a refresh reads zeros. -/
theorem refreshed_stats (re : Payload) (queues : Address → Except Failure RetrieveQueueObject)
    (vid : String) :
    getRetrieveQueueStatistics re queues {vid} [⟨vid, 1⟩] = .ok [⟨vid, 0, 0, 0⟩] := by
  rw [getRetrieveQueueStatistics_eq]
  simp

theorem update_of_canUpdate (h : w.CanUpdate vid) :
    ∃ state, (w.statistics s random).update vid = .ok ⟨⟨vid, 0, 0, 0⟩, state, false, w.now⟩ := by
  obtain ⟨⟨state, htape⟩, re, hre⟩ := h
  refine ⟨state, ?_⟩
  simp only [Statistics.update, statistics, htape, hre, refreshed_stats, Option.elim_some, bind,
    Except.bind, and_self, if_true]

theorem update_of_not_canUpdate (h : ¬w.CanUpdate vid) :
    (w.statistics s random).update vid = .error .exception := by
  simp only [Statistics.update, statistics, bind, Except.bind]
  cases htapes : w.getTapesByVid vid with
  | none => rfl
  | some tapes =>
    cases hre : w.re with
    | none => rfl
    | some re =>
      simp only [refreshed_stats, Option.elim_some]
      match tapes with
      | [] => rfl
      | [(tapeVid, state)] =>
        have hne : tapeVid ≠ vid := fun heq => h ⟨⟨state, heq ▸ htapes⟩, re, hre⟩
        simp [hne]
      | _ :: _ :: _ => rfl

theorem entry_of_needsUpdate (h : w.NeedsUpdate vid) :
    w.entry vid = (w.statistics (.insertion _) 0).update vid := by
  rw [entry, Statistics.entry]
  cases hcache : w.cache vid with
  | none => simp only [statistics, hcache]
  | some entry =>
    obtain ⟨hupdating, hold⟩ := h entry hcache
    simp only [statistics, hcache, hupdating, hold, Bool.false_eq_true, if_false, if_true]

theorem entry_of_not_needsUpdate (h : ¬w.NeedsUpdate vid) :
    ∃ entry, w.entry vid = .ok entry ∧ (w.cache vid = some entry ∨ w.updated vid = entry) := by
  simp only [NeedsUpdate, not_forall] at h
  obtain ⟨entry, hcache, hkeep⟩ := h
  simp only [Surroundings.entry, Statistics.entry, statistics, hcache]
  by_cases hupdating : entry.updating = true
  · exact ⟨w.updated vid, if_pos hupdating, .inr rfl⟩
  · have hfresh : ¬w.now - entry.updateTime > c_retrieveQueueCacheMaxAge := fun hold =>
      hkeep ⟨by simpa using hupdating, hold⟩
    exact ⟨entry, (if_neg hupdating).trans (if_neg hfresh), .inl rfl⟩

theorem entry_ok_iff :
    (∃ entry, w.entry vid = .ok entry) ↔ (w.NeedsUpdate vid → w.CanUpdate vid) := by
  constructor
  · rintro ⟨entry, hentry⟩ hneeds
    by_contra hcan
    rw [entry_of_needsUpdate hneeds, update_of_not_canUpdate hcan] at hentry
    cases hentry
  · intro h
    by_cases hneeds : w.NeedsUpdate vid
    · obtain ⟨state, hupdate⟩ := update_of_canUpdate (h hneeds)
      exact ⟨_, (entry_of_needsUpdate hneeds).trans hupdate⟩
    · obtain ⟨entry, hentry, -⟩ := entry_of_not_needsUpdate hneeds
      exact ⟨entry, hentry⟩

theorem entry_error (h : ¬∃ entry, w.entry vid = .ok entry) :
    w.entry vid = .error .exception := by
  rw [entry_ok_iff, not_forall] at h
  obtain ⟨hneeds, hcan⟩ := h
  rw [entry_of_needsUpdate hneeds, update_of_not_canUpdate hcan]

theorem CacheNamed.read (h : w.CacheNamed) (hentry : w.entry vid = .ok entry) :
    entry.stats.vid = vid ∨ entry.stats.vid = "" := by
  by_cases hneeds : w.NeedsUpdate vid
  · have hcan := entry_ok_iff.mp ⟨entry, hentry⟩ hneeds
    obtain ⟨state, hupdate⟩ := update_of_canUpdate hcan
    rw [entry_of_needsUpdate hneeds, hupdate] at hentry
    cases hentry
    exact .inl rfl
  · obtain ⟨entry', hread, hfrom⟩ := entry_of_not_needsUpdate hneeds
    rw [hread] at hentry
    cases hentry
    rcases hfrom with hcache | hupdated
    · exact h.cache vid _ hcache
    · exact hupdated ▸ h.updated vid

def usableStats (w : Surroundings) (forceDisabledTape : Bool) (vid : String) :
    Option RetrieveQueueStatistics :=
  match w.entry vid with
  | .ok entry => if Statistics.usable forceDisabledTape entry then some entry.stats else none
  | .error _ => none

theorem candidateVidsStats_ok (h : ∀ vid ∈ vids, ∃ entry, w.entry vid = .ok entry) :
    (w.statistics s random).candidateVidsStats forceDisabledTape vids =
      .ok (vids.filterMap (w.usableStats forceDisabledTape)) := by
  induction vids with
  | nil => rfl
  | cons vid vids ih =>
    obtain ⟨entry, hentry⟩ := h vid List.mem_cons_self
    have hrest := ih fun vid' hvid' => h vid' (List.mem_cons_of_mem vid hvid')
    rw [Statistics.candidateVidsStats, statistics_entry, hentry, hrest, List.filterMap_cons,
      usableStats, hentry]
    by_cases husable : Statistics.usable forceDisabledTape entry = true <;>
      simp [husable, bind, Except.bind, pure, Except.pure]

theorem candidateVidsStats_error (h : ∃ vid ∈ vids, ¬∃ entry, w.entry vid = .ok entry) :
    (w.statistics s random).candidateVidsStats forceDisabledTape vids = .error .exception := by
  induction vids with
  | nil => simp at h
  | cons vid vids ih =>
    rw [Statistics.candidateVidsStats, statistics_entry]
    by_cases hread : ∃ entry, w.entry vid = .ok entry
    · obtain ⟨entry, hentry⟩ := hread
      obtain ⟨vid', hvid', hno⟩ := h
      have hlater : vid' ∈ vids :=
        (List.mem_cons.mp hvid').resolve_left fun heq => hno (heq ▸ ⟨entry, hentry⟩)
      rw [hentry, ih ⟨vid', hlater, hno⟩]
      rfl
    · rw [entry_error hread]
      rfl

theorem mem_stats {stats : RetrieveQueueStatistics} :
    stats ∈ (candidateVids.sort (· ≤ ·)).filterMap (w.usableStats forceDisabledTape) ↔
      ∃ vid entry, w.Usable candidateVids forceDisabledTape vid entry ∧ entry.stats = stats := by
  rw [List.mem_filterMap]
  constructor
  · rintro ⟨vid, hvid, hstats⟩
    rw [usableStats] at hstats
    cases hentry : w.entry vid with
    | error e => simp [hentry] at hstats
    | ok entry =>
      simp only [hentry, Option.ite_none_right_eq_some, Option.some.injEq] at hstats
      exact ⟨vid, entry, ⟨(Finset.mem_sort _).mp hvid, hentry, hstats.1⟩, hstats.2⟩
  · rintro ⟨vid, entry, ⟨hvid, hentry, husable⟩, rfl⟩
    exact ⟨vid, (Finset.mem_sort _).mpr hvid, by simp [usableStats, hentry, husable]⟩

def returned (candidateVids : Finset String) (random : Nat) : List String → String
  | [vid] => vid
  | _ => (candidateVids.sort (· ≤ ·)).getD (random % candidateVids.card) ""

theorem returned_single_or (candidateVids : Finset String) (shortlist : List String) :
    (∃ vid, shortlist = [vid] ∧ ∀ random, returned candidateVids random shortlist = vid) ∨
      (∀ vid, shortlist ≠ [vid]) ∧ ∀ random, returned candidateVids random shortlist =
        (candidateVids.sort (· ≤ ·)).getD (random % candidateVids.card) "" := by
  match shortlist with
  | [] => exact .inr ⟨nofun, fun _ => rfl⟩
  | [vid] => exact .inl ⟨vid, rfl, fun _ => rfl⟩
  | _ :: _ :: _ => exact .inr ⟨nofun, fun _ => rfl⟩

theorem exists_random (h : vid ∈ candidateVids) :
    ∃ random, (candidateVids.sort (· ≤ ·)).getD (random % candidateVids.card) "" = vid := by
  obtain ⟨i, hi, hget⟩ := List.getElem_of_mem ((Finset.mem_sort (· ≤ ·)).mpr h)
  refine ⟨i, ?_⟩
  rw [← Finset.length_sort (· ≤ ·), Nat.mod_eq_of_lt hi, List.getD_eq_getElem _ _ hi, hget]

theorem random_mem (h : vid ∈ candidateVids) (random : Nat) :
    (candidateVids.sort (· ≤ ·)).getD (random % candidateVids.card) "" ∈ candidateVids := by
  have hlt : random % candidateVids.card < (candidateVids.sort (· ≤ ·)).length := by
    rw [Finset.length_sort]
    exact Nat.mod_lt _ (Finset.card_pos.mpr ⟨vid, h⟩)
  rw [List.getD_eq_getElem _ _ hlt]
  exact (Finset.mem_sort _).mp (List.getElem_mem hlt)

def Lists (w : Surroundings) (candidateVids : Finset String) (forceDisabledTape : Bool)
    (stats : List RetrieveQueueStatistics) : Prop :=
  ∀ st, st ∈ stats ↔
    ∃ vid entry, w.Usable candidateVids forceDisabledTape vid entry ∧ entry.stats = st

theorem select_ok (h : ∀ vid ∈ candidateVids, ∃ entry, w.entry vid = .ok entry)
    (forceDisabledTape : Bool) : ∃ stats, w.Lists candidateVids forceDisabledTape stats ∧
      ∀ s random, w.selectBestRetrieveQueue s random candidateVids forceDisabledTape =
        if stats = [] then .error .noTapeAvailableForRetrieve
        else .ok (returned candidateVids random (Statistics.shortlistVids (s.sort stats))) := by
  refine ⟨_, fun st => mem_stats, fun s random => ?_⟩
  have hall : ∀ vid ∈ candidateVids.sort (· ≤ ·), ∃ entry, w.entry vid = .ok entry :=
    fun vid hvid => h vid ((Finset.mem_sort _).mp hvid)
  rw [selectBestRetrieveQueue, Statistics.selectBestRetrieveQueue, candidateVidsStats_ok hall]
  simp only [bind, Except.bind, List.isEmpty_iff, Finset.length_sort]
  split_ifs with hnil
  · rfl
  · simp only [statistics_sort, statistics_random]
    rcases Statistics.shortlistVids _ with _ | ⟨_, _ | _⟩
    · rfl
    · rfl
    · rfl

theorem Lists.best_iff {stats : List RetrieveQueueStatistics}
    (h : w.Lists candidateVids forceDisabledTape stats)
    (hvid : w.Usable candidateVids forceDisabledTape vid entry) :
    w.Best candidateVids forceDisabledTape vid entry ↔
      ∀ other ∈ stats, other.gt entry.stats = false := by
  constructor
  · intro hbest other hother
    obtain ⟨vid', entry', husable, rfl⟩ := (h other).mp hother
    exact hbest.2 vid' entry' husable
  · intro hall
    exact ⟨hvid, fun vid' entry' husable => hall _ ((h _).mpr ⟨vid', entry', husable, rfl⟩)⟩

theorem Usable.unique {entry' : RetrieveQueueStatisticsWithTime}
    (h : w.Usable candidateVids forceDisabledTape vid entry)
    (h' : w.Usable candidateVids forceDisabledTape vid entry') : entry = entry' :=
  Except.ok.inj (h.2.1.symm.trans h'.2.1)

theorem Lists.mem_shortlist {stats : List RetrieveQueueStatistics}
    (h : w.Lists candidateVids forceDisabledTape stats) (hordered : NoneOpposed stats)
    (s : WeakSorting RetrieveQueueStatistics.gt) {name : String} :
    name ∈ Statistics.shortlistVids (s.sort stats) ↔ ∃ vid entry,
      w.Best candidateVids forceDisabledTape vid entry ∧ entry.stats.vid = name := by
  rw [mem_shortlistVids s hordered]
  constructor
  · rintro ⟨best, hbest, hall, rfl⟩
    obtain ⟨vid, entry, husable, rfl⟩ := (h best).mp hbest
    exact ⟨vid, entry, (h.best_iff husable).mpr hall, rfl⟩
  · rintro ⟨vid, entry, hbest, rfl⟩
    exact ⟨entry.stats, (h _).mpr ⟨vid, entry, hbest.1, rfl⟩, (h.best_iff hbest.1).mp hbest, rfl⟩

theorem shortlistVids_eq_singleton {stats : List RetrieveQueueStatistics} {name : String}
    (h : name ∈ Statistics.shortlistVids stats)
    (hall : ∀ name' ∈ Statistics.shortlistVids stats, name' = name) :
    Statistics.shortlistVids stats = [name] := by
  have hnodup : (Statistics.shortlistVids stats).Nodup := by
    rw [shortlistVids_eq]
    exact List.nodup_dedup _
  rw [← List.perm_singleton, List.perm_ext_iff_of_nodup hnodup (List.nodup_singleton name)]
  intro name'
  rw [List.mem_singleton]
  exact ⟨hall name', fun heq => heq ▸ h⟩

theorem OnlyBest.choosesBest (h : w.OnlyBest candidateVids forceDisabledTape) :
    w.ChoosesBest candidateVids forceDisabledTape := by
  intro s random
  obtain ⟨stats, hlists, hselect⟩ :=
    select_ok (fun vid hvid => entry_ok_iff.mpr (h.update vid hvid)) forceDisabledTape
  rw [hselect]
  split_ifs with hnil
  · refine ⟨rfl, fun vid entry husable => ?_⟩
    have hmem := (hlists entry.stats).mpr ⟨vid, entry, husable, rfl⟩
    exact absurd (hnil ▸ hmem) List.not_mem_nil
  · have hordered : NoneOpposed stats := by
      intro left hleft right hright
      obtain ⟨vid, entry, husable, rfl⟩ := (hlists left).mp hleft
      obtain ⟨vid', entry', husable', rfl⟩ := (hlists right).mp hright
      exact h.ordered vid entry vid' entry' husable husable'
    have hshort := @Lists.mem_shortlist _ _ _ _ hlists hordered s
    obtain ⟨st, hst⟩ := List.exists_mem_of_ne_nil stats hnil
    obtain ⟨vid₀, entry₀, husable₀, -⟩ := (hlists st).mp hst
    obtain ⟨⟨vid, entry, hbest, hname⟩, hchosen⟩ :=
      h.chosen.resolve_left fun hnone => hnone vid₀ entry₀ husable₀
    have hvid : vid ∈ Statistics.shortlistVids (s.sort stats) :=
      hshort.mpr ⟨vid, entry, hbest, hname⟩
    rcases returned_single_or candidateVids (Statistics.shortlistVids (s.sort stats)) with
      ⟨name, hone, hret⟩ | ⟨hmany, hret⟩
    · rw [hone, List.mem_singleton] at hvid
      rw [hret, ← hvid]
      exact ⟨entry, hbest⟩
    · rw [hret]
      rcases hchosen with hunique | hall
      · have hone : ∀ name ∈ Statistics.shortlistVids (s.sort stats), name = vid := by
          intro name hmem
          obtain ⟨vid', entry', hbest', rfl⟩ := hshort.mp hmem
          obtain rfl := hunique vid entry vid' entry' hbest hbest'
          rw [← hbest.1.unique hbest'.1, hname]
        exact absurd (shortlistVids_eq_singleton hvid hone) (hmany vid)
      · exact hall _ (random_mem hbest.1.1 random)

theorem ChoosesBest.ordered (hnamed : w.CacheNamed) (hvids : "" ∉ candidateVids)
    (h : w.ChoosesBest candidateVids forceDisabledTape) {stats : List RetrieveQueueStatistics}
    (hlists : w.Lists candidateVids forceDisabledTape stats)
    (hselect : ∀ s random, w.selectBestRetrieveQueue s random candidateVids forceDisabledTape =
      if stats = [] then .error .noTapeAvailableForRetrieve
      else .ok (returned candidateVids random (Statistics.shortlistVids (s.sort stats)))) :
    ∀ vid entry vid' entry', w.Usable candidateVids forceDisabledTape vid entry →
      w.Usable candidateVids forceDisabledTape vid' entry' → ¬entry.stats.Opposed entry'.stats := by
  intro vid entry vid' entry' husable husable' hopposed
  have hmem : entry.stats ∈ stats := (hlists _).mpr ⟨vid, entry, husable, rfl⟩
  have hmem' : entry'.stats ∈ stats := (hlists _).mpr ⟨vid', entry', husable', rfl⟩
  have hno : ¬WeakOrderOn RetrieveQueueStatistics.gt stats := fun horder =>
    weakOrderOn_iff.mp horder _ hmem _ hmem' hopposed
  have hnotBest : ∀ e, ¬w.Best candidateVids forceDisabledTape vid e := by
    rintro e ⟨he, hall⟩
    obtain rfl := he.unique husable
    have hgt : entry'.stats.gt e.stats = true := gt_iff.mpr (.inr hopposed.2)
    simp [hall vid' entry' husable'] at hgt
  let s := (WeakSorting.insertion RetrieveQueueStatistics.gt).leaving
    (List.perm_cons_erase hmem).symm hno
  have hsort : s.sort stats = entry.stats :: stats.erase entry.stats := if_pos rfl
  have hfirst : entry.stats.vid ∈ Statistics.shortlistVids (s.sort stats) := by
    rw [hsort, shortlistVids_eq, List.mem_dedup]
    refine List.mem_map_of_mem (List.mem_filter.mpr ⟨List.mem_cons_self, ?_⟩)
    simp [RetrieveQueueStatistics.gt]
  have hbest : ∀ random, ∃ e, w.Best candidateVids forceDisabledTape
      (returned candidateVids random (Statistics.shortlistVids (s.sort stats))) e := by
    intro random
    have hchosen := h s random
    rwa [hselect, if_neg (List.ne_nil_of_mem hmem)] at hchosen
  rcases returned_single_or candidateVids (Statistics.shortlistVids (s.sort stats)) with
    ⟨name, hone, hret⟩ | ⟨hmany, hret⟩
  · obtain ⟨e, hb⟩ := hret 0 ▸ hbest 0
    rw [hone, List.mem_singleton] at hfirst
    rcases hnamed.read husable.2.1 with hvid | hvid
    · exact hnotBest e ((hfirst.symm.trans hvid) ▸ hb)
    · exact hvids ((hfirst.symm.trans hvid) ▸ hb.1.1)
  · obtain ⟨random, hrandom⟩ := exists_random husable.1
    obtain ⟨e, hb⟩ := hret random ▸ hbest random
    exact hnotBest e (hrandom ▸ hb)

theorem ChoosesBest.onlyBest (hnamed : w.CacheNamed) (hvids : "" ∉ candidateVids)
    (h : w.ChoosesBest candidateVids forceDisabledTape) :
    w.OnlyBest candidateVids forceDisabledTape := by
  have hread : ∀ vid ∈ candidateVids, ∃ entry, w.entry vid = .ok entry := by
    by_contra hno
    simp only [not_forall] at hno
    obtain ⟨vid, hvid, hno⟩ := hno
    have hchosen := h (.insertion _) 0
    rw [selectBestRetrieveQueue, Statistics.selectBestRetrieveQueue,
      candidateVidsStats_error ⟨vid, (Finset.mem_sort _).mpr hvid, hno⟩] at hchosen
    exact absurd hchosen.1 (by simp)
  obtain ⟨stats, hlists, hselect⟩ := select_ok hread forceDisabledTape
  have hordered := h.ordered hnamed hvids hlists hselect
  have hnone : NoneOpposed stats := by
    intro left hleft right hright
    obtain ⟨vid, entry, husable, rfl⟩ := (hlists left).mp hleft
    obtain ⟨vid', entry', husable', rfl⟩ := (hlists right).mp hright
    exact hordered vid entry vid' entry' husable husable'
  refine ⟨fun vid hvid => entry_ok_iff.mp (hread vid hvid), hordered, ?_⟩
  by_cases hunusable : ∀ vid entry, ¬w.Usable candidateVids forceDisabledTape vid entry
  · exact .inl hunusable
  right
  simp only [not_forall, not_not] at hunusable
  obtain ⟨vid₀, entry₀, husable₀⟩ := hunusable
  have hne : stats ≠ [] := List.ne_nil_of_mem ((hlists _).mpr ⟨vid₀, entry₀, husable₀, rfl⟩)
  let s : WeakSorting RetrieveQueueStatistics.gt := .insertion _
  have hbest : ∀ random, ∃ entry, w.Best candidateVids forceDisabledTape
      (returned candidateVids random (Statistics.shortlistVids (s.sort stats))) entry := by
    intro random
    have hchosen := h s random
    rwa [hselect, if_neg hne] at hchosen
  have hshort := @Lists.mem_shortlist _ _ _ _ hlists hnone s
  rcases returned_single_or candidateVids (Statistics.shortlistVids (s.sort stats)) with
    ⟨name, hone, hret⟩ | ⟨hmany, hret⟩
  · obtain ⟨entry, hb⟩ := hret 0 ▸ hbest 0
    have hname : ∀ vid entry, w.Best candidateVids forceDisabledTape vid entry →
        entry.stats.vid = name := by
      intro vid entry hb
      simpa [hone] using hshort.mpr ⟨vid, entry, hb, rfl⟩
    have hown : ∀ vid entry, w.Best candidateVids forceDisabledTape vid entry → vid = name := by
      intro vid entry' hb'
      rcases hnamed.read hb'.1.2.1 with hvid | hvid
      · exact hvid.symm.trans (hname vid entry' hb')
      · exact absurd (hvid.symm.trans (hname vid entry' hb') ▸ hb.1.1) hvids
    exact ⟨⟨name, entry, hb, hname name entry hb⟩,
      .inl fun vid entry vid' entry' hb hb' => (hown vid entry hb).trans (hown vid' entry' hb').symm⟩
  · have hall : ∀ vid ∈ candidateVids,
        ∃ entry, w.Best candidateVids forceDisabledTape vid entry := by
      intro vid hvid
      obtain ⟨random, hrandom⟩ := exists_random hvid
      exact hrandom ▸ hret random ▸ hbest random
    refine ⟨?_, .inr hall⟩
    by_contra! hno
    have hempty : ∀ vid entry, w.Best candidateVids forceDisabledTape vid entry →
        entry.stats.vid = "" := fun vid entry hb =>
      (hnamed.read hb.1.2.1).resolve_left (hno vid entry hb)
    obtain ⟨entry, hb⟩ := hbest 0
    have hmem : "" ∈ Statistics.shortlistVids (s.sort stats) :=
      hshort.mpr ⟨_, entry, hb, hempty _ entry hb⟩
    refine hmany "" (shortlistVids_eq_singleton hmem fun name hname => ?_)
    obtain ⟨vid, entry, hb, rfl⟩ := hshort.mp hname
    exact hempty vid entry hb

/-- The selection returns one of the best candidates if and only if it cannot return another. -/
theorem chooses_best_iff (hnamed : w.CacheNamed) (hvids : "" ∉ candidateVids) :
    w.ChoosesBest candidateVids forceDisabledTape ↔ w.OnlyBest candidateVids forceDisabledTape :=
  ⟨fun h => h.onlyBest hnamed hvids, OnlyBest.choosesBest⟩

end

def fewerBytes : Surroundings where
  cache vid :=
    if vid = "V1" then some ⟨⟨"V1", 20, 2, 1⟩, .active, false, 100⟩
    else if vid = "V2" then some ⟨⟨"V2", 20, 2, 1⟩, .active, false, 100⟩
    else if vid = "V3" then some ⟨⟨"V3", 10, 1, 1⟩, .active, false, 100⟩
    else none
  updated vid := ⟨⟨vid, 0, 0, 0⟩, .active, false, 100⟩
  now := 105
  getTapesByVid vid := some [(vid, .active)]
  re := some {}
  queues _ := .error .noSuchObject

theorem fewerBytes_named : fewerBytes.CacheNamed where
  cache vid entry h := by
    simp only [fewerBytes] at h
    split_ifs at h with h1 h2 h3
    · cases h
      exact .inl h1.symm
    · cases h
      exact .inl h2.symm
    · cases h
      exact .inl h3.symm
  updated vid := .inl rfl

theorem fewerBytes_usable {vid : String} {entry : RetrieveQueueStatisticsWithTime}
    (h : fewerBytes.Usable {"V1", "V3"} false vid entry) :
    vid = "V1" ∧ entry = ⟨⟨"V1", 20, 2, 1⟩, .active, false, 100⟩ ∨
      vid = "V3" ∧ entry = ⟨⟨"V3", 10, 1, 1⟩, .active, false, 100⟩ := by
  obtain ⟨hvid, hentry, -⟩ := h
  simp only [Finset.mem_insert, Finset.mem_singleton] at hvid
  rcases hvid with rfl | rfl
  · exact .inl ⟨rfl, (Except.ok.inj hentry).symm⟩
  · exact .inr ⟨rfl, (Except.ok.inj hentry).symm⟩

/-- `V1` is best alone. -/
theorem fewerBytes_onlyBest : fewerBytes.OnlyBest {"V1", "V3"} false := by
  have husable : fewerBytes.Usable {"V1", "V3"} false "V1"
      ⟨⟨"V1", 20, 2, 1⟩, .active, false, 100⟩ := ⟨by decide, by decide +kernel, rfl⟩
  have hbest : fewerBytes.Best {"V1", "V3"} false "V1"
      ⟨⟨"V1", 20, 2, 1⟩, .active, false, 100⟩ := by
    refine ⟨husable, fun other entry hother => ?_⟩
    rcases fewerBytes_usable hother with ⟨-, rfl⟩ | ⟨-, rfl⟩ <;> rfl
  have hfirst : ∀ vid entry, fewerBytes.Best {"V1", "V3"} false vid entry → vid = "V1" := by
    intro vid entry h
    rcases fewerBytes_usable h.1 with ⟨rfl, -⟩ | ⟨-, rfl⟩
    · rfl
    · exact absurd (h.2 _ _ husable) (by decide)
  refine ⟨fun vid hvid hneeds => ?_, fun vid entry vid' entry' h h' => ?_, .inr ⟨⟨_, _, hbest, rfl⟩,
    .inl fun vid entry vid' entry' h h' => (hfirst _ _ h).trans (hfirst _ _ h').symm⟩⟩
  · simp only [Finset.mem_insert, Finset.mem_singleton] at hvid
    rcases hvid with rfl | rfl <;> exact absurd (hneeds _ rfl).2 (by decide)
  · rcases fewerBytes_usable h with ⟨-, rfl⟩ | ⟨-, rfl⟩ <;>
      rcases fewerBytes_usable h' with ⟨-, rfl⟩ | ⟨-, rfl⟩ <;>
      exact fun ⟨hbytes, hpriority⟩ => absurd hpriority (by decide)

theorem chooses_best_iff_fewerBytes : fewerBytes.ChoosesBest {"V1", "V3"} false :=
  (chooses_best_iff fewerBytes_named (by decide)).mpr fewerBytes_onlyBest

theorem fewerBytes_best (h : vid = "V1" ∨ vid = "V2") :
    fewerBytes.Best {"V1", "V2", "V3"} false vid ⟨⟨vid, 20, 2, 1⟩, .active, false, 100⟩ := by
  refine ⟨?_, ?_⟩
  · rcases h with rfl | rfl <;> exact ⟨by decide, by decide +kernel, rfl⟩
  · rintro other entry ⟨hother, hentry, -⟩
    rw [not_gt_iff]
    simp only [Finset.mem_insert, Finset.mem_singleton] at hother
    rcases hother with rfl | rfl | rfl <;> cases hentry <;> simp

/-- Any of the three may be returned, but the third one is not among the best. -/
theorem not_choosesBest_fewerBytes : ¬∀ w : Surroundings, w.CacheNamed →
    ∀ candidateVids, "" ∉ candidateVids → ∀ force, w.ChoosesBest candidateVids force := by
  intro h
  have hall := h fewerBytes fewerBytes_named {"V1", "V2", "V3"} (by decide) false
  have hV1 := fewerBytes_best (.inl rfl)
  have hV2 := fewerBytes_best (.inr rfl)
  have hworse : ∀ entry, ¬fewerBytes.Best {"V1", "V2", "V3"} false "V3" entry := by
    rintro entry ⟨⟨-, hentry, -⟩, hbest⟩
    cases hentry
    exact absurd (hbest "V1" _ hV1.1) (by decide)
  rcases (hall.onlyBest fewerBytes_named (by decide)).chosen with hnone | ⟨-, hone | hthird⟩
  · exact hnone "V1" _ hV1.1
  · exact absurd (hone "V1" _ "V2" _ hV1 hV2) (by decide)
  · obtain ⟨entry, hbest⟩ := hthird "V3" (by decide)
    exact hworse entry hbest

end Surroundings

end Cta.Scheduler.RetrieveFailure

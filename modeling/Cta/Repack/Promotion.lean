import Cta.Repack.Status
import Mathlib.Data.List.Perm.Subperm

/-! Promotion of the repack requests that are pending, under the lock on their queue, while other
processes submit, expand, report and cancel requests. -/
namespace Cta.Repack.Promotion
open Cta.ObjectStore (Address)
open Cta.Lib.Runs

inductive Owner where
  | agent (name : String)
  | pendingQueue
  | toExpandQueue
  deriving DecidableEq

/-- What the lock holder is at: reading the status of the requests in the index, or giving requests
the new status. The requests that it failed to read are kept for the proofs. -/
inductive Round where
  | counting (toRead : List Address) (stats : List (Address × RepackStatus)) (missed : List Address)
  | switching (candidates dereferenced missed : List Address)

structure State where
  requests : Address → Option (RepackRequest × Owner)
  index : List Address
  pendingQueue : List Address
  round : Option Round

inductive Change where
  | setExpandStartedAndChangeStatus
  | getOrPrepareSubrequestInfo (fSeqs : List Nat) (nextId : Nat → Address)
  | setTotalStats (totals : TotalStatsFiles)
  | reportRetrieveCreationFailures (notCreated : List Subrequest)
  | expandDone
  | fail
  | report (archiveFileSize : Address → Option Nat) (call : Call)

def Change.apply (r : RepackRequest) : Change → RepackRequest
  | .setExpandStartedAndChangeStatus => r.setExpandStartedAndChangeStatus
  | .getOrPrepareSubrequestInfo fSeqs nextId => r.getOrPrepareSubrequestInfo fSeqs nextId
  | .setTotalStats totals => r.setTotalStats totals
  | .reportRetrieveCreationFailures notCreated => Repack.reportRetrieveCreationFailures r notCreated
  | .expandDone => r.expandDone
  | .fail => { r with status := .failed }
  | .report archiveFileSize call => r.call archiveFileSize call

/-- When a change can come: the request was taken from the queue of those to expand, and has been
expanded at least in part before anything is counted. -/
def Change.comes (r : RepackRequest) : Change → Bool
  | .setExpandStartedAndChangeStatus => r.status ≠ .pending ∧ r.isExpandFinished = false
  | .setTotalStats _ | .reportRetrieveCreationFailures _ =>
    r.isExpandStarted && !r.isExpandFinished
  | .fail => r.status ≠ .pending
  | .getOrPrepareSubrequestInfo _ _ | .expandDone | .report _ _ => r.isExpandStarted

inductive Event where
  | registerToIndex (a : Address)
  | insert (a : Address) (agent : String)
  | addToPendingQueue (a : Address)
  | switchOwner (a : Address) (owner : Owner)
  | change (a : Address) (c : Change)
  | removeFromIndex (a : Address)
  | removeFromPendingQueue (a : Address)
  | remove (a : Address)
  | garbageCollect (a : Address) (agent : String)
  | lock
  | read (a : Address)
  | readFails (a : Address)
  | promote
  | switchStatus (a : Address) (agent : String)
  | switchFails (a : Address)
  | finish
  | crash

def targetAvailableRequests : Nat := 2

def countOf (stats : List (Address × RepackStatus)) (status : RepackStatus) : Nat :=
  stats.countP (·.2 = status)

def requestsToPromote (stats : List (Address × RepackStatus)) : Nat :=
  if 0 < countOf stats .pending then
    targetAvailableRequests - (countOf stats .toExpand + countOf stats .starting)
  else 0

def setRequest (s : State) (a : Address) (r : RepackRequest) (owner : Owner) : State :=
  { s with requests := Function.update s.requests a (some (r, owner)) }

def next (s : State) : Event → State
  | .registerToIndex a =>
    if a ∉ s.index ∧ s.requests a = none then { s with index := s.index ++ [a] } else s
  | .insert a agent =>
    if s.requests a = none then setRequest s a {} (.agent agent) else s
  | .addToPendingQueue a =>
    if s.round.isNone then { s with pendingQueue := s.pendingQueue ++ [a] } else s
  | .switchOwner a owner =>
    match s.requests a with
    | none => s
    | some (r, _) =>
      if owner = .pendingQueue ∧ r.status ≠ .pending then s else setRequest s a r owner
  | .change a c =>
    match s.requests a with
    | none => s
    | some (r, owner) => if c.comes r then setRequest s a (c.apply r) owner else s
  | .removeFromIndex a => { s with index := s.index.erase a }
  | .removeFromPendingQueue a =>
    if s.round.isNone then { s with pendingQueue := s.pendingQueue.filter (· ≠ a) } else s
  | .remove a => { s with requests := Function.update s.requests a none }
  | .garbageCollect a agent =>
    match s.requests a with
    | none => s
    | some (r, _) =>
      let s' := setRequest s a r (.agent agent)
      -- the queue that the request is put back in does not become its owner
      if r.status = .pending ∧ s.round.isNone then
        { s' with pendingQueue := s'.pendingQueue ++ [a] }
      else s'
  | .lock => if s.round.isNone then { s with round := some (.counting s.index [] []) } else s
  | .read a =>
    match s.round with
    | some (.counting toRead stats missed) =>
      if a ∈ toRead then
        let found := ((s.requests a).map fun r => (a, r.1.status)).toList
        { s with round := some (.counting (toRead.erase a) (found ++ stats) missed) }
      else s
    | _ => s
  | .readFails a =>
    match s.round with
    | some (.counting toRead stats missed) =>
      if a ∈ toRead then
        { s with round := some (.counting (toRead.erase a) stats (a :: missed)) }
      else s
    | _ => s
  | .promote =>
    match s.round with
    | some (.counting [] stats missed) =>
      if 0 < requestsToPromote stats then
        let candidates := s.pendingQueue.take (requestsToPromote stats)
        { s with round := some (.switching candidates [] missed) }
      else { s with round := none }
    | _ => s
  | .switchStatus a agent =>
    match s.round with
    | some (.switching candidates dereferenced missed) =>
      if a ∈ candidates then
        let s' := { s with
          round := some (.switching (candidates.erase a) (a :: dereferenced) missed) }
        match s.requests a with
        | some (r, .pendingQueue) => setRequest s' a { r with status := .toExpand } (.agent agent)
        | _ => s'
      else s
    | _ => s
  | .switchFails a =>
    match s.round with
    | some (.switching candidates dereferenced missed) =>
      if a ∈ candidates then
        { s with round := some (.switching (candidates.erase a) dereferenced missed) }
      else s
    | _ => s
  | .finish =>
    match s.round with
    | some (.switching [] dereferenced _) =>
      { s with pendingQueue := s.pendingQueue.filter (· ∉ dereferenced), round := none }
    | _ => s
  | .crash => { s with round := none }

def Available (status : RepackStatus) : Prop := status = .toExpand ∨ status = .starting

instance : DecidablePred Available := fun _ => inferInstanceAs (Decidable (_ ∨ _))

def HasCounts (r : RepackRequest) : Prop :=
  r.retrievedFiles ≠ 0 ∨ r.failedToRetrieveFiles ≠ 0 ∨ r.archivedFiles ≠ 0 ∨
    r.failedToArchiveFiles ≠ 0

/-- What the status tells about a request that was not given up. -/
structure Settled (r : RepackRequest) : Prop where
  pending : r.status = .pending → r.isExpandStarted = false
  toExpand : r.status = .toExpand → r.isExpandStarted = false
  running : r.status = .running → HasCounts r
  complete : r.status = .complete → r.isExpandFinished ∧ r.ReachedEnd

section
variable {r q : RepackRequest} {c : Change}

theorem settled_setStatus (h : q.isExpandStarted) : Settled q.setStatus := by
  have hstatus : q.setStatus.status = q.newStatus := rfl
  unfold RepackRequest.newStatus at hstatus
  rw [if_pos h] at hstatus
  split_ifs at hstatus with hend hfailed hcounts
  · exact ⟨by simp [hstatus], by simp [hstatus], by simp [hstatus], by simp [hstatus]⟩
  · exact ⟨by simp [hstatus], by simp [hstatus], by simp [hstatus], fun _ => hend⟩
  · exact ⟨by simp [hstatus], by simp [hstatus], fun _ => hcounts, by simp [hstatus]⟩
  · exact ⟨by simp [hstatus], by simp [hstatus], by simp [hstatus], by simp [hstatus]⟩

theorem not_available_setStatus (h : q.isExpandStarted)
    (hq : HasCounts q ∨ (q.isExpandFinished ∧ q.ReachedEnd)) :
    ¬Available q.setStatus.status := by
  have hstatus : q.setStatus.status = q.newStatus := rfl
  unfold RepackRequest.newStatus at hstatus
  rw [if_pos h] at hstatus
  split_ifs at hstatus with hend hfailed hcounts
  · simp [Available, hstatus]
  · simp [Available, hstatus]
  · simp [Available, hstatus]
  · exact absurd (hq.resolve_right hend) hcounts

theorem hasCounts_of_grows (h : Grows r q) (hr : HasCounts r) : HasCounts q := by
  have := h.retrieved
  have := h.failedToRetrieve
  have := h.archived
  have := h.failedToArchive
  unfold HasCounts at hr ⊢
  omega

theorem again_setStatus (hr : Settled r) (hfailed : r.status ≠ .failed)
    (hpending : r.status ≠ .pending) (h : q.isExpandStarted) (hcounts : HasCounts r → HasCounts q)
    (hend : r.isExpandFinished ∧ r.ReachedEnd → q.isExpandFinished ∧ q.ReachedEnd)
    (ha : Available q.setStatus.status) : Available r.status := by
  by_contra hno
  refine not_available_setStatus h ?_ ha
  cases hs : r.status with
  | pending => exact absurd hs hpending
  | toExpand => exact absurd (.inl hs) hno
  | starting => exact absurd (.inr hs) hno
  | running => exact .inl (hcounts (hr.running hs))
  | complete => exact .inr (hend (hr.complete hs))
  | failed => exact absurd hs hfailed

theorem comes_not_pending (hr : Settled r) (hc : c.comes r = true) : r.status ≠ .pending := by
  intro hp
  have hstarted := hr.pending hp
  cases c <;> simp [Change.comes, hp, hstarted] at hc

theorem apply_settled (hr : Settled r) (hc : c.comes r = true) :
    Settled (c.apply r) ∧ (r.status ≠ .failed → Available (c.apply r).status →
      Available r.status) := by
  have hpending := comes_not_pending hr hc
  cases c with
  | setExpandStartedAndChangeStatus =>
    simp only [Change.comes, decide_eq_true_eq] at hc
    refine ⟨settled_setStatus rfl, fun hf => again_setStatus hr hf hpending rfl id fun hend => ?_⟩
    simp [hc.2] at hend
  | getOrPrepareSubrequestInfo fSeqs nextId =>
    exact ⟨⟨hr.pending, hr.toExpand, hr.running, hr.complete⟩, fun _ ha => ha⟩
  | setTotalStats totals =>
    simp only [Change.comes, Bool.and_eq_true, Bool.not_eq_true'] at hc
    refine ⟨⟨hr.pending, hr.toExpand, hr.running, fun hcomplete => ?_⟩, fun _ ha => ha⟩
    simp [(hr.complete hcomplete).1] at hc
  | reportRetrieveCreationFailures notCreated =>
    simp only [Change.comes, Bool.and_eq_true, Bool.not_eq_true'] at hc
    refine ⟨settled_setStatus hc.1, fun hf => again_setStatus hr hf hpending hc.1
      (Or.imp_right fun h => h.imp_left fun h => ?_) fun hend => ?_⟩
    · change r.failedToRetrieveFiles + notCreated.length ≠ 0
      omega
    · simp [hc.2] at hend
  | expandDone =>
    simp only [Change.comes] at hc
    exact ⟨settled_setStatus hc, fun hf => again_setStatus hr hf hpending hc id
      fun hend => ⟨rfl, hend.2⟩⟩
  | fail =>
    exact ⟨⟨nofun, nofun, nofun, nofun⟩, fun _ ha => absurd ha (by simp [Available, Change.apply])⟩
  | report archiveFileSize call =>
    simp only [Change.comes] at hc
    obtain hsame | ⟨q, hq, hset⟩ := call_cases archiveFileSize r call
    · simp only [Change.apply, hsame]
      exact ⟨hr, fun _ ha => ha⟩
    · have h := accountReports_grows hq
      simp only [Change.apply, hset]
      have hq := h.started.trans hc
      refine ⟨settled_setStatus hq, fun hf => ?_⟩
      exact again_setStatus hr hf hpending hq (hasCounts_of_grows h) fun hend =>
        ⟨h.finished.trans hend.1, h.reachedEnd hend.2⟩

end

def State.Available (s : State) (a : Address) : Prop :=
  ∃ r ∈ s.requests a, Promotion.Available r.1.status

instance (s : State) : DecidablePred s.Available := fun a =>
  decidable_of_iff ((s.requests a).any fun r => Promotion.Available r.1.status)
    (by simp [State.Available, Option.any_eq_true])

def State.nbAvailable (s : State) : Nat := s.index.countP fun a => s.Available a

/-- What the lock holder knows: the available requests are counted, missed or still to be read, and
later there is room for all the candidates. -/
def RoomFor (k : Nat) (s : State) : Prop :=
  match s.round with
  | none => True
  | some (.counting toRead stats missed) => missed.length ≤ k ∧
      ∀ a ∈ s.index, s.Available a →
        a ∈ toRead ∨ a ∈ missed ∨ ∃ status, (a, status) ∈ stats ∧ Promotion.Available status
  | some (.switching candidates _ missed) => missed.length ≤ k ∧
      s.nbAvailable + candidates.length ≤ targetAvailableRequests + missed.length

structure Inv (k : Nat) (s : State) : Prop where
  settled : ∀ a r owner, s.requests a = some (r, owner) → Settled r
  queued : ∀ a r, s.requests a = some (r, .pendingQueue) → r.status = .pending
  nodup : s.index.Nodup
  bound : s.nbAvailable ≤ targetAvailableRequests + k
  room : RoomFor k s

def State.nbMissed (s : State) : Nat :=
  match s.round with
  | some (.counting _ _ missed) => missed.length
  | _ => 0

/-- Nothing is committed to a request that failed, and at most `k` requests cannot be read while the
queue is locked. -/
def Reads (k : Nat) (s : State) : Event → Prop
  | .change a _ => ∀ r ∈ s.requests a, r.1.status ≠ .failed
  | .readFails _ => s.nbMissed < k
  | _ => True

instance (k : Nat) (s : State) : DecidablePred (Reads k s) := fun e => by
  cases e <;> unfold Reads <;> infer_instance

section
variable {s s' : State} {k : Nat} {a : Address} {r : RepackRequest} {owner : Owner}

theorem nbAvailable_le {l : List Address} (hn : s.index.Nodup)
    (h : ∀ a ∈ s.index, s.Available a → a ∈ l) : s.nbAvailable ≤ l.length := by
  rw [State.nbAvailable, List.countP_eq_length_filter]
  refine ((hn.filter _).subperm fun a ha => ?_).length_le
  obtain ⟨hmem, hav⟩ := List.mem_filter.mp ha
  exact h a hmem (by simpa using hav)

theorem mem_available :
    a ∈ s.index.filter (fun a => s.Available a) ↔ a ∈ s.index ∧ s.Available a := by
  simp

theorem Inv.keep (h : Inv k s) (hround : s'.round = s.round) (hn : s'.index.Nodup)
    (hsettled : ∀ a r owner, s'.requests a = some (r, owner) →
      Settled r ∧ (owner = .pendingQueue → r.status = .pending))
    (hfewer : ∀ a ∈ s'.index, s'.Available a → a ∈ s.index ∧ s.Available a) : Inv k s' := by
  have hle : s'.nbAvailable ≤ s.nbAvailable := by
    conv_rhs => rw [State.nbAvailable, List.countP_eq_length_filter]
    exact nbAvailable_le hn fun a ha hav => mem_available.mpr (hfewer a ha hav)
  refine ⟨fun a r owner hr => (hsettled a r owner hr).1, fun a r hr => (hsettled a r _ hr).2 rfl,
    hn, hle.trans h.bound, ?_⟩
  have hroom := h.room
  unfold RoomFor at hroom ⊢
  rw [hround]
  cases hr : s.round with
  | none => trivial
  | some round =>
    rw [hr] at hroom
    cases round with
    | counting toRead stats missed =>
      exact ⟨hroom.1, fun a ha hav => hroom.2 a (hfewer a ha hav).1 (hfewer a ha hav).2⟩
    | switching candidates dereferenced missed =>
      exact ⟨hroom.1, (Nat.add_le_add_right hle _).trans hroom.2⟩

theorem available_setRequest {b : Address} : (setRequest s a r owner).Available b ↔
    (b = a ∧ Promotion.Available r.status) ∨ (b ≠ a ∧ s.Available b) := by
  unfold State.Available setRequest
  by_cases hb : b = a
  · subst hb
    simp
  · simp [hb]

theorem Inv.requests_setRequest (h : Inv k s) (hr : Settled r)
    (hq : owner = .pendingQueue → r.status = .pending) {b : Address} {r' : RepackRequest}
    {owner' : Owner} (hb : (setRequest s a r owner).requests b = some (r', owner')) :
    Settled r' ∧ (owner' = .pendingQueue → r'.status = .pending) := by
  by_cases hba : b = a
  · subst hba
    obtain ⟨rfl, rfl⟩ : r = r' ∧ owner = owner' := by simpa [Promotion.setRequest] using hb
    exact ⟨hr, hq⟩
  · have hb : s.requests b = some (r', owner') := by simpa [Promotion.setRequest, hba] using hb
    exact ⟨h.settled b r' owner' hb, fun ho => h.queued b r' (ho ▸ hb)⟩

theorem Inv.setRequest (h : Inv k s) (hr : Settled r)
    (hq : owner = .pendingQueue → r.status = .pending)
    (ha : Promotion.Available r.status → s.Available a) :
    Inv k (Promotion.setRequest s a r owner) := by
  refine h.keep rfl h.nodup (fun b r' owner' => h.requests_setRequest hr hq)
    fun b hb hav => ⟨hb, ?_⟩
  obtain ⟨rfl, hnew⟩ | ⟨-, hold⟩ := available_setRequest.mp hav
  · exact ha hnew
  · exact hold

theorem Inv.withRound (h : Inv k s) {round : Option Round} (hr : RoomFor k { s with round }) :
    Inv k { s with round } :=
  ⟨h.settled, h.queued, h.nodup, h.bound, hr⟩

theorem length_available (stats : List (Address × RepackStatus)) :
    (stats.filter fun x => Promotion.Available x.2).length =
      countOf stats .toExpand + countOf stats .starting := by
  rw [← List.countP_eq_length_filter]
  unfold countOf
  induction stats with
  | nil => rfl
  | cons x xs ih =>
    rw [List.countP_cons, List.countP_cons, List.countP_cons, ih]
    cases x.2 <;> simp [Promotion.Available] <;> omega

theorem Inv.promote (h : Inv k s) {stats : List (Address × RepackStatus)} {missed : List Address}
    (hround : s.round = some (.counting [] stats missed)) {n : Nat} (hn : 0 < n)
    (hpromote : n = requestsToPromote stats) :
    RoomFor k { s with round := some (.switching (s.pendingQueue.take n) [] missed) } := by
  have hroom := h.room
  rw [RoomFor, hround] at hroom
  refine ⟨hroom.1, ?_⟩
  have hcounted : s.nbAvailable ≤
      (missed ++ (stats.filter fun x => Promotion.Available x.2).map (·.1)).length := by
    refine nbAvailable_le h.nodup fun a ha hav => ?_
    obtain hread | hmissed | ⟨status, hstats, hstatus⟩ := hroom.2 a ha hav
    · cases hread
    · exact List.mem_append_left _ hmissed
    · exact List.mem_append_right _ (List.mem_map.mpr ⟨(a, status),
        List.mem_filter.mpr ⟨hstats, by simpa using hstatus⟩, rfl⟩)
  rw [List.length_append, List.length_map, length_available] at hcounted
  have htake : (s.pendingQueue.take n).length ≤ n := by simp
  change s.nbAvailable + (s.pendingQueue.take n).length ≤ _
  unfold requestsToPromote at hpromote
  split_ifs at hpromote
  · omega
  · omega

theorem Inv.oneLess (h : Inv k s) {candidates dereferenced missed : List Address}
    (hround : s.round = some (.switching candidates dereferenced missed)) (ha : a ∈ candidates) :
    missed.length ≤ k ∧ s.nbAvailable + (candidates.erase a).length + 1 ≤
      targetAvailableRequests + missed.length := by
  have hroom := h.room
  rw [RoomFor, hround] at hroom
  refine ⟨hroom.1, ?_⟩
  have := List.length_erase_add_one ha
  omega

theorem Inv.oneTried (h : Inv k s) {candidates dereferenced missed : List Address}
    (hround : s.round = some (.switching candidates dereferenced missed)) (ha : a ∈ candidates)
    (dereferenced' : List Address) :
    Inv k { s with round := some (.switching (candidates.erase a) dereferenced' missed) } := by
  obtain ⟨hmissed, hroom⟩ := h.oneLess hround ha
  exact h.withRound ⟨hmissed, Nat.le_of_succ_le hroom⟩

theorem Inv.switchStatus (h : Inv k s) {candidates dereferenced missed : List Address}
    (hround : s.round = some (.switching candidates dereferenced missed))
    (hmissed : missed.length ≤ k)
    (hroom : s.nbAvailable + candidates.length + 1 ≤ targetAvailableRequests + missed.length)
    (hr : s.requests a = some (r, .pendingQueue)) (agent : String) :
    Inv k (Promotion.setRequest s a { r with status := .toExpand } (.agent agent)) := by
  have hstarted := (h.settled a r _ hr).pending (h.queued a r hr)
  have hmore : (Promotion.setRequest s a { r with status := .toExpand }
      (.agent agent)).nbAvailable ≤ s.nbAvailable + 1 := by
    conv_rhs => rw [State.nbAvailable, List.countP_eq_length_filter, ← List.length_cons (a := a)]
    refine nbAvailable_le h.nodup fun b hb hav => ?_
    obtain ⟨rfl, -⟩ | ⟨-, hold⟩ := available_setRequest.mp hav
    · exact List.mem_cons_self
    · exact List.mem_cons_of_mem _ (mem_available.mpr ⟨hb, hold⟩)
  have hsettled : Settled { r with status := .toExpand } := ⟨nofun, fun _ => hstarted, nofun, nofun⟩
  have hkeep := @h.requests_setRequest _ _ a _ (.agent agent) hsettled nofun
  refine ⟨fun b r' owner hb => (hkeep hb).1, fun b r' hb => (hkeep hb).2 rfl, h.nodup, by omega, ?_⟩
  have hround' : (Promotion.setRequest s a { r with status := .toExpand } (.agent agent)).round =
      some (.switching candidates dereferenced missed) := hround
  rw [RoomFor, hround']
  exact ⟨hmissed, by omega⟩

theorem Inv.requests (h : Inv k s) (a : Address) (r : RepackRequest) (owner : Owner)
    (hr : s.requests a = some (r, owner)) :
    Settled r ∧ (owner = .pendingQueue → r.status = .pending) :=
  ⟨h.settled a r owner hr, fun ho => h.queued a r (ho ▸ hr)⟩

theorem Inv.registerToIndex (h : Inv k s) (ha : a ∉ s.index ∧ s.requests a = none) :
    Inv k { s with index := s.index ++ [a] } := by
  refine h.keep rfl (List.nodup_append.mpr ⟨h.nodup, by simp, ?_⟩) h.requests fun b hb hav => ?_
  · intro b hb c hc hbc
    exact ha.1 (List.mem_singleton.mp hc ▸ hbc ▸ hb)
  · obtain hb | hb := List.mem_append.mp hb
    · exact ⟨hb, hav⟩
    · obtain ⟨r, hr, -⟩ := hav
      simp [List.mem_singleton.mp hb, ha.2] at hr

theorem Inv.change (h : Inv k s) {c : Change} (hr : s.requests a = some (r, owner))
    (hc : c.comes r = true) (hfailed : r.status ≠ .failed) :
    Inv k (Promotion.setRequest s a (c.apply r) owner) := by
  obtain ⟨hsettled, hagain⟩ := apply_settled (h.settled a r owner hr) hc
  refine h.setRequest hsettled (fun ho => ?_) fun hav => ⟨_, hr, hagain hfailed hav⟩
  exact absurd (h.queued a r (ho ▸ hr)) (comes_not_pending (h.settled a r owner hr) hc)

theorem Inv.garbageCollect (h : Inv k s) (hr : s.requests a = some (r, owner)) (agent : String)
    (pendingQueue : List Address) :
    Inv k { Promotion.setRequest s a r (.agent agent) with pendingQueue } := by
  have hcollected : Inv k (Promotion.setRequest s a r (.agent agent)) :=
    h.setRequest (h.settled a r owner hr) (by simp) fun hav => ⟨_, hr, hav⟩
  exact ⟨hcollected.settled, hcollected.queued, hcollected.nodup, hcollected.bound,
    hcollected.room⟩

theorem Inv.remove (h : Inv k s) (a : Address) :
    Inv k { s with requests := Function.update s.requests a none } := by
  refine h.keep rfl h.nodup (fun b r owner hb => ?_) fun b hb hav => ⟨hb, ?_⟩
  · by_cases hba : b = a
    · simp [hba] at hb
    · exact h.requests b r owner (by simpa [hba] using hb)
  · obtain ⟨r, hr, hstatus⟩ := hav
    by_cases hba : b = a
    · simp [hba] at hr
    · exact ⟨r, by simpa [hba] using hr, hstatus⟩

section
variable {toRead missed : List Address} {stats : List (Address × RepackStatus)}

theorem Inv.read (h : Inv k s) (hround : s.round = some (.counting toRead stats missed))
    (a : Address) :
    RoomFor k { s with round := some (.counting (toRead.erase a)
      (((s.requests a).map fun r => (a, r.1.status)).toList ++ stats) missed) } := by
  have hroom := h.room
  rw [RoomFor, hround] at hroom
  refine ⟨hroom.1, fun b hb hav => ?_⟩
  obtain hread | hmissed | ⟨status, hstats, hstatus⟩ := hroom.2 b hb hav
  · by_cases hba : b = a
    · obtain ⟨r, hr, hstatus⟩ := hav
      have hfound : s.requests a = some r := hba ▸ hr
      exact .inr (.inr ⟨r.1.status, by simp [hba, hfound], hstatus⟩)
    · exact .inl ((List.mem_erase_of_ne hba).mpr hread)
  · exact .inr (.inl hmissed)
  · exact .inr (.inr ⟨status, List.mem_append_right _ hstats, hstatus⟩)

theorem Inv.readFails (h : Inv k s) (hround : s.round = some (.counting toRead stats missed))
    (hmissed : missed.length < k) (a : Address) :
    RoomFor k { s with round := some (.counting (toRead.erase a) stats (a :: missed)) } := by
  have hroom := h.room
  rw [RoomFor, hround] at hroom
  refine ⟨hmissed, fun b hb hav => ?_⟩
  obtain hread | hmissed | hstats := hroom.2 b hb hav
  · by_cases hba : b = a
    · exact .inr (.inl (hba ▸ List.mem_cons_self))
    · exact .inl ((List.mem_erase_of_ne hba).mpr hread)
  · exact .inr (.inl (List.mem_cons_of_mem _ hmissed))
  · exact .inr (.inr hstats)

end

theorem Inv.next (h : Inv k s) (e : Event) (he : Reads k s e) : Inv k (Promotion.next s e) := by
  cases e with
  | registerToIndex a =>
    rw [Promotion.next]
    split_ifs with ha
    · exact h.registerToIndex ha
    · exact h
  | insert a agent =>
    rw [Promotion.next]
    split_ifs
    · exact h.setRequest ⟨fun _ => rfl, nofun, nofun, nofun⟩ nofun
        fun hav => absurd hav (by simp [Promotion.Available])
    · exact h
  | switchOwner a owner =>
    rw [Promotion.next]
    split
    · exact h
    · next r old hr =>
      split_ifs with hq
      · exact h
      · exact h.setRequest (h.settled a r old hr) (fun ho => by_contra fun hp => hq ⟨ho, hp⟩)
          fun hav => ⟨_, hr, hav⟩
  | change a c =>
    rw [Promotion.next]
    split
    · exact h
    · next r owner hr =>
      split_ifs with hc
      · exact h.change hr hc (he _ hr)
      · exact h
  | removeFromIndex a =>
    rw [Promotion.next]
    exact h.keep rfl (h.nodup.erase a) h.requests fun b hb hav => ⟨List.mem_of_mem_erase hb, hav⟩
  | addToPendingQueue a | removeFromPendingQueue a =>
    rw [Promotion.next]
    split_ifs
    · exact h.keep rfl h.nodup h.requests fun b hb hav => ⟨hb, hav⟩
    · exact h
  | remove a => exact h.remove a
  | garbageCollect a agent =>
    rw [Promotion.next]
    split
    · exact h
    · next r owner hr =>
      split_ifs
      · exact h.garbageCollect hr agent _
      · exact h.garbageCollect hr agent _
  | lock =>
    rw [Promotion.next]
    split_ifs
    · exact h.withRound ⟨Nat.zero_le k, fun b hb _ => .inl hb⟩
    · exact h
  | read a =>
    rw [Promotion.next]
    split
    · next toRead stats missed hround =>
      split_ifs with ha
      · exact h.withRound (h.read hround a)
      · exact h
    · exact h
  | readFails a =>
    rw [Promotion.next]
    split
    · next toRead stats missed hround =>
      split_ifs with ha
      · have hmissed : missed.length < k := by simpa only [Reads, State.nbMissed, hround] using he
        exact h.withRound (h.readFails hround hmissed a)
      · exact h
    · exact h
  | promote =>
    rw [Promotion.next]
    split
    · next stats missed hround =>
      split_ifs with hn
      · exact h.withRound (h.promote hround hn rfl)
      · exact h.withRound trivial
    · exact h
  | switchStatus a agent =>
    rw [Promotion.next]
    split
    · next candidates dereferenced missed hround =>
      split_ifs with ha
      · extract_lets s'
        have htried : Inv k s' := h.oneTried hround ha (a :: dereferenced)
        split
        · next r hr =>
          obtain ⟨hmissed, hroom⟩ := h.oneLess hround ha
          exact htried.switchStatus rfl hmissed hroom hr agent
        · exact htried
      · exact h
    · exact h
  | switchFails a =>
    rw [Promotion.next]
    split
    · next candidates dereferenced missed hround =>
      split_ifs with ha
      · exact h.oneTried hround ha dereferenced
      · exact h
    · exact h
  | finish =>
    rw [Promotion.next]
    split
    · exact ⟨h.settled, h.queued, h.nodup, h.bound, trivial⟩
    · exact h
  | crash => exact h.withRound trivial

end

section
variable {s : State} {a : Address} {agent : String}

def TakenOver (a : Address) (s : State) : Prop :=
  ∀ r owner, s.requests a = some (r, owner) →
    r.status = .pending ∧ r.isExpandStarted = false ∧ owner ≠ .pendingQueue

theorem TakenOver.setRequest (h : TakenOver a s) {b : Address} {r : RepackRequest} {owner : Owner}
    (hb : b = a → r.status = .pending ∧ r.isExpandStarted = false ∧ owner ≠ .pendingQueue) :
    TakenOver a (Promotion.setRequest s b r owner) := by
  intro r' owner' hr
  by_cases hab : b = a
  · subst hab
    obtain ⟨rfl, rfl⟩ : r = r' ∧ owner = owner' := by simpa [Promotion.setRequest] using hr
    exact hb rfl
  · refine h r' owner' ?_
    simpa [Promotion.setRequest, Function.update_of_ne (Ne.symm hab)] using hr

theorem TakenOver.next (h : TakenOver a s) {e : Event} (he : e ≠ .switchOwner a .pendingQueue) :
    TakenOver a (Promotion.next s e) := by
  cases e with
  | insert b agent =>
    rw [Promotion.next]
    split_ifs
    · exact h.setRequest fun _ => ⟨rfl, rfl, nofun⟩
    · exact h
  | switchOwner b owner =>
    rw [Promotion.next]
    split
    · exact h
    · next r old hr =>
      split_ifs
      · exact h
      · refine h.setRequest fun hb => ?_
        subst hb
        obtain ⟨hpending, hstarted, -⟩ := h r old hr
        exact ⟨hpending, hstarted, fun ho => he (by rw [ho])⟩
  | change b c =>
    rw [Promotion.next]
    split
    · exact h
    · next r owner hr =>
      split_ifs with hc
      · refine h.setRequest fun hb => ?_
        subst hb
        obtain ⟨hpending, hstarted, -⟩ := h r owner hr
        cases c <;> simp [Change.comes, hpending, hstarted] at hc
      · exact h
  | remove b =>
    intro r owner hr
    by_cases hab : a = b
    · simp [Promotion.next, hab] at hr
    · exact h r owner (by simpa [Promotion.next, hab] using hr)
  | garbageCollect b agent =>
    rw [Promotion.next]
    split
    · exact h
    · next r owner hr =>
      have hs' : TakenOver a (Promotion.setRequest s b r (.agent agent)) :=
        h.setRequest fun hb => by
          obtain ⟨hpending, hstarted, -⟩ := h r owner (hb ▸ hr)
          exact ⟨hpending, hstarted, nofun⟩
      extract_lets s'
      split_ifs
      · exact hs'
      · exact hs'
  | switchStatus b agent =>
    rw [Promotion.next]
    split
    · split_ifs
      · extract_lets s'
        have hs' : TakenOver a s' := h
        split
        · next r hr => exact hs'.setRequest fun hb => absurd rfl (h r _ (hb ▸ hr)).2.2
        · exact hs'
      · exact h
    · exact h
  | _ =>
    rw [Promotion.next]
    repeat' split
    all_goals exact h

/-- The garbage collector puts a pending request back in the queue, and stays its owner. Such a
request is not promoted by anybody, as long as nobody gives it to the queue. -/
theorem collected_stays_pending {events : List Event}
    (hs : ∀ r owner, s.requests a = some (r, owner) →
      r.status = .pending ∧ r.isExpandStarted = false)
    (he : AllSteps next (fun _ e => e ≠ .switchOwner a .pendingQueue)
      (next s (.garbageCollect a agent)) events) :
    AllStates next (fun s => ∀ r owner, s.requests a = some (r, owner) → r.status = .pending)
      (next s (.garbageCollect a agent)) events := by
  refine he.allStates (I := TakenOver a) (fun _ _ h he => h.next he)
    (fun _ h r owner hr => (h r owner hr).1) ?_
  cases ha : s.requests a with
  | none =>
    intro r owner hr
    simp [next, ha] at hr
  | some held =>
    have htaken : TakenOver a (setRequest s a held.1 (.agent agent)) := by
      intro r owner hr
      obtain ⟨rfl, rfl⟩ : held.1 = r ∧ Owner.agent agent = owner := by
        simpa [setRequest] using hr
      obtain ⟨hpending, hstarted⟩ := hs held.1 held.2 ha
      exact ⟨hpending, hstarted, nofun⟩
    simp only [next, ha]
    split_ifs
    · exact htaken
    · exact htaken

end

def nothing : State := ⟨fun _ => none, [], [], none⟩

theorem nothing_inv (k : Nat) : Inv k nothing :=
  ⟨nofun, nofun, List.nodup_nil, Nat.zero_le _, trivial⟩

/-- Whatever the other processes do meanwhile, promotion leaves no more than two requests to be
processed, and one more for each request that the lock holder cannot read. -/
theorem nbAvailable_bounded {k : Nat} {events : List Event}
    (h : AllSteps next (Reads k) nothing events) :
    AllStates next (fun s => s.nbAvailable ≤ targetAvailableRequests + k) nothing events :=
  h.allStates (fun _ e hi he => hi.next e he) (fun _ hi => hi.bound) (nothing_inv k)

def queueRepack (a : Address) : List Event :=
  [.registerToIndex a, .insert a "agent", .addToPendingQueue a, .switchOwner a .pendingQueue]

/-- Three requests, two promoted, and a round that cannot read the second of them. -/
def overpromotion : List Event :=
  queueRepack "r1" ++ queueRepack "r2" ++ queueRepack "r3" ++
    [.lock, .read "r3", .read "r1", .read "r2", .promote, .switchStatus "r2" "agent",
      .switchStatus "r1" "agent", .finish, .lock, .read "r1", .readFails "r2", .read "r3", .promote,
      .switchStatus "r3" "agent", .finish]

theorem nbAvailable_overpromotion : (overpromotion.foldl next nothing).nbAvailable = 3 ∧
    AllStates next (fun s => s.nbAvailable ≤ targetAvailableRequests + 1) nothing overpromotion :=
  ⟨by decide, nbAvailable_bounded (by decide)⟩

def notQueued : State := [.registerToIndex "r1", .insert "r1" "agent"].foldl next nothing

def popped : List Event := [.lock, .read "r1", .promote, .switchStatus "r1" "agent", .finish]

/-- The request is not promoted, and it is not queued any more. -/
theorem collected_is_lost :
    (popped.foldl next (next notQueued (.garbageCollect "r1" "collector"))).pendingQueue = [] ∧
      AllStates next (fun s => ∀ r owner, s.requests "r1" = some (r, owner) → r.status = .pending)
        (next notQueued (.garbageCollect "r1" "collector")) popped := by
  refine ⟨by decide, collected_stays_pending ?_ ⟨nofun, nofun, nofun, nofun, nofun, trivial⟩⟩
  rintro r owner ⟨⟩
  exact ⟨rfl, rfl⟩

end Cta.Repack.Promotion

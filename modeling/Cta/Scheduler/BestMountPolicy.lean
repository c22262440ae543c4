import Mathlib.Data.List.Basic
import Mathlib.Data.UInt

/-! The mount policy that stands for those of a queue. -/
namespace Cta.Scheduler.BestMountPolicy

structure EntryLog where
  username : String
  host : String
  time : Int
  deriving DecidableEq, Repr

structure MountPolicy where
  name : String
  archivePriority : UInt64
  archiveMinRequestAge : UInt64
  retrievePriority : UInt64
  retrieveMinRequestAge : UInt64
  creationLog : EntryLog
  lastModificationLog : EntryLog
  comment : String
  deriving DecidableEq, Repr

inductive Failure where
  | emptyMountPolicyList
  deriving DecidableEq, Repr

def reduce {α : Type} (op : α → α → α) (init : α) (l : List α) : α := l.foldl op init

/-- The priority and the age of one direction, with the setters of the copy that is returned. -/
structure Criteria where
  priority : MountPolicy → UInt64
  minRequestAge : MountPolicy → UInt64
  setPriority : UInt64 → MountPolicy → MountPolicy
  setMinRequestAge : UInt64 → MountPolicy → MountPolicy
  setPriority_self : ∀ mp, setPriority (priority mp) mp = mp
  setMinRequestAge_self : ∀ mp, setMinRequestAge (minRequestAge mp) mp = mp

def archive : Criteria where
  priority := MountPolicy.archivePriority
  minRequestAge := MountPolicy.archiveMinRequestAge
  setPriority archivePriority mp := { mp with archivePriority }
  setMinRequestAge archiveMinRequestAge mp := { mp with archiveMinRequestAge }
  setPriority_self _ := rfl
  setMinRequestAge_self _ := rfl

def retrieve : Criteria where
  priority := MountPolicy.retrievePriority
  minRequestAge := MountPolicy.retrieveMinRequestAge
  setPriority retrievePriority mp := { mp with retrievePriority }
  setMinRequestAge retrieveMinRequestAge mp := { mp with retrieveMinRequestAge }
  setPriority_self _ := rfl
  setMinRequestAge_self _ := rfl

namespace Criteria

def best (c : Criteria) (mp1 mp2 : MountPolicy) : MountPolicy :=
  let mp := if c.priority mp1 > c.priority mp2 then c.setPriority (c.priority mp1) mp1 else mp1
  if c.minRequestAge mp1 < c.minRequestAge mp2 then c.setMinRequestAge (c.minRequestAge mp1) mp
  else mp

def createBestMountPolicy (c : Criteria) : List MountPolicy → Except Failure MountPolicy
  | [] => .error .emptyMountPolicyList
  | front :: rest => .ok (reduce c.best front rest)

end Criteria

def createBestArchiveMountPolicy : List MountPolicy → Except Failure MountPolicy :=
  archive.createBestMountPolicy

def createBestRetrieveMountPolicy : List MountPolicy → Except Failure MountPolicy :=
  retrieve.createBestMountPolicy

def chosenName (choose : MountPolicy → MountPolicy → MountPolicy) :
    List MountPolicy → Except Failure String
  | [] => .error .emptyMountPolicyList
  | front :: rest => .ok (reduce choose front rest).name

def getHighestPriorityArchiveMountPolicyName : List MountPolicy → Except Failure String :=
  chosenName fun mp1 mp2 => if mp2.archivePriority > mp1.archivePriority then mp2 else mp1

def getLowestRequestAgeArchiveMountPolicyName : List MountPolicy → Except Failure String :=
  chosenName fun mp1 mp2 =>
    if mp1.archiveMinRequestAge < mp2.archiveMinRequestAge then mp1 else mp2

def getHighestPriorityRetrieveMountPolicyName : List MountPolicy → Except Failure String :=
  chosenName fun mp1 mp2 => if mp1.retrievePriority > mp2.retrievePriority then mp1 else mp2

def getLowestRequestAgeRetrieveMountPolicyName : List MountPolicy → Except Failure String :=
  chosenName fun mp1 mp2 =>
    if mp1.retrieveMinRequestAge < mp2.retrieveMinRequestAge then mp1 else mp2

/-- The policy has the highest priority and the lowest age of a list. -/
structure IsBest (c : Criteria) (policies : List MountPolicy) (mp : MountPolicy) : Prop where
  priority : ∃ x ∈ policies, c.priority x = c.priority mp
  highest : ∀ x ∈ policies, c.priority x ≤ c.priority mp
  age : ∃ x ∈ policies, c.minRequestAge x = c.minRequestAge mp
  lowest : ∀ x ∈ policies, c.minRequestAge mp ≤ c.minRequestAge x

def ReturnsBest (c : Criteria) (create : List MountPolicy → Except Failure MountPolicy)
    (policies : List MountPolicy) : Prop :=
  ∃ mp, create policies = .ok mp ∧ IsBest c policies mp

/-- In whatever order the policies come, the result has the same priority and age. -/
def AnyOrder (c : Criteria) (create : List MountPolicy → Except Failure MountPolicy)
    (policies : List MountPolicy) : Prop :=
  ∀ l l', l.Perm policies → l'.Perm policies → ∀ mp mp', create l = .ok mp → create l' = .ok mp' →
    c.priority mp = c.priority mp' ∧ c.minRequestAge mp = c.minRequestAge mp'

def FirstIsBest (c : Criteria) (policies : List MountPolicy) : Prop :=
  ∃ front ∈ policies.head?, ∀ x ∈ policies,
    c.priority x ≤ c.priority front ∧ c.minRequestAge front ≤ c.minRequestAge x

def AllAgree (c : Criteria) (policies : List MountPolicy) : Prop :=
  ∀ x ∈ policies, ∀ y ∈ policies,
    c.priority x = c.priority y ∧ c.minRequestAge x = c.minRequestAge y

variable {c : Criteria} {policies : List MountPolicy} {mp front : MountPolicy}

theorem best_eq (c : Criteria) (mp1 mp2 : MountPolicy) : c.best mp1 mp2 = mp1 := by
  unfold Criteria.best
  simp only [c.setPriority_self, ite_self, c.setMinRequestAge_self]

theorem reduce_best (c : Criteria) (front : MountPolicy) (rest : List MountPolicy) :
    reduce c.best front rest = front := by
  unfold reduce
  induction rest with
  | nil => rfl
  | cons mp rest ih => rw [List.foldl_cons, best_eq, ih]

theorem createBestMountPolicy_eq_ok :
    c.createBestMountPolicy policies = .ok mp ↔ policies.head? = some mp := by
  cases policies with
  | nil => simp [Criteria.createBestMountPolicy]
  | cons front rest => simp [Criteria.createBestMountPolicy, reduce_best]

theorem isBest_head (h : policies.head? = some front) :
    IsBest c policies front ↔ ∀ x ∈ policies,
      c.priority x ≤ c.priority front ∧ c.minRequestAge front ≤ c.minRequestAge x := by
  have hfront := List.mem_of_mem_head? h
  constructor
  · exact fun hbest x hx => ⟨hbest.highest x hx, hbest.lowest x hx⟩
  · intro hall
    exact ⟨⟨front, hfront, rfl⟩, fun x hx => (hall x hx).1, ⟨front, hfront, rfl⟩,
      fun x hx => (hall x hx).2⟩

theorem returnsBest_iff (c : Criteria) (policies : List MountPolicy) :
    ReturnsBest c c.createBestMountPolicy policies ↔ FirstIsBest c policies := by
  unfold ReturnsBest FirstIsBest
  simp only [createBestMountPolicy_eq_ok, Option.mem_def]
  exact exists_congr fun front => and_congr_right isBest_head

theorem exists_perm_head (h : mp ∈ policies) : ∃ l : List MountPolicy, l.Perm policies ∧ l.head? = some mp := by
  obtain ⟨before, after, rfl⟩ := List.append_of_mem h
  exact ⟨mp :: (before ++ after), List.perm_middle.symm, rfl⟩

theorem anyOrder_iff (c : Criteria) (policies : List MountPolicy) :
    AnyOrder c c.createBestMountPolicy policies ↔ AllAgree c policies := by
  constructor
  · intro h x hx y hy
    obtain ⟨l, hl, hlx⟩ := exists_perm_head hx
    obtain ⟨l', hl', hly⟩ := exists_perm_head hy
    exact h l l' hl hl' x y (createBestMountPolicy_eq_ok.mpr hlx)
      (createBestMountPolicy_eq_ok.mpr hly)
  · intro h l l' hl hl' mp mp' hmp hmp'
    have hhead := createBestMountPolicy_eq_ok.mp hmp
    have hhead' := createBestMountPolicy_eq_ok.mp hmp'
    exact h mp (hl.mem_iff.mp (List.mem_of_mem_head? hhead)) mp'
      (hl'.mem_iff.mp (List.mem_of_mem_head? hhead'))

/-- In either direction the best policy is returned if and only if it is the first one of the list,
and the order does not matter if and only if the policies agree. -/
theorem best_mount_policy_iff (policies : List MountPolicy) :
    (ReturnsBest archive createBestArchiveMountPolicy policies ↔ FirstIsBest archive policies) ∧
      (ReturnsBest retrieve createBestRetrieveMountPolicy policies ↔
        FirstIsBest retrieve policies) ∧
      (AnyOrder archive createBestArchiveMountPolicy policies ↔ AllAgree archive policies) ∧
      (AnyOrder retrieve createBestRetrieveMountPolicy policies ↔ AllAgree retrieve policies) :=
  ⟨returnsBest_iff archive policies, returnsBest_iff retrieve policies,
    anyOrder_iff archive policies, anyOrder_iff retrieve policies⟩

def policy (priority minRequestAge : UInt64) : MountPolicy where
  name := ""
  archivePriority := priority
  archiveMinRequestAge := minRequestAge
  retrievePriority := priority
  retrieveMinRequestAge := minRequestAge
  creationLog := ⟨"", "", 0⟩
  lastModificationLog := ⟨"", "", 0⟩
  comment := ""

theorem second_policy_not_returned :
    (¬∀ policies, policies ≠ [] → ReturnsBest archive createBestArchiveMountPolicy policies) ∧
      ¬∀ policies, policies ≠ [] →
        ReturnsBest retrieve createBestRetrieveMountPolicy policies := by
  constructor
  · intro h
    obtain ⟨mp, hmp, hbest⟩ := h [policy 1 300, policy 2 60] nofun
    cases hmp
    exact absurd (hbest.highest (policy 2 60) (by simp)) (by decide)
  · intro h
    obtain ⟨mp, hmp, hbest⟩ := h [policy 1 300, policy 2 60] nofun
    cases hmp
    exact absurd (hbest.highest (policy 2 60) (by simp)) (by decide)

/-- A choice between two that never takes the one with the smaller key comes to a policy with the
largest. -/
theorem reduce_choose (key : MountPolicy → UInt64)
    (choose : MountPolicy → MountPolicy → MountPolicy)
    (hchoose : ∀ mp1 mp2, (choose mp1 mp2 = mp1 ∧ key mp2 ≤ key mp1) ∨
      (choose mp1 mp2 = mp2 ∧ key mp1 ≤ key mp2)) (front : MountPolicy)
    (rest : List MountPolicy) :
    reduce choose front rest ∈ front :: rest ∧
      ∀ x ∈ front :: rest, key x ≤ key (reduce choose front rest) := by
  unfold reduce
  induction rest generalizing front with
  | nil => simp
  | cons second rest ih =>
    obtain ⟨hmem, hall⟩ := ih (choose front second)
    rw [List.foldl_cons]
    have hchosen : choose front second ∈ [front, second] ∧
        ∀ x ∈ [front, second], key x ≤ key (choose front second) := by
      cases hchoose front second with
      | inl h => simp [h.1, h.2]
      | inr h => simp [h.1, h.2]
    constructor
    · cases List.mem_cons.mp hmem with
      | inl hhead =>
        rw [hhead]
        exact List.mem_append_left rest hchosen.1
      | inr hrest => exact List.mem_append_right [front, second] hrest
    · intro x hx
      cases List.mem_append.mp (show x ∈ [front, second] ++ rest from hx) with
      | inl htwo => exact UInt64.le_trans (hchosen.2 x htwo) (hall _ List.mem_cons_self)
      | inr hrest => exact hall x (List.mem_cons_of_mem _ hrest)

theorem highest_priority_name {name : String} :
    (getHighestPriorityArchiveMountPolicyName policies = .ok name →
      ∃ mp ∈ policies, mp.name = name ∧ ∀ x ∈ policies, x.archivePriority ≤ mp.archivePriority) ∧
    (getHighestPriorityRetrieveMountPolicyName policies = .ok name →
      ∃ mp ∈ policies, mp.name = name ∧
        ∀ x ∈ policies, x.retrievePriority ≤ mp.retrievePriority) := by
  cases policies with
  | nil => exact ⟨nofun, nofun⟩
  | cons front rest =>
    constructor
    · rintro ⟨⟩
      obtain ⟨hmem, hall⟩ := reduce_choose MountPolicy.archivePriority
        (fun mp1 mp2 => if mp2.archivePriority > mp1.archivePriority then mp2 else mp1)
        (fun mp1 mp2 => by
          by_cases h : mp2.archivePriority > mp1.archivePriority
          · exact .inr ⟨if_pos h, UInt64.le_of_lt h⟩
          · exact .inl ⟨if_neg h, UInt64.not_lt.mp h⟩) front rest
      exact ⟨_, hmem, rfl, hall⟩
    · rintro ⟨⟩
      obtain ⟨hmem, hall⟩ := reduce_choose MountPolicy.retrievePriority
        (fun mp1 mp2 => if mp1.retrievePriority > mp2.retrievePriority then mp1 else mp2)
        (fun mp1 mp2 => by
          by_cases h : mp1.retrievePriority > mp2.retrievePriority
          · exact .inl ⟨if_pos h, UInt64.le_of_lt h⟩
          · exact .inr ⟨if_neg h, UInt64.not_lt.mp h⟩) front rest
      exact ⟨_, hmem, rfl, hall⟩

end Cta.Scheduler.BestMountPolicy

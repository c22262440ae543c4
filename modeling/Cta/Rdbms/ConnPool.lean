import Mathlib.Data.List.Basic
import Cta.Lib.Runs

/-! The pool of database connections: the loans of its connections to `Conn` objects. -/
namespace Cta.Rdbms
open Cta.Lib.Runs

structure Conn where
  connAndStmts : Option Nat := none
  pool : Bool := false
  deriving DecidableEq, Repr

/-- What the calls on a connection that is given back come to, before the mutex is locked. -/
inductive Returned
  | closed | commitFailed | setAutocommitModeFailed | committed
  deriving DecidableEq, Repr

inductive Caller
  | reset | destructor | assignment (rhs : Nat)
  deriving DecidableEq, Repr

/-- `returning`: the object has given its connection to `returnConn`, which has not locked the mutex
yet. -/
inductive ConnObject
  | live (conn : Conn)
  | returning (connAndStmts : Nat) (returned : Returned) (caller : Caller)
  | destroyed
  deriving DecidableEq, Repr

/-- Connections are numbers, `created` is the next one. `conns` are the `Conn` objects there have
been; `waiting` the threads in the wait of `getConn`, `woken` those that left it and have not locked
the mutex again. -/
structure ConnPool where
  maxNbConns : Nat
  connsAndStmts : List Nat := []
  nbConnsOnLoan : Nat := 0
  created : Nat := 0
  conns : List ConnObject := []
  waiting : List Nat := []
  woken : List Nat := []
  wouldHaveReachedMinusOne : Bool := false
  deriving DecidableEq, Repr

/-- What the database answers during `getConn`: that a connection can be made, that the one taken
from the pool is open, and that one can be made in its place. -/
structure Answers where
  creates : Bool
  isOpen : Bool
  createsAgain : Bool
  deriving DecidableEq, Repr

namespace ConnPool

def takeFront (s : ConnPool) (front : Nat) (rest : List Nat) (answers : Answers) : ConnPool :=
  let t := { s with connsAndStmts := rest, nbConnsOnLoan := s.nbConnsOnLoan + 1 }
  if answers.isOpen then { t with conns := t.conns ++ [.live ⟨some front, true⟩] }
  else if answers.createsAgain then
    { t with created := t.created + 1, conns := t.conns ++ [.live ⟨some t.created, true⟩] }
  else t

def takeConn (s : ConnPool) (thread : Nat) (answers : Answers) : ConnPool :=
  match s.connsAndStmts with
  | front :: rest => s.takeFront front rest answers
  | [] =>
    if s.nbConnsOnLoan = s.maxNbConns then { s with waiting := s.waiting ++ [thread] }
    else if answers.creates then
      { s with created := s.created + 1 }.takeFront s.created [] answers
    else s

def getConn (s : ConnPool) (thread : Nat) (answers : Answers) : ConnPool :=
  if s.maxNbConns = 0 then s else s.takeConn thread answers

def wake (s : ConnPool) (index : Nat) : ConnPool :=
  match s.waiting[index]? with
  | none => s
  | some thread =>
    { s with waiting := s.waiting.eraseIdx index, woken := s.woken ++ [thread] }

def signal (s : ConnPool) (index : Nat) : ConnPool := s.wake (index % s.waiting.length)

def resume (s : ConnPool) (index : Nat) (answers : Answers) : ConnPool :=
  match s.woken[index]? with
  | none => s
  | some thread => { s with woken := s.woken.eraseIdx index }.takeConn thread answers

def takeOffLoan (s : ConnPool) (connsAndStmts : List Nat) (signalled : Nat) : ConnPool × Bool :=
  if s.nbConnsOnLoan = 0 then ({ s with wouldHaveReachedMinusOne := true }, true)
  else
    ({ s with nbConnsOnLoan := s.nbConnsOnLoan - 1, connsAndStmts := connsAndStmts }.signal
      signalled, false)

def returnConn (s : ConnPool) (connAndStmts : Nat) (returned : Returned) (signalled : Nat) :
    ConnPool × Bool :=
  match returned with
  | .setAutocommitModeFailed => (s, true)
  | .committed => s.takeOffLoan (s.connsAndStmts ++ [connAndStmts]) signalled
  | .closed | .commitFailed => { s with connsAndStmts := [] }.takeOffLoan [] signalled

def setObject (s : ConnPool) (o : Nat) (object : ConnObject) : ConnPool :=
  { s with conns := s.conns.set o object }

def finish (s : ConnPool) (o : Nat) (caller : Caller) (threw : Bool) : ConnPool :=
  match caller with
  | .reset => s.setObject o (.live {})
  | .destructor => s.setObject o .destroyed
  | .assignment rhs =>
    match threw, s.conns[rhs]? with
    | false, some (.live conn) => (s.setObject o (.live conn)).setObject rhs (.live {})
    | _, _ => s.setObject o (.live { pool := true })

def giveBack (s : ConnPool) (o : Nat) (conn : Conn) (returned : Returned) (caller : Caller) :
    ConnPool :=
  match conn.pool, conn.connAndStmts with
  | true, some connAndStmts => s.setObject o (.returning connAndStmts returned caller)
  | _, _ => s.finish o caller false

def reset (s : ConnPool) (o : Nat) (returned : Returned) (caller : Caller) : ConnPool :=
  match s.conns[o]? with
  | some (.live conn) => s.giveBack o conn returned caller
  | _ => s

def assign (s : ConnPool) (o rhs : Nat) (returned : Returned) : ConnPool :=
  match s.conns[o]?, s.conns[rhs]? with
  | some (.live conn), some (.live other) =>
    if other.connAndStmts ≠ conn.connAndStmts then
      s.giveBack o conn returned (.assignment rhs)
    else s
  | _, _ => s

def moveConstruct (s : ConnPool) (other : Nat) : ConnPool :=
  match s.conns[other]? with
  | some (.live conn) =>
    { s with conns := s.conns.set other (.live {}) ++ [.live conn] }
  | _ => s

def locked (s : ConnPool) (o : Nat) (signalled : Nat) : ConnPool :=
  match s.conns[o]? with
  | some (.returning connAndStmts returned caller) =>
    let (t, threw) := s.returnConn connAndStmts returned signalled
    t.finish o caller threw
  | _ => s

end ConnPool

inductive Step
  | getConn (thread : Nat) (answers : Answers)
  | wake (index : Nat)
  | resume (index : Nat) (answers : Answers)
  | construct
  | moveConstruct (other : Nat)
  | reset (o : Nat) (returned : Returned)
  | destroy (o : Nat) (returned : Returned)
  | assign (o rhs : Nat) (returned : Returned)
  | locked (o : Nat) (signalled : Nat)
  deriving DecidableEq, Repr

namespace ConnPool
variable {s t : ConnPool}

def next (s : ConnPool) : Step → ConnPool
  | .getConn thread answers => s.getConn thread answers
  | .wake index => s.wake index
  | .resume index answers => s.resume index answers
  | .construct => { s with conns := s.conns ++ [.live {}] }
  | .moveConstruct other => s.moveConstruct other
  | .reset o returned => s.reset o returned .reset
  | .destroy o returned => s.reset o returned .destructor
  | .assign o rhs returned => s.assign o rhs returned
  | .locked o signalled => s.locked o signalled

def start (maxNbConns : Nat) : ConnPool := { maxNbConns := maxNbConns }

end ConnPool

/-- The object has a connection of the pool; until it is back in the pool, also while it is being
given back. -/
def ConnObject.holds : ConnObject → Bool
  | .live conn => conn.pool && conn.connAndStmts.isSome
  | .returning _ _ _ => true
  | .destroyed => false

def ConnObject.returned : ConnObject → Option Returned
  | .returning _ returned _ => some returned
  | .live _ | .destroyed => none

namespace ConnPool
variable {s t : ConnPool}

def holders (s : ConnPool) : Nat := s.conns.countP (·.holds)

/-- The loans are those of the `Conn` objects, the connections are within the limit, and a thread
that waits with no wake-up on its way waits for connections that are all on loan. -/
structure Balanced (s : ConnPool) : Prop where
  onLoan : s.nbConnsOnLoan = s.holders
  limit : s.connsAndStmts.length + s.nbConnsOnLoan ≤ s.maxNbConns
  neverMinusOne : s.wouldHaveReachedMinusOne = false
  leftWaiting : s.waiting ≠ [] → s.woken = [] → s.holders = s.maxNbConns

def LosesLoan (s : ConnPool) (answers : Answers) : Prop :=
  (s.connsAndStmts ≠ [] ∨ s.nbConnsOnLoan ≠ s.maxNbConns ∧ answers.creates = true) ∧
    answers.isOpen = false ∧ answers.createsAgain = false

/-- A woken thread cannot make a connection, and a thread still waits for which there is a
connection, but no other wake-up. -/
def LosesWakeUp (s : ConnPool) (answers : Answers) : Prop :=
  s.connsAndStmts = [] ∧ s.nbConnsOnLoan ≠ s.maxNbConns ∧ answers.creates = false ∧
    s.waiting ≠ [] ∧ s.nbConnsOnLoan + s.woken.length ≤ s.maxNbConns

def LosesNothing (s : ConnPool) : Step → Prop
  | .getConn _ answers => ¬ s.LosesLoan answers
  | .resume _ answers => ¬ s.LosesLoan answers ∧ ¬ s.LosesWakeUp answers
  | .locked o _ => s.conns[o]?.bind (·.returned) ≠ some .setAutocommitModeFailed
  | _ => True

instance {answers : Answers} : Decidable (s.LosesLoan answers) :=
  inferInstanceAs (Decidable (_ ∧ _))

instance {answers : Answers} : Decidable (s.LosesWakeUp answers) :=
  inferInstanceAs (Decidable (_ ∧ _))

instance : DecidablePred s.LosesNothing
  | .getConn _ answers => inferInstanceAs (Decidable (¬ s.LosesLoan answers))
  | .resume _ answers =>
    inferInstanceAs (Decidable (¬ s.LosesLoan answers ∧ ¬ s.LosesWakeUp answers))
  | .locked o _ => inferInstanceAs (Decidable (s.conns[o]?.bind (·.returned) ≠ _))
  | .wake _ | .construct | .moveConstruct _ | .reset _ _ | .destroy _ _ | .assign _ _ _ =>
    .isTrue trivial

structure Sound (s : ConnPool) : Prop where
  onLoan : s.nbConnsOnLoan = s.holders
  limit : s.connsAndStmts.length + s.nbConnsOnLoan ≤ s.maxNbConns
  neverMinusOne : s.wouldHaveReachedMinusOne = false
  awaited : s.waiting ≠ [] → s.maxNbConns ≤ s.nbConnsOnLoan + s.woken.length

theorem Sound.balanced (hs : s.Sound) : s.Balanced := by
  refine ⟨hs.onLoan, hs.limit, hs.neverMinusOne, fun hwaiting hwoken => ?_⟩
  have hall := hs.awaited hwaiting
  have hlimit := hs.limit
  have hloan := hs.onLoan
  rw [hwoken, List.length_nil] at hall
  omega

theorem countP_set_add {α : Type} {p : α → Bool} {l : List α} {i : Nat} {a b : α}
    (ha : l[i]? = some a) :
    (l.set i b).countP p + (p a).toNat = l.countP p + (p b).toNat := by
  induction l generalizing i with
  | nil => simp at ha
  | cons x l ih =>
    cases i with
    | zero =>
      have hx : x = a := by simpa using ha
      subst hx
      rw [List.set_cons_zero, List.countP_cons, List.countP_cons]
      cases p x <;> cases p b <;> simp
    | succ i =>
      have hrest := ih (i := i) (by simpa using ha)
      rw [List.set_cons_succ, List.countP_cons, List.countP_cons]
      omega

theorem holders_setObject (new : ConnObject) {o : Nat} {old : ConnObject}
    (hold : s.conns[o]? = some old) :
    (s.setObject o new).holders + old.holds.toNat = s.holders + new.holds.toNat :=
  countP_set_add hold

theorem finish_frame {o : Nat} {caller : Caller} {threw : Bool} :
    s.finish o caller threw = { s with conns := (s.finish o caller threw).conns } := by
  unfold finish setObject
  split
  · rfl
  · rfl
  · split <;> rfl

theorem holders_finish (caller : Caller) (threw : Bool) {o : Nat} {old : ConnObject}
    (hold : s.conns[o]? = some old)
    (hother : ∀ conn rhs, caller = .assignment rhs → s.conns[rhs]? = some (.live conn) →
      rhs ≠ o) :
    (s.finish o caller threw).holders + old.holds.toNat = s.holders := by
  unfold finish
  cases caller with
  | reset => exact holders_setObject _ hold
  | destructor => exact holders_setObject _ hold
  | assignment rhs =>
    simp only
    split
    · rename_i conn hrhs
      have hne := hother conn rhs rfl hrhs
      have hfirst := holders_setObject (.live conn) hold
      have hstill : (s.setObject o (.live conn)).conns[rhs]? = some (.live conn) := by
        rw [setObject, List.getElem?_set_ne hne.symm, hrhs]
      have hsecond := holders_setObject (.live {}) hstill
      have hnone : (ConnObject.live {}).holds.toNat = 0 := rfl
      omega
    · exact holders_setObject _ hold

/-- A thread about to take a connection may be the one whose wake-up the others wait for. -/
structure Taking (s : ConnPool) : Prop where
  onLoan : s.nbConnsOnLoan = s.holders
  limit : s.connsAndStmts.length + s.nbConnsOnLoan ≤ s.maxNbConns
  neverMinusOne : s.wouldHaveReachedMinusOne = false
  awaited : s.waiting ≠ [] → s.maxNbConns ≤ s.nbConnsOnLoan + s.woken.length + 1

theorem Sound.taking (hs : s.Sound) : s.Taking :=
  ⟨hs.onLoan, hs.limit, hs.neverMinusOne, fun h => Nat.le_succ_of_le (hs.awaited h)⟩

theorem holders_append (conn : ConnObject) (ht : t.conns = s.conns ++ [conn]) :
    t.holders = s.holders + conn.holds.toNat := by
  unfold holders
  rw [ht, List.countP_append, List.countP_singleton]
  cases conn.holds <;> rfl

theorem Taking.takeFront (hs : s.Taking) {front : Nat} {rest : List Nat} {answers : Answers}
    (hrest : rest.length + s.nbConnsOnLoan < s.maxNbConns)
    (hopen : answers.isOpen = true ∨ answers.createsAgain = true) :
    (s.takeFront front rest answers).Sound := by
  have hheld (c n : Nat) : Sound { s with
      connsAndStmts := rest, nbConnsOnLoan := s.nbConnsOnLoan + 1
      created := n, conns := s.conns ++ [.live ⟨some c, true⟩] } := by
    refine ⟨?_, ?_, hs.neverMinusOne, fun hwaiting => ?_⟩
    · rw [holders_append _ rfl, ← hs.onLoan]
      rfl
    · simp only
      omega
    · have hawaited := hs.awaited hwaiting
      simp only
      omega
  unfold ConnPool.takeFront
  simp only
  cases hisOpen : answers.isOpen with
  | true => exact hheld front s.created
  | false =>
    cases hagain : answers.createsAgain with
    | true => exact hheld s.created (s.created + 1)
    | false => simp [hisOpen, hagain] at hopen

theorem Taking.takeConn (hs : s.Taking) {thread : Nat} {answers : Answers}
    (hloan : ¬ s.LosesLoan answers)
    (hwakeUp : s.connsAndStmts = [] → s.nbConnsOnLoan ≠ s.maxNbConns → answers.creates = false →
      s.waiting ≠ [] → s.maxNbConns ≤ s.nbConnsOnLoan + s.woken.length) :
    (s.takeConn thread answers).Sound := by
  have hopen (htaken : s.connsAndStmts ≠ [] ∨
      s.nbConnsOnLoan ≠ s.maxNbConns ∧ answers.creates = true) :
      answers.isOpen = true ∨ answers.createsAgain = true := by
    by_contra hclosed
    rw [not_or, Bool.not_eq_true, Bool.not_eq_true] at hclosed
    exact hloan ⟨htaken, hclosed⟩
  have hlimit := hs.limit
  unfold ConnPool.takeConn
  split
  · rename_i front rest hconns
    rw [hconns, List.length_cons] at hlimit
    exact hs.takeFront (by omega) (hopen (.inl (by simp [hconns])))
  · rename_i hconns
    rw [hconns, List.length_nil] at hlimit
    split
    · rename_i hall
      exact ⟨hs.onLoan, hs.limit, hs.neverMinusOne, fun _ => by simp only; omega⟩
    · rename_i hroom
      split
      · rename_i hcreates
        have hmade : Taking { s with created := s.created + 1 } :=
          ⟨hs.onLoan, hs.limit, hs.neverMinusOne, hs.awaited⟩
        refine hmade.takeFront ?_ (hopen (.inr ⟨hroom, hcreates⟩))
        simp only [List.length_nil]
        omega
      · rename_i hcreates
        exact ⟨hs.onLoan, hs.limit, hs.neverMinusOne,
          hwakeUp hconns hroom (Bool.eq_false_iff.mpr hcreates)⟩

theorem Sound.getConn (hs : s.Sound) {thread : Nat} {answers : Answers}
    (hloan : ¬ s.LosesLoan answers) : (s.getConn thread answers).Sound := by
  unfold ConnPool.getConn
  split
  · exact hs
  · exact hs.taking.takeConn hloan fun _ _ _ hwaiting => hs.awaited hwaiting

theorem Sound.resume (hs : s.Sound) {index : Nat} {answers : Answers}
    (hloan : ¬ s.LosesLoan answers) (hwakeUp : ¬ s.LosesWakeUp answers) :
    (s.resume index answers).Sound := by
  unfold ConnPool.resume
  split
  · exact hs
  · rename_i thread hthread
    have hindex := (List.getElem?_eq_some_iff.mp hthread).1
    have hlength := List.length_eraseIdx_of_lt hindex
    have htaking : Taking { s with woken := s.woken.eraseIdx index } := by
      refine ⟨hs.onLoan, hs.limit, hs.neverMinusOne, fun hwaiting => ?_⟩
      have hawaited := hs.awaited hwaiting
      simp only [hlength]
      omega
    refine htaking.takeConn hloan fun hconns hroom hcreates hwaiting => ?_
    have henough : ¬ s.nbConnsOnLoan + s.woken.length ≤ s.maxNbConns :=
      fun hfew => hwakeUp ⟨hconns, hroom, hcreates, hwaiting, hfew⟩
    simp only [hlength]
    omega

theorem wake_spec (s : ConnPool) (index : Nat) :
    s.wake index = { s with waiting := (s.wake index).waiting, woken := (s.wake index).woken } ∧
      s.woken.length ≤ (s.wake index).woken.length ∧
      (s.waiting = [] → (s.wake index).waiting = []) ∧
      (index < s.waiting.length → (s.wake index).woken.length = s.woken.length + 1) := by
  unfold wake
  split
  · rename_i hnone
    have hlength := List.getElem?_eq_none_iff.mp hnone
    exact ⟨rfl, Nat.le_refl _, fun h => h, fun hlt => by omega⟩
  · refine ⟨rfl, ?_, fun h => ?_, fun _ => List.length_append⟩
    · simp only [List.length_append]
      omega
    · simp only [h, List.eraseIdx_nil]

theorem Sound.wake (hs : s.Sound) {index : Nat} : (s.wake index).Sound := by
  obtain ⟨hframe, hwoken, hnone, -⟩ := s.wake_spec index
  rw [hframe]
  refine ⟨hs.onLoan, hs.limit, hs.neverMinusOne, fun hwaiting => ?_⟩
  have hawaited := hs.awaited fun h => hwaiting (hnone h)
  simp only
  omega

theorem takeOffLoan_spec (s : ConnPool) (connsAndStmts : List Nat) (signalled : Nat)
    (hloan : s.nbConnsOnLoan ≠ 0) :
    ∃ waiting woken, s.takeOffLoan connsAndStmts signalled = ({ s with
      nbConnsOnLoan := s.nbConnsOnLoan - 1, connsAndStmts := connsAndStmts
      waiting := waiting, woken := woken }, false) ∧
      (waiting ≠ [] → s.waiting ≠ [] ∧ woken.length = s.woken.length + 1) := by
  unfold takeOffLoan signal
  rw [if_neg hloan]
  simp only
  obtain ⟨hframe, -, hnone, hone⟩ := wake_spec
    { s with nbConnsOnLoan := s.nbConnsOnLoan - 1, connsAndStmts := connsAndStmts }
    (signalled % s.waiting.length)
  refine ⟨_, _, Prod.ext hframe rfl, fun hwaiting => ?_⟩
  have hsome : s.waiting ≠ [] := fun h => hwaiting (hnone h)
  exact ⟨hsome, hone (Nat.mod_lt _ (List.length_pos_iff.mpr hsome))⟩

theorem Sound.returned (hs : s.Sound) {o connAndStmts signalled : Nat} {returned : Returned}
    {caller : Caller} {conns : List Nat}
    (ho : s.conns[o]? = some (.returning connAndStmts returned caller))
    (hconns : conns.length ≤ s.connsAndStmts.length + 1) :
    ((s.takeOffLoan conns signalled).1.finish o caller (s.takeOffLoan conns signalled).2).Sound := by
  have hone : (ConnObject.returning connAndStmts returned caller).holds.toNat = 1 := rfl
  have hheld : 0 < s.holders := List.countP_pos_iff.mpr ⟨_, List.mem_of_getElem? ho, rfl⟩
  have honLoan := hs.onLoan
  have hlimit := hs.limit
  obtain ⟨waiting, woken, hreturn, hwoken⟩ := takeOffLoan_spec s conns signalled (by omega)
  rw [hreturn, finish_frame]
  refine ⟨?_, ?_, hs.neverMinusOne, fun hwaiting => ?_⟩
  · have hgone := holders_finish (s := { s with
        nbConnsOnLoan := s.nbConnsOnLoan - 1, connsAndStmts := conns
        waiting := waiting, woken := woken }) caller false ho
      fun conn rhs _ hrhs hsame => by
        rw [hsame, ho] at hrhs
        cases hrhs
    rw [hone] at hgone
    exact Nat.sub_eq_of_eq_add (honLoan.trans hgone.symm)
  · simp only
    omega
  · obtain ⟨hsome, hlength⟩ := hwoken hwaiting
    have hawaited := hs.awaited hsome
    simp only [hlength]
    omega

theorem Sound.locked (hs : s.Sound) {o signalled : Nat}
    (hset : s.conns[o]?.bind (·.returned) ≠ some .setAutocommitModeFailed) :
    (s.locked o signalled).Sound := by
  unfold ConnPool.locked
  split
  · rename_i connAndStmts returned caller ho
    have hcleared : Sound { s with connsAndStmts := [] } :=
      ⟨hs.onLoan, by simpa using Nat.le_trans (Nat.le_add_left _ _) hs.limit,
        hs.neverMinusOne, hs.awaited⟩
    cases returned with
    | setAutocommitModeFailed => exact absurd (by rw [ho]; rfl) hset
    | closed | commitFailed => exact hcleared.returned ho (Nat.zero_le _)
    | committed => exact hs.returned ho (by simp)
  · exact hs

theorem Sound.withObjects (hs : s.Sound) {conns : List ConnObject}
    (hheld : holders { s with conns := conns } = s.holders) :
    Sound { s with conns := conns } :=
  ⟨hs.onLoan.trans hheld.symm, hs.limit, hs.neverMinusOne, hs.awaited⟩

theorem Sound.giveBack (hs : s.Sound) {o : Nat} {conn : Conn} {returned : Returned}
    {caller : Caller} (ho : s.conns[o]? = some (.live conn))
    (hother : ∀ other rhs, caller = .assignment rhs → s.conns[rhs]? = some (.live other) →
      rhs ≠ o) : (s.giveBack o conn returned caller).Sound := by
  unfold ConnPool.giveBack
  split
  · rename_i connAndStmts hpool hconn
    have hheld := holders_setObject (.returning connAndStmts returned caller) ho
    have hone : (ConnObject.live conn).holds = true := by simp [ConnObject.holds, hpool, hconn]
    rw [hone] at hheld
    exact hs.withObjects (Nat.add_right_cancel hheld)
  · rename_i hnone
    have hzero : (ConnObject.live conn).holds = false := by
      cases hpool : conn.pool with
      | false => simp [ConnObject.holds, hpool]
      | true =>
        cases hconn : conn.connAndStmts with
        | none => simp [ConnObject.holds, hconn]
        | some c => exact absurd hconn (hnone c hpool)
    have hheld := holders_finish caller false ho hother
    rw [hzero] at hheld
    rw [finish_frame]
    exact hs.withObjects hheld

theorem Sound.reset (hs : s.Sound) {o : Nat} {returned : Returned} {caller : Caller}
    (hcaller : ∀ rhs, caller ≠ .assignment rhs) : (s.reset o returned caller).Sound := by
  unfold ConnPool.reset
  split
  · rename_i conn ho
    exact hs.giveBack ho fun _ rhs h _ => absurd h (hcaller rhs)
  · exact hs

theorem Sound.assign (hs : s.Sound) {o rhs : Nat} {returned : Returned} :
    (s.assign o rhs returned).Sound := by
  unfold ConnPool.assign
  split
  · rename_i conn other ho hrhs
    split
    · rename_i hne
      refine hs.giveBack ho fun other' rhs' hcaller _ hsame => ?_
      cases hcaller
      rw [hsame, ho] at hrhs
      cases hrhs
      exact hne rfl
    · exact hs
  · exact hs

theorem Sound.moveConstruct (hs : s.Sound) {other : Nat} : (s.moveConstruct other).Sound := by
  unfold ConnPool.moveConstruct
  split
  · rename_i conn hother
    have hgone := holders_setObject (.live {}) hother
    have hmoved : holders { s with conns := s.conns.set other (.live {}) ++ [.live conn] } =
        (s.setObject other (.live {})).holders + (ConnObject.live conn).holds.toNat :=
      holders_append _ rfl
    exact hs.withObjects (hmoved.trans hgone)
  · exact hs

theorem Sound.next (hs : s.Sound) {step : Step} (hloses : s.LosesNothing step) :
    (s.next step).Sound := by
  cases step with
  | getConn thread answers => exact hs.getConn hloses
  | wake index => exact hs.wake
  | resume index answers => exact hs.resume hloses.1 hloses.2
  | construct => exact hs.withObjects (holders_append (.live {}) rfl)
  | moveConstruct other => exact hs.moveConstruct
  | reset o returned => exact hs.reset nofun
  | destroy o returned => exact hs.reset nofun
  | assign o rhs returned => exact hs.assign
  | locked o signalled => exact hs.locked hloses

theorem sound_start {maxNbConns : Nat} : (start maxNbConns).Sound :=
  ⟨rfl, Nat.zero_le _, rfl, nofun⟩

/-- In every run of any threads that loses no loan and no wake-up, the loans are balanced. -/
theorem loans_balanced {maxNbConns : Nat} {steps : List Step}
    (h : AllSteps next LosesNothing (start maxNbConns) steps) :
    AllStates next Balanced (start maxNbConns) steps :=
  h.allStates (fun _ _ hs hloses => hs.next hloses) (fun _ hs => hs.balanced) sound_start

theorem loans_balanced_closed :
    AllStates next Balanced (start 1)
      [.getConn 1 ⟨true, true, true⟩, .getConn 2 ⟨true, true, true⟩, .reset 0 .closed,
        .locked 0 0, .resume 0 ⟨true, true, true⟩] :=
  loans_balanced (by decide)

/-- The loan that is lost when a closed connection of the pool cannot be made again, or the
autocommit mode cannot be set, and the wake-up that is lost when a woken thread cannot make a
connection: a thread waits, and no connection is on loan. -/
theorem not_balanced :
    let ok : Answers := ⟨true, true, true⟩
    let put : List Step := [.getConn 1 ok, .reset 0 .committed, .locked 0 0]
    (¬ AllStates next Balanced (start 1) (put ++ [.getConn 1 ⟨true, false, false⟩])) ∧
    (¬ AllStates next Balanced (start 1)
      [.getConn 1 ok, .reset 0 .setAutocommitModeFailed, .locked 0 0]) ∧
    ¬ AllStates next Balanced (start 1)
      [.getConn 1 ok, .getConn 2 ok, .getConn 3 ok, .reset 0 .closed, .locked 0 0,
        .resume 0 ⟨false, true, true⟩] := by
  refine ⟨fun h => ?_, fun h => ?_, fun h => ?_⟩
  · exact absurd h.last.onLoan (by decide)
  · exact absurd h.last.onLoan (by decide)
  · exact absurd (h.last.leftWaiting (by decide) (by decide)) (by decide)

end ConnPool

end Cta.Rdbms

import Mathlib.Data.List.Basic

/-! Whether a node accepts writes. A forced POOL_CONFIG takes effect when it is received, any
other one when it is committed, and a node that starts reads its ledger. -/
namespace IndyNode.Config

/-- `reqId` tells the requests apart. -/
structure PoolConfigTxn where
  writes : Bool
  force : Bool
  reqId : Nat
deriving DecidableEq, Repr

inductive LedgerTxn where
  | poolConfig (txn : PoolConfigTxn)
  | other (force : Bool)
deriving DecidableEq, Repr

def LedgerTxn.isForced : LedgerTxn → Bool
  | .poolConfig txn => txn.force
  | .other force => force

structure PoolConfig where
  writes : Bool
  ledger : List LedgerTxn
deriving DecidableEq

namespace PoolConfig
variable (self : PoolConfig)

def handleConfigTxn : LedgerTxn → PoolConfig
  | .poolConfig txn => { self with writes := txn.writes }
  | .other _ => self

def processLedger : PoolConfig := self.ledger.foldl handleConfigTxn self

/-- A node that starts with a ledger. -/
def started (ledger : List LedgerTxn) : PoolConfig := processLedger ⟨true,ledger⟩

/-- Called for every request that is received. -/
def applyForcedRequest (txn : PoolConfigTxn) : PoolConfig :=
  if txn.force then self.handleConfigTxn (.poolConfig txn) else self

def commitBatch (batch : List LedgerTxn) : PoolConfig :=
  batch.foldl (fun self txn => if txn.isForced then self else self.handleConfigTxn txn)
    { self with ledger := self.ledger ++ batch }

end PoolConfig

inductive ConfigEvent where
  | receive (txn : PoolConfigTxn)
  | commit (batch : List LedgerTxn)
deriving DecidableEq

def PoolConfig.step (self : PoolConfig) : ConfigEvent → PoolConfig
  | .receive txn => self.applyForcedRequest txn
  | .commit batch => self.commitBatch batch

def PoolConfig.run (self : PoolConfig) (events : List ConfigEvent) : PoolConfig := events.foldl step self

section Histories

def configs (txns : List LedgerTxn) : List PoolConfigTxn :=
  txns.filterMap fun txn => match txn with
    | .poolConfig txn => some txn
    | .other _ => none

def lastConfig (ledger : List LedgerTxn) : Option PoolConfigTxn := (configs ledger).getLast?

def committed : List ConfigEvent → List LedgerTxn
  | [] => []
  | .receive _ :: rest => committed rest
  | .commit batch :: rest => batch ++ committed rest

/-- The values that take effect, one after another. -/
def effects : List ConfigEvent → List Bool
  | [] => []
  | .receive txn :: rest => (if txn.force then [txn.writes] else []) ++ effects rest
  | .commit batch :: rest => ((configs batch).filter (!·.force)).map PoolConfigTxn.writes ++ effects rest

/-- A forced request is committed after its receipt. -/
def ReceivedFirst (seen : List PoolConfigTxn) : List ConfigEvent → Prop
  | [] => True
  | .receive txn :: rest => ReceivedFirst (txn :: seen) rest
  | .commit batch :: rest => (∀ txn ∈ configs batch, txn.force = true → txn ∈ seen) ∧ ReceivedFirst seen rest

/-- No forced request that was received still waits for its commit. -/
def AllCommitted : List ConfigEvent → Prop
  | [] => True
  | .receive txn :: rest => (txn.force = true → txn ∈ configs (committed rest)) ∧ AllCommitted rest
  | .commit _ :: rest => AllCommitted rest

/-- The course of a node that starts with a ledger, up to a time at which nothing is pending. -/
structure ConfigCourse where
  ledger : List LedgerTxn
  events : List ConfigEvent
  receivedFirst : ReceivedFirst [] events
  allCommitted : AllCommitted events

def ConfigCourse.node (course : ConfigCourse) : PoolConfig := (PoolConfig.started course.ledger).run course.events

/-- Nothing of another value takes effect last after the receipt of the POOL_CONFIG that comes
last in the ledger, if this one is forced. -/
def ConfigCourse.NotOvertaken (course : ConfigCourse) : Prop :=
  ∀ txn, lastConfig course.node.ledger = some txn → txn.force = true →
    ∀ before after, course.events = before ++ .receive txn :: after →
      ∀ value, (effects after).getLast? = some value → value = txn.writes

/-- The nodes of a pool have one ledger, each by a course of its own. -/
structure ConfigPool where
  ledger : List LedgerTxn
  courses : List ConfigCourse
  shared : ∀ course ∈ courses, course.node.ledger = ledger

/-- The nodes agree with the last POOL_CONFIG, with a restarted node and with one another. -/
structure ConfigPool.Agrees (pool : ConfigPool) : Prop where
  last : ∀ course ∈ pool.courses,
    course.node.writes = ((lastConfig pool.ledger).map PoolConfigTxn.writes).getD true
  restarted : ∀ course ∈ pool.courses, course.node.writes = (PoolConfig.started pool.ledger).writes
  others : ∀ course ∈ pool.courses, ∀ other ∈ pool.courses, course.node.writes = other.node.writes

end Histories

section Runs

private theorem last_append {α : Type} (earlier later : List α) (default : α) :
    (earlier ++ later).getLast?.getD default = later.getLast?.getD (earlier.getLast?.getD default) := by
  rw [List.getLast?_append]
  cases later.getLast? <;> rfl

private theorem handle_fold (self : PoolConfig) (txns : List LedgerTxn) : txns.foldl PoolConfig.handleConfigTxn self =
    { self with writes := ((configs txns).map PoolConfigTxn.writes).getLast?.getD self.writes } := by
  induction txns generalizing self with
  | nil => rfl
  | cons txn rest ih =>
    rw [List.foldl_cons,ih]
    cases txn with
    | poolConfig txn => simp [PoolConfig.handleConfigTxn,configs,List.getLast?_cons]
    | other force => rfl

private theorem commit_fold (self : PoolConfig) (batch : List LedgerTxn) :
    batch.foldl (fun self txn => if txn.isForced then self else self.handleConfigTxn txn) self =
      { self with
        writes := (((configs batch).filter (!·.force)).map PoolConfigTxn.writes).getLast?.getD self.writes } := by
  induction batch generalizing self with
  | nil => rfl
  | cons txn rest ih =>
    rw [List.foldl_cons,ih]
    cases txn with
    | poolConfig txn =>
      cases forced : txn.force <;>
        simp [PoolConfig.handleConfigTxn,LedgerTxn.isForced,configs,forced,List.getLast?_cons]
    | other force => cases force <;> rfl

private theorem run_eq (self : PoolConfig) (events : List ConfigEvent) : self.run events =
    ⟨(effects events).getLast?.getD self.writes,self.ledger ++ committed events⟩ := by
  induction events generalizing self with
  | nil => simp [PoolConfig.run,effects,committed]
  | cons event rest ih =>
    change (self.step event).run rest = _
    rw [ih]
    cases event with
    | receive txn =>
      cases forced : txn.force <;>
        simp [PoolConfig.step,PoolConfig.applyForcedRequest,PoolConfig.handleConfigTxn,effects,committed,forced,
          List.getLast?_cons]
    | commit batch =>
      rw [PoolConfig.step,PoolConfig.commitBatch,commit_fold,effects,last_append,committed,List.append_assoc]

private theorem started_eq (ledger : List LedgerTxn) :
    PoolConfig.started ledger = ⟨((lastConfig ledger).map PoolConfigTxn.writes).getD true,ledger⟩ := by
  rw [PoolConfig.started,PoolConfig.processLedger,handle_fold,lastConfig,List.getLast?_map]

end Runs

section Courses

private theorem configs_append (earlier later : List LedgerTxn) :
    configs (earlier ++ later) = configs earlier ++ configs later := List.filterMap_append

private theorem effects_append (earlier later : List ConfigEvent) :
    effects (earlier ++ later) = effects earlier ++ effects later := by
  induction earlier with
  | nil => rfl
  | cons event rest ih => cases event <;> simp [effects,ih]

private theorem AllCommitted.quiet {events : List ConfigEvent} (settled : AllCommitted events)
    (none : configs (committed events) = []) : effects events = [] := by
  induction events with
  | nil => rfl
  | cons event rest ih =>
    cases event with
    | receive txn =>
      obtain ⟨own,settled⟩ := settled
      have unforced : txn.force ≠ true := by
        intro forced
        rw [show configs (committed rest) = [] from none] at own
        exact List.not_mem_nil (own forced)
      rw [effects,if_neg unforced,ih settled none]
      rfl
    | commit batch =>
      rw [committed,configs_append,List.append_eq_nil_iff] at none
      rw [effects,none.1,ih settled none.2]
      rfl

private theorem AllCommitted.unforced {events : List ConfigEvent} (settled : AllCommitted events) {txn : PoolConfigTxn}
    (last : (configs (committed events)).getLast? = some txn) (unforced : txn.force = false) :
    (effects events).getLast? = some txn.writes := by
  induction events with
  | nil => cases last
  | cons event rest ih =>
    cases event with
    | receive other =>
      rw [effects,List.getLast?_append,ih settled.2 last]
      rfl
    | commit batch =>
      rw [committed,configs_append,List.getLast?_append] at last
      rw [effects,List.getLast?_append]
      cases later : (configs (committed rest)).getLast? with
      | some other =>
        rw [later,Option.some_or] at last
        rw [ih settled (later.trans last)]
        rfl
      | none =>
        -- Nothing is received or committed behind this batch.
        rw [later,Option.none_or] at last
        have behind : AllCommitted rest := settled
        rw [behind.quiet (List.getLast?_eq_none_iff.mp later),List.getLast?_nil,Option.none_or]
        obtain ⟨before,shape⟩ := List.getLast?_eq_some_iff.mp last
        simp [shape,unforced]

private theorem ReceivedFirst.received {seen : List PoolConfigTxn} {events : List ConfigEvent}
    (first : ReceivedFirst seen events) {txn : PoolConfigTxn} (listed : txn ∈ configs (committed events))
    (forced : txn.force = true) : txn ∈ seen ∨ .receive txn ∈ events := by
  induction events generalizing seen with
  | nil => cases listed
  | cons event rest ih =>
    cases event with
    | receive other =>
      rcases ih first listed with known | later
      · rcases List.mem_cons.mp known with rfl | known
        · exact .inr List.mem_cons_self
        · exact .inl known
      · exact .inr (List.mem_cons_of_mem _ later)
    | commit batch =>
      rw [committed,configs_append,List.mem_append] at listed
      rcases listed with here | later
      · exact .inl (first.1 txn here forced)
      · rcases ih first.2 later with known | later
        · exact .inl known
        · exact .inr (List.mem_cons_of_mem _ later)

private theorem effects_since (before after : List ConfigEvent) {txn : PoolConfigTxn} (forced : txn.force = true) :
    (effects (before ++ .receive txn :: after)).getLast? = some ((effects after).getLast?.getD txn.writes) := by
  rw [effects_append,effects,if_pos forced,List.getLast?_append,List.singleton_append,List.getLast?_cons]
  rfl

variable (course : ConfigCourse)

private theorem node_eq : course.node =
    ⟨(effects course.events).getLast?.getD (((lastConfig course.ledger).map PoolConfigTxn.writes).getD true),
      course.ledger ++ committed course.events⟩ := by
  rw [ConfigCourse.node,run_eq,started_eq]

private theorem node_last : lastConfig course.node.ledger =
    ((configs (committed course.events)).getLast?).or (lastConfig course.ledger) := by
  rw [node_eq,lastConfig,configs_append,List.getLast?_append]
  rfl

variable {course} in
private theorem node_writes {value : Bool} (effect : (effects course.events).getLast? = some value) :
    course.node.writes = value := by
  rw [node_eq,effect]
  rfl

variable {course} in
private theorem writes_since {before after : List ConfigEvent} {txn : PoolConfigTxn}
    (shape : course.events = before ++ .receive txn :: after) (forced : txn.force = true) :
    course.node.writes = (effects after).getLast?.getD txn.writes := by
  apply node_writes
  rw [shape,effects_since before after forced]

private theorem last_iff : course.node.writes = ((lastConfig course.node.ledger).map PoolConfigTxn.writes).getD true ↔
    course.NotOvertaken := by
  unfold ConfigCourse.NotOvertaken
  rw [node_last]
  cases last : (configs (committed course.events)).getLast? with
  | none =>
    have quiet := course.allCommitted.quiet (List.getLast?_eq_none_iff.mp last)
    refine iff_of_true ?_ fun txn _ forced before after shape value _ => ?_
    · rw [node_eq,quiet]
      rfl
    · have some := effects_since before after forced
      rw [← shape,quiet] at some
      cases some
  | some txn =>
    rw [Option.some_or,Option.map_some,Option.getD_some]
    cases forced : txn.force with
    | false =>
      refine iff_of_true (node_writes (course.allCommitted.unforced last forced)) ?_
      intro other same otherForced
      obtain rfl := Option.some.inj same
      rw [forced] at otherForced
      cases otherForced
    | true =>
      constructor
      · rintro agrees other same - before after shape value latest
        obtain rfl := Option.some.inj same
        rw [writes_since shape forced,latest] at agrees
        exact agrees
      · intro safe
        rcases course.receivedFirst.received (List.mem_of_getLast? last) forced with none | received
        · cases none
        · obtain ⟨before,after,shape⟩ := List.append_of_mem received
          rw [writes_since shape forced]
          cases latest : (effects after).getLast? with
          | none => rfl
          | some value => exact safe txn rfl forced before after shape value latest

theorem writable_iff (pool : ConfigPool) :
    pool.Agrees ↔ ∀ course ∈ pool.courses, course.NotOvertaken := by
  constructor
  · intro agrees course member
    apply (last_iff course).mp
    rw [pool.shared course member]
    exact agrees.last course member
  · intro safe
    have last : ∀ course ∈ pool.courses,
        course.node.writes = ((lastConfig pool.ledger).map PoolConfigTxn.writes).getD true := by
      intro course member
      rw [← pool.shared course member]
      exact (last_iff course).mpr (safe course member)
    refine ⟨last,fun course member => ?_,fun course member other listed => ?_⟩
    · rw [last course member,started_eq]
    · rw [last course member,last other listed]

/-- A forced request is overtaken by one that is committed before it. -/
def overtakenCourse : ConfigCourse where
  ledger := []
  events := [.receive ⟨false,true,1⟩,.commit [.poolConfig ⟨true,false,2⟩],.commit [.poolConfig ⟨false,true,1⟩]]
  receivedFirst := by simp [ReceivedFirst,configs]
  allCommitted := by simp [AllCommitted,configs,committed]

/-- The same request reaches another node after that commit. -/
def promptCourse : ConfigCourse where
  ledger := []
  events := [.commit [.poolConfig ⟨true,false,2⟩],.receive ⟨false,true,1⟩,.commit [.poolConfig ⟨false,true,1⟩]]
  receivedFirst := by simp [ReceivedFirst,configs]
  allCommitted := by simp [AllCommitted,configs,committed]

def overtakenPool : ConfigPool where
  ledger := [.poolConfig ⟨true,false,2⟩,.poolConfig ⟨false,true,1⟩]
  courses := [overtakenCourse,promptCourse]
  shared := by simp [node_eq,overtakenCourse,promptCourse,committed]

theorem overtaken_config : overtakenCourse.node.writes = true ∧ promptCourse.node.writes = false ∧
    (PoolConfig.started overtakenPool.ledger).writes = false ∧ ¬overtakenPool.Agrees := by
  refine ⟨by decide,by decide,by decide,fun agrees => ?_⟩
  exact absurd (agrees.restarted overtakenCourse List.mem_cons_self) (by decide)

end Courses
end IndyNode.Config

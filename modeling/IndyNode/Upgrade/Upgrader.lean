import IndyNode.Foundation.ActionQueue
import IndyNode.Foundation.Latest

/-! The upgrader of a node: which upgrade it has scheduled, the log it keeps across
restarts and the actions it has put into its queue. -/
namespace IndyNode.Upgrade

inductive UpgradeAction where
  | start
  | cancel
deriving DecidableEq, Repr

/-- What POOL_UPGRADE carries. The schedule names a time for each node. -/
structure PoolUpgrade where
  action : UpgradeAction
  version : String
  schedule : List (String × String)
  package : Option String
  timeout : Option Nat
  force : Bool
  reqId : Nat
deriving DecidableEq, Repr

/-- A transaction that is not in the ledger has the number 0. -/
structure UpgradeTxn where
  payload : PoolUpgrade
  seqNo : Nat
deriving DecidableEq, Repr

inductive LedgerTxn where
  | poolUpgrade (payload : PoolUpgrade)
  | other
deriving DecidableEq, Repr

structure UpgradeLogData (V : Type) where
  when : Nat
  version : V
  upgradeId : String
  pkgName : String
deriving DecidableEq, Repr

inductive EventType where
  | scheduled
  | started
  | succeeded
  | failed
  | cancelled
deriving DecidableEq, Repr

structure LogEvent (V : Type) where
  evType : EventType
  data : UpgradeLogData V
deriving DecidableEq, Repr

inductive Job (V : Type) where
  | callAgent (data : UpgradeLogData V) (failTimeout : Nat)
  | timesUp (data : UpgradeLogData V)
deriving DecidableEq, Repr

/-- `sending` holds the requests to the control service that are not answered yet. -/
structure Upgrader (V : Type) where
  scheduledAction : Option (UpgradeLogData V)
  actionLog : List (LogEvent V)
  actions : ActionQueue (Job V)
  sending : List (UpgradeLogData V × Nat)
deriving DecidableEq

/-- The two version classes read a text or refuse it. -/
structure UpgradeSetup (V : Type) where
  nodeId : String
  upgradeEntry : String
  nodeVersion : String → Option V
  topPkgDefVersion : String → Option V
  parseTime : String → Nat

section Transactions
variable {V : Type} (setup : UpgradeSetup V)

def UpgradeSetup.srcVersionCls (pkgName : String) : String → Option V :=
  if pkgName = "indy-node" then setup.nodeVersion else setup.topPkgDefVersion

def getActionId (txn : UpgradeTxn) : String :=
  toString txn.payload.reqId ++
    if txn.payload.force ∨ txn.seqNo = 0 then "" else toString txn.seqNo

def defaultActionTimeout : Nat := 10

structure Timedelta where
  days : Nat
  seconds : Nat

/-- `timedelta(minutes=...)`; more than 999999999 days are an `OverflowError`. -/
def timedelta (minutes : Nat) : Option Timedelta :=
  if 999999999 < minutes * 60 / 86400 then none
  else some ⟨minutes * 60 / 86400,minutes * 60 % 86400⟩

/-- `get_timeout`, which leaves whole days out. -/
def getTimeout (minutes : Nat) : Option Nat := (timedelta minutes).map Timedelta.seconds

inductive Order (V : Type) where
  | start (data : UpgradeLogData V) (failTimeout : Nat)
  | cancel (version : V)

/-- What a transaction asks of this node, if anything. -/
def order (txn : UpgradeTxn) : Option (Order V) := do
  let pkgName := txn.payload.package.getD setup.upgradeEntry
  let version ← setup.srcVersionCls pkgName txn.payload.version
  match txn.payload.action with
  | .start =>
    -- a forced transaction may have a schedule without this node
    let text ← txn.payload.schedule.lookup setup.nodeId
    return .start ⟨setup.parseTime text,version,getActionId txn,pkgName⟩
      (txn.payload.timeout.getD defaultActionTimeout)
  | .cancel => return .cancel version

/-- What a START asks of this node. -/
theorem order_start {txn : UpgradeTxn} {data : UpgradeLogData V} {failTimeout : Nat}
    (asked : order setup txn = some (.start data failTimeout)) : ∃ version text,
      setup.srcVersionCls (txn.payload.package.getD setup.upgradeEntry) txn.payload.version = some version ∧
      txn.payload.action = .start ∧ txn.payload.schedule.lookup setup.nodeId = some text ∧
      data = ⟨setup.parseTime text,version,getActionId txn,txn.payload.package.getD setup.upgradeEntry⟩ ∧
      failTimeout = txn.payload.timeout.getD defaultActionTimeout := by
  simp only [order,Option.bind_eq_bind,Option.bind_eq_some_iff] at asked
  obtain ⟨version,parsed,rest⟩ := asked
  split at rest
  next started =>
    obtain ⟨text,listed,made⟩ := Option.bind_eq_some_iff.mp rest
    obtain ⟨same,timeout⟩ := Order.start.inj (Option.some.inj made)
    exact ⟨version,text,parsed,started,listed,same.symm,timeout.symm⟩
  next => simp at rest

end Transactions

section Handling
variable {V : Type} (now : Nat) (up : Upgrader V)

def Upgrader.append (evType : EventType) (data : UpgradeLogData V) : Upgrader V :=
  { up with actionLog := up.actionLog ++ [⟨evType,data⟩] }

/-- The last event says that this upgrade has come to an end. -/
def Upgrader.performed (upgradeId : String) : Bool :=
  match up.actionLog.getLast? with
  | none => false
  | some event => event.data.upgradeId = upgradeId ∧ event.evType ∈ [.succeeded,.failed]

def Upgrader.unscheduleAction : Upgrader V :=
  { up with actions := up.actions.clearStash, scheduledAction := none }

def Upgrader.cancelScheduledUpgrade : Upgrader V :=
  match up.scheduledAction with
  | none => up
  | some data => up.unscheduleAction.append .cancelled data

theorem cancelled_scheduled : up.cancelScheduledUpgrade.scheduledAction = none := by
  rw [Upgrader.cancelScheduledUpgrade]
  split
  · assumption
  · rfl

def Upgrader.scheduleUpgrade (data : UpgradeLogData V) (failTimeout : Nat) : Upgrader V :=
  let logged := up.append .scheduled data
  { logged with
    scheduledAction := some data
    actions := logged.actions.schedule now (if now < data.when then data.when - now else 0)
      (.callAgent data failTimeout) }

variable [DecidableEq V]

def Upgrader.follow : Order V → Upgrader V
  | .start data failTimeout =>
    if up.performed data.upgradeId then up
    else if up.scheduledAction = some data then up
    else up.cancelScheduledUpgrade.scheduleUpgrade now data failTimeout
  | .cancel version =>
    if up.scheduledAction.map (·.version) = some version then up.cancelScheduledUpgrade else up

def handleUpgradeTxn (setup : UpgradeSetup V) (txn : UpgradeTxn) : Upgrader V :=
  match order setup txn with
  | none => up
  | some asked => up.follow now asked

end Handling

section Ledger

def numbered (ledger : List LedgerTxn) : List UpgradeTxn :=
  (ledger.zipIdx 1).filterMap fun entry =>
    match entry.1 with
    | .poolUpgrade payload => some ⟨payload,entry.2⟩
    | .other => none

/-- `get_upgrade_txn` for the POOL_UPGRADE transactions that a predicate selects. -/
def getUpgradeTxn (ledger : List LedgerTxn) (predicate : UpgradeTxn → Bool) (startNo : Option Nat)
    (reverse : Bool) : Option UpgradeTxn :=
  if reverse then
    ((numbered ledger).filter fun txn => txn.seqNo ≤ startNo.getD ledger.length).reverse.find? predicate
  else ((numbered ledger).filter fun txn => startNo.getD 1 ≤ txn.seqNo).find? predicate

def isStart (txn : UpgradeTxn) : Bool := txn.payload.action = .start

/-- A CANCEL whose version is written as in a given START. -/
def repeatsVersion (started txn : UpgradeTxn) : Bool :=
  txn.payload.action = .cancel ∧ txn.payload.version = started.payload.version

/-- The START that `processLedger` handles again. -/
def startInForce (ledger : List LedgerTxn) : Option UpgradeTxn :=
  match getUpgradeTxn ledger isStart none true with
  | none => none
  | some started =>
    match getUpgradeTxn ledger (repeatsVersion started) (some (started.seqNo + 1)) false with
    | some _ => none
    | none => some started

variable {V : Type} [DecidableEq V] (setup : UpgradeSetup V) (now : Nat)

def processLedger (up : Upgrader V) (ledger : List LedgerTxn) : Upgrader V :=
  match startInForce ledger with
  | none => up
  | some started => handleUpgradeTxn now up setup started

end Ledger

section Jobs
variable {V : Type} (up : Upgrader V)

/-- `_callUpgradeAgent` where the start callback returns. The callback of the node asks for a scheduled
upgrade, which there is unless a CANCEL or a failure has left the call behind. -/
def Upgrader.callUpgradeAgent (data : UpgradeLogData V) (failTimeout : Nat) : Upgrader V :=
  let logged := up.append .started data
  { logged with scheduledAction := none, sending := logged.sending ++ [(data,failTimeout)] }

/-- The control service has taken a request. A timeout that overflows ends the sending task. -/
def Upgrader.requestSent (now : Nat) (data : UpgradeLogData V) (failTimeout : Nat) : Upgrader V :=
  { up with actions := match getTimeout failTimeout with
      | none => up.actions
      | some delay => up.actions.schedule now delay (.timesUp data) }

variable [DecidableEq V] (setup : UpgradeSetup V) (now : Nat) (ledger : List LedgerTxn)

/-- The failure callback processes the ledger again; nothing is written to the log. -/
def Upgrader.declareTimeoutExceeded (data : UpgradeLogData V) : Upgrader V :=
  if up.actionLog.getLast? = some ⟨.failed,data⟩ then up
  else processLedger setup now up.unscheduleAction ledger

def Upgrader.run : Job V → Upgrader V
  | .callAgent data failTimeout => up.callUpgradeAgent data failTimeout
  | .timesUp data => up.declareTimeoutExceeded setup now ledger data

end Jobs

section Restart
variable {V : Type} [DecidableEq V]

/-- `process_action_log_for_first_run`; `succeeded` tells whether the installed version
is the one of the last event. -/
def firstRunLog (succeeded : Bool) (log : List (LogEvent V)) : List (LogEvent V) :=
  match log.getLast? with
  | some ⟨.started,data⟩ => log ++ [⟨if succeeded then .succeeded else .failed,data⟩]
  | _ => log

/-- Only the log outlives the process. -/
def Upgrader.restarted (up : Upgrader V) (succeeded : Bool) : Upgrader V :=
  ⟨none,firstRunLog succeeded up.actionLog,.empty,[]⟩

end Restart

section Samples

/-- Versions are their texts and a time is given by the length of its text. -/
def sampleSetup : UpgradeSetup String := ⟨"Alpha","indy-node",some,some,String.length⟩

def idleUpgrader : Upgrader String := ⟨none,[],.empty,[]⟩

def startFor (node version : String) (force : Bool) (reqId : Nat) : PoolUpgrade :=
  ⟨.start,version,[(node,"noon")],none,none,force,reqId⟩

def cancelOf (version : String) (reqId : Nat) : PoolUpgrade := ⟨.cancel,version,[],none,none,false,reqId⟩

end Samples
end IndyNode.Upgrade

import IndyNode.Revocation.Writes

/-! The sort mode of a write is a flag of the config ledger, looked up in the
committed config state of the transaction's time. A node commits config batches
and applies domain transactions in some interleaving of the two orders. -/
namespace IndyNode.Revocation

structure FlagTxn where
  name : String
  value : Option String
  seqNo : Nat
deriving DecidableEq, Repr

structure ConfigBatch where
  time : Nat
  flags : List FlagTxn
deriving DecidableEq, Repr

/-- The record `FlagRequestHandler.update_state` writes. -/
structure FlagState where
  value : Option String
  seqNo : Nat
  updateTime : Nat
deriving DecidableEq, Repr

abbrev ConfigState := String → Option FlagState

def flagPath (name : String) : String := "2:" ++ name

def compatOrdering : String := "REV_STRATEGY_USE_COMPAT_ORDERING"

def setFlag (time : Nat) (state : ConfigState) (txn : FlagTxn) : ConfigState :=
  Function.update state (flagPath txn.name) (some ⟨txn.value,txn.seqNo,time⟩)

def ConfigBatch.apply (state : ConfigState) (batch : ConfigBatch) : ConfigState :=
  batch.flags.foldl (setFlag batch.time) state

/-- The timestamp store of the config ledger: one root for each committed batch. -/
def configRoots : ConfigState → List ConfigBatch → List (Nat × ConfigState)
  | _,[] => []
  | state,batch::rest => (batch.time,batch.apply state) :: configRoots (batch.apply state) rest

/-- `GetFlagRequestHandler.lookup_key` with a timestamp, over the committed
batches: nothing before the first root. -/
def lookupKey (committed : List ConfigBatch) (flag : String) (timestamp : Nat) : Option FlagState :=
  match ((configRoots (fun _ => none) committed).filter (·.1 ≤ timestamp)).getLast? with
  | none => none
  | some (_,root) => root (flagPath flag)

def turnsOff (value : Option String) : Bool :=
  match value with
  | none => false
  | some text => text.toList.map Char.toLower = "false".toList

/-- Only the value `false` is obeyed; anything else leaves the node's own
configuration in charge. -/
def useLegacySort (legacySortConfig : Bool) (committed : List ConfigBatch) (txnTime : Nat) : Bool :=
  match lookupKey committed compatOrdering txnTime with
  | some state => if turnsOff state.value then false else legacySortConfig
  | none => legacySortConfig

structure Node (ι : Type) where
  committed : List ConfigBatch
  domain : DomainState ι

inductive Event (ι : Type) where
  | commitConfig (batch : ConfigBatch)
  | applyEntry (txn : Txn ι)

section Schedules
variable {ι : Type}

def Event.config? : Event ι → Option ConfigBatch
  | .commitConfig batch => some batch
  | .applyEntry _ => none

def Event.entry? : Event ι → Option (Txn ι)
  | .commitConfig _ => none
  | .applyEntry txn => some txn

/-- A node may still lag behind the config ledger when it has applied the last
domain transaction. -/
structure Schedules (batches : List ConfigBatch) (txns : List (Txn ι)) (events : List (Event ι)) :
    Prop where
  config : events.filterMap Event.config? <+: batches
  domain : events.filterMap Event.entry? = txns

variable [DecidableEq ι] [PyHash ι] [LE ι] [DecidableLE ι]

def nodeStep (legacySortConfig : Bool) (node : Node ι) : Event ι → Except Raised (Node ι)
  | .commitConfig batch => .ok {node with committed := node.committed ++ [batch]}
  | .applyEntry txn => do
    let sortLegacy := useLegacySort legacySortConfig node.committed txn.txnTime
    return {node with domain := ← updateState sortLegacy node.domain txn}

/-- The domain state of a node that starts with an empty config ledger. -/
def runNode (legacySortConfig : Bool) (start : DomainState ι) (events : List (Event ι)) :
    Except Raised (DomainState ι) := do
  return (← events.foldlM (nodeStep legacySortConfig) ⟨[],start⟩).domain

/-- The config batches that can matter to a transaction. -/
def flagBatches (batches : List ConfigBatch) (txnTime : Nat) : List ConfigBatch :=
  batches.filter fun batch =>
    batch.time ≤ txnTime ∧ ∃ txn ∈ batch.flags, txn.name = compatOrdering

/-- The write does not depend on a batch the node has not committed: the node
sorts anyway, the entry is the first of its registry and stored as it came, or
every batch with the flag up to the transaction's time is committed. -/
def settled (legacySortConfig : Bool) (batches : List ConfigBatch) (node : Node ι) : Event ι → Bool
  | .commitConfig _ => true
  | .applyEntry txn => !legacySortConfig ||
    (node.domain (revocEntryPath txn.request.revocRegDefId)).isNone ||
    flagBatches node.committed txn.txnTime = flagBatches batches txn.txnTime

def Settled (legacySortConfig : Bool) (batches : List ConfigBatch) (start : DomainState ι)
    (events : List (Event ι)) : Prop :=
  permitted (nodeStep legacySortConfig) (settled legacySortConfig batches) events ⟨[],start⟩ = true

end Schedules
end IndyNode.Revocation

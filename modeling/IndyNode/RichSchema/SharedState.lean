import IndyNode.Authorize.Unambiguous
import IndyNode.Domain.Run
import IndyNode.RichSchema.Contents

/-! The domain state as rich schema objects and the other transactions of the domain ledger
share it: one key space, with the ids of objects, their secondary keys and the paths of
`state/domain.py` in it. -/
namespace IndyNode.RichSchema
open Authorize

/-- What stands under a key. A secondary key holds the bare text of an id. -/
inductive Stored (ι : Type) where
  | object (object : RichSchemaObject)
  | pointer (id : String)
  | classic (leaf : Domain.Leaf ι)

structure SharedLedger (ι : Type) where
  nyms : Nym.NymState
  state : String → Option (Stored ι)
  attributes : String → Option String
  txnTypes : List String

/-- `keyOf` tells what key the state takes a reference for that is no text, `decode` what an id
gives that is read as a stored value, `document` the JSON of the other values. -/
structure SharedSetup (ι : Type) where
  domain : Domain.Setup
  enabled : Bool
  loads : String → Option Document
  format : Document → String
  badUri : String → Bool
  keyOf : Document → Except Raised String
  decode : String → Except Raised (Domain.Leaf ι)
  document : Domain.Value ι → Document

/-- The value that is written for an object. -/
def storedFields (object : RichSchemaObject) : List (String × Option String) :=
  [("id",some object.id),("rsType",some object.rsType),("rsName",some object.rsName),
    ("rsVersion",some object.rsVersion),("content",some object.content),("from",object.frm),
    ("endorser",object.endorser),("ver",object.payloadVersion)]

def objectDocument (object : RichSchemaObject) : Document :=
  .object ((storedFields object).map fun field => (field.1,(field.2.map textOf).getD (.scalar .null)))

def objectJson (object : RichSchemaObject) : List (String × Nym.Json) :=
  (storedFields object).map fun field => (field.1,(field.2.map Nym.Json.str).getD .null)

theorem objectDocument_rsType (object : RichSchemaObject) :
    (objectDocument object).field? "rsType" = some (textOf object.rsType) := rfl

structure RichTxn extends RichSchemaTxn where
  kind : RichKind
  typed : op.rsType = kind.rsType

def RichTxn.secondaryKey (txn : RichTxn) : String := makeSecondaryKey txn.op.toMetadata

inductive SharedTxn (ι : Type) where
  | rich (txn : RichTxn)
  | classic (ordered : Domain.Ordered ι)

section Rich
variable {ι : Type} (setup : SharedSetup ι)

def seen : Stored ι → Except Raised Document
  | .object object => .ok (objectDocument object)
  | .pointer id => do return setup.document (← setup.decode id).value
  | .classic leaf => .ok (setup.document leaf.value)

def stateKey (reference : Document) : Except Raised String :=
  match reference.text? with
  | some text => .ok text
  | none => setup.keyOf reference

def lookupShared (state : String → Option (Stored ι)) (reference : Document) : Except Raised Document := do
  match state (← stateKey setup reference) with
  | none => return .scalar .null
  | some stored => seen setup stored

def contentsOf (state : String → Option (Stored ι)) : ContentSetup where
  enabled := setup.enabled
  loads := setup.loads
  getFromState := lookupShared setup state
  format := setup.format
  badUri := setup.badUri

def handlerOf (state : String → Option (Stored ι)) (kind : RichKind) : ObjectHandler where
  txnType := kind.txnType
  doStaticValidationContent := fun req op => richStaticValidation (contentsOf setup state) req kind op
  doDynamicValidationContent := fun _ req op =>
    dynamicValidationContent (contentsOf setup state).toMappingSetup req kind op

def richUpdateState (state : String → Option (Stored ι)) (txn : RichTxn) : String → Option (Stored ι) :=
  Function.update (Function.update state txn.op.id (some (.object txn.object))) txn.secondaryKey
    (some (.pointer txn.op.id))

/-- `additional_dynamic_validation`, with what is stored read as it is. -/
def richDynamicValidation (ledger : SharedLedger ι) (txn : RichTxn) : Except Raised Unit := do
  let rsObject := (← lookupShared setup ledger.state (textOf txn.op.id)).truth
  if !rsObject && (ledger.state txn.secondaryKey).isSome then
    throw (invalid txn.request (alreadyExists txn.op))
  validateAuthRule (handlerOf setup ledger.state txn.kind) setup.domain.nym.config ledger.nyms.cache txn.request
    rsObject
  dynamicValidationContent (contentsOf setup ledger.state).toMappingSetup txn.request txn.kind txn.op

def applyRich (ledger : SharedLedger ι) (txn : RichTxn) : Except Raised (SharedLedger ι) := do
  staticValidation setup.enabled (handlerOf setup ledger.state txn.kind) txn.request txn.op
  richDynamicValidation setup ledger txn
  return {ledger with
    state := richUpdateState ledger.state txn
    txnTypes := ledger.txnTypes ++ [txn.kind.txnType]}

end Rich

section Classic
variable {ι : Type} (setup : SharedSetup ι)

/-- Other handlers read an object as a JSON object. -/
def asLeaf : Stored ι → Option (Domain.Leaf ι)
  | .object object => some ⟨.claimDef (objectJson object),object.seqNo,object.txnTime⟩
  | .pointer id => (setup.decode id).toOption
  | .classic leaf => some leaf

def domainView (ledger : SharedLedger ι) : Domain.Ledger ι :=
  ⟨ledger.nyms,fun key => (ledger.state key).bind (asLeaf setup),ledger.attributes,ledger.txnTypes⟩

/-- An id under a secondary key that is not JSON. -/
def unreadable : Option (Stored ι) → Bool
  | some (.pointer id) => (setup.decode id).toOption.isNone
  | _ => false

/-- The paths whose values a transaction is validated with. -/
def readPaths : Domain.DomainTxn ι → List String
  | .revocDef req op => [Domain.revocDefPath req.identifier op,op.credDefId]
  | .revocEntry _ op => [Revocation.revocEntryPath op.revocRegDefId,op.revocRegDefId]
  | txn => txn.paths setup.domain

variable [DecidableEq ι] [Revocation.PyStr ι] [PyHash ι] [LE ι] [DecidableLE ι]

/-- The transactions without rich schema objects, on what their handlers see. -/
def applyClassic (ledger : SharedLedger ι) (ordered : Domain.Ordered ι) : Except Raised (SharedLedger ι) :=
  if (readPaths setup ordered.txn).any fun key => unreadable setup (ledger.state key) then .error .valueError
  else do
    let after ← Domain.applyTxn setup.domain (domainView setup ledger) ordered
    return {
      nyms := after.nyms
      state := fun key =>
        if key ∈ ordered.txn.paths setup.domain then (after.state key).map .classic else ledger.state key
      attributes := after.attributes
      txnTypes := after.txnTypes }

def applyShared (ledger : SharedLedger ι) : SharedTxn ι → Except Raised (SharedLedger ι)
  | .rich txn => applyRich setup ledger txn
  | .classic ordered => applyClassic setup ledger ordered

end Classic

end IndyNode.RichSchema

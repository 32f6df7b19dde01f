import IndyNode.Authorize.RequestValidator
import IndyNode.Foundation.TwoWayIndex

/-! The handlers of rich schema objects: how an object is checked and written, under its id
and under its type, name and version, and how it is read back by either. -/
namespace IndyNode.RichSchema
open Authorize

structure Metadata where
  rsType : String
  rsName : String
  rsVersion : String
deriving DecidableEq, Repr

structure RichSchemaOperation extends Metadata where
  id : String
  content : String
deriving DecidableEq, Repr

/-- What is stored for an object, with the number and the time of its transaction. -/
structure RichSchemaObject extends RichSchemaOperation where
  frm : Option String
  endorser : Option String
  payloadVersion : Option String
  seqNo : Nat
  txnTime : Nat
deriving DecidableEq, Repr

/-- What the JSON of a stored value gives: an object, or something else of which only the
truth value matters. -/
inductive Decoded where
  | object (object : RichSchemaObject)
  | other (truth : Bool)
deriving DecidableEq, Repr

def Decoded.truth : Decoded → Bool
  | .object _ => true
  | .other truth => truth

/-- The encoding of texts and the serializer of the domain state. -/
structure Codec (β : Type) where
  encode : String → β
  serialize : RichSchemaObject → β
  deserialize : β → Except Raised Decoded

structure Codec.Sound {β : Type} (codec : Codec β) : Prop where
  encode : Function.Injective codec.encode
  round : ∀ object, codec.deserialize (codec.serialize object) = .ok (.object object)

def invalid (req : Request) (reason : String) : Raised :=
  .invalidClientRequest (req.identifier.map Subtype.val) req.reqId reason

def makeSecondaryKey (data : Metadata) : String := data.rsType ++ ":" ++ data.rsName ++ ":" ++ data.rsVersion

/-- The abstract methods of `AbstractRichSchemaObjectHandler`: what a type of objects asks
of its content, with what can be read from the state. -/
structure ObjectHandler where
  txnType : String
  doStaticValidationContent : Request → RichSchemaOperation → Except Raised Unit
  doDynamicValidationContent : (String → Except Raised (Option Decoded)) → Request → RichSchemaOperation →
    Except Raised Unit

section Writes
variable {β : Type} (codec : Codec β) (enabled : Bool) (handler : ObjectHandler) (config : ValidatorConfig)
  (cache : IdrCache) (state : β → Option β) (req : Request) (op : RichSchemaOperation)

def getFromState (path : String) : Except Raised (Option Decoded) :=
  match state (codec.encode path) with
  | none => .ok none
  | some encoded => do return some (← codec.deserialize encoded)

def staticValidation : Except Raised Unit :=
  if !enabled then .error (invalid req "RichSchema transactions are disabled")
  else handler.doStaticValidationContent req op

def alreadyExists : String :=
  "An object with rsName=\"" ++ op.rsName ++ "\", rsVersion=\"" ++ op.rsVersion ++ "\" and rsType=\"" ++
    op.rsType ++ "\" already exists. Please choose different rsName, rsVersion or rsType"

/-- Whether the metadata are in use is only asked for an object that is new. -/
def validateUnique (rsObject : Bool) : Except Raised Unit :=
  if !rsObject && (state (codec.encode (makeSecondaryKey op.toMetadata))).isSome then
    .error (invalid req (alreadyExists op))
  else .ok ()

def validateAuthRule (rsObject : Bool) : Except Raised Unit :=
  if rsObject then validate config cache req [.edit handler.txnType "*" "*" "*" true]
  else validate config cache req [.add handler.txnType "*" "*" true]

def additionalDynamicValidation : Except Raised Unit := do
  let rsObject := ((← getFromState codec state op.id).map Decoded.truth).getD false
  validateUnique codec state req op rsObject
  validateAuthRule handler config cache req rsObject
  handler.doDynamicValidationContent (getFromState codec state) req op

end Writes

structure RichSchemaTxn where
  request : Request
  op : RichSchemaOperation
  payloadVersion : Option String
  seqNo : Nat
  txnTime : Nat

def RichSchemaTxn.object (txn : RichSchemaTxn) : RichSchemaObject :=
  { txn.op with
    frm := txn.request.identifier.map Subtype.val
    endorser := txn.request.endorser.map Subtype.val
    payloadVersion := txn.payloadVersion
    seqNo := txn.seqNo
    txnTime := txn.txnTime }

section Ledger
variable {β : Type} [DecidableEq β] (codec : Codec β)

def updateState (state : β → Option β) (txn : RichSchemaTxn) : β → Option β :=
  let primaryKey := codec.encode txn.op.id
  let secondaryKey := codec.encode (makeSecondaryKey txn.op.toMetadata)
  Function.update (Function.update state primaryKey (some (codec.serialize txn.object))) secondaryKey
    (some primaryKey)

/-- The domain state, and the object of the last transaction for each id. -/
structure RichLedger (β : Type) where
  state : β → Option β
  objects : String → Option RichSchemaObject

def RichLedger.empty : RichLedger β := ⟨fun _ => none,fun _ => none⟩

def applyTxn (enabled : Bool) (handler : ObjectHandler) (config : ValidatorConfig) (cache : IdrCache)
    (ledger : RichLedger β) (txn : RichSchemaTxn) : Except Raised (RichLedger β) := do
  staticValidation enabled handler txn.request txn.op
  additionalDynamicValidation codec handler config cache ledger.state txn.request txn.op
  return ⟨updateState codec ledger.state txn,Function.update ledger.objects txn.op.id (some txn.object)⟩

end Ledger

section Reads
variable {β : Type} (codec : Codec β) (enabled : Bool) (state : β → Option β) (req : Request)

def validateEnabled : Except Raised Unit :=
  if !enabled then .error (invalid req "RichSchema queries are disabled") else .ok ()

def lookup (path : β) : Except Raised Decoded :=
  match state path with
  | none => .error .keyError
  | some encoded => codec.deserialize encoded

/-- `except KeyError` of both read handlers. -/
def absentOnKeyError : Except Raised Decoded → Except Raised (Option Decoded)
  | .ok value => .ok (some value)
  | .error .keyError => .ok none
  | .error other => .error other

def getRichSchemaObjectById (id : String) : Except Raised (Option Decoded) := do
  validateEnabled enabled req
  absentOnKeyError (lookup codec state (codec.encode id))

def getRichSchemaObjectByMetadata (data : Metadata) : Except Raised (Option Decoded) := do
  validateEnabled enabled req
  match state (codec.encode (makeSecondaryKey data)) with
  | none => return none
  | some id => absentOnKeyError (lookup codec state id)

end Reads
end IndyNode.RichSchema

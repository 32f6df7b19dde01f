import IndyNode.Domain.State

/-! `AttributeHandler`: an attribute of a DID is kept in the attribute store, its
hash in the domain state; for a hash alone the state has an empty text. -/
namespace IndyNode.Domain
open Authorize Nym

inductive AttrType where
  | raw
  | enc
  | hash
deriving DecidableEq, Repr

def AttrType.name : AttrType → String
  | .raw => "raw"
  | .enc => "enc"
  | .hash => "hash"

def allAttrKeys : List AttrType := [.raw,.enc,.hash]

structure AttribOperation where
  dest : Did
  raw : Option String
  enc : Option String
  hash : Option String
deriving DecidableEq, Repr

def attribType : String := "100"

namespace AttribOperation

def get (op : AttribOperation) : AttrType → Option String
  | .raw => op.raw
  | .enc => op.enc
  | .hash => op.hash

/-- The keys that are present, in the order of `ALL_ATR_KEYS`. -/
def existing (op : AttribOperation) : List (AttrType × String) :=
  allAttrKeys.filterMap fun key => (op.get key).map fun value => (key,value)

end AttribOperation

/-- `len` of a parsed JSON text; numbers, booleans and null have none. -/
def jsonLength : Json → Except Raised Nat
  | .str text => .ok text.length
  | .arr items => .ok items.length
  | .obj fields => .ok fields.length
  | _ => .error .typeError

section Handler
variable {ι : Type} (setup : Setup) (req : Request) (op : AttribOperation)

def attribStaticValidation : Except Raised Unit := do
  raiseIf req (op.existing.length ≠ 1) "100 should have one and only one of raw, enc, hash"
  match op.raw with
  | none => return ()
  | some raw =>
    match setup.nym.loads raw with
    | .error _ => throw (invalid req
        "Attribute field must be valid JSON object when adding it as a raw field dest")
    | .ok json =>
      let size ← jsonLength json
      raiseIf req (size = 0) "\"raw\" attribute field must contain non-empty JSON object dest"

/-- `list(json.keys())[0]`. -/
def firstKey : Json → Except Raised String
  | .obj ((key,_)::_) => .ok key
  | .obj [] => .error .indexError
  | _ => .error .attributeError

/-- The name an attribute is looked up with: of raw data the name inside. -/
def attribKey (field : AttrType) (value : String) : Except Raised String :=
  match field with
  | .raw => do firstKey (← setup.nym.loads value)
  | _ => .ok value

/-- `json.popitem()[0]`. -/
def poppedKey : Json → Except Raised String
  | .obj fields =>
    match fields.getLast? with
    | none => .error .keyError
    | some (key,_) => .ok key
  | _ => .error .attributeError

/-- The name under which an attribute is found, hashed unless it is a hash. -/
def attrNameHash (field : AttrType) (key : String) : String :=
  if field = .hash then key else setup.sha256 key

/-- The value and the sequence number of an attribute that exists. -/
def getAttr (ledger : Ledger ι) (did : Did) (key : String) (field : AttrType) :
    Except Raised (Option String × Option Nat) :=
  match ledger.state (makeStatePathForAttr did.val (attrNameHash setup field key)) with
  | none => .ok (none,none)
  | some ⟨.attrib hashedValue,seqNo,_⟩ =>
    if hashedValue = "" then .ok (some hashedValue,some seqNo)
    else
      match ledger.attributes hashedValue with
      | none => .error .keyError
      | some value => .ok (some value,some seqNo)
  | some _ => .error .typeError

/-- What an ATTRIB asks for: `old` is the value it replaces. -/
def attribAction (field : AttrType) (existing : Option Nat) (old : Option String) (value : String)
    (isOwner : Bool) : AuthAction :=
  match existing with
  | some _ => .edit attribType field.name (old.getD "") value isOwner
  | none => .add attribType field.name value isOwner

/-- The lookups before the action is validated. -/
def attribLookup (ledger : Ledger ι) (entry : CacheEntry) : Except Raised AuthAction := do
  match op.existing with
  | [] => throw .assertionError
  | (field,value)::_ =>
    let key ← attribKey setup field value
    let found ← getAttr setup ledger op.dest key field
    return attribAction field found.2 found.1 value (getOwnerFor op.dest entry = req.identifier)

def attribDynamicValidation (ledger : Ledger ι) : Except Raised Unit :=
  match ledger.nyms.cache op.dest with
  | none => .error (invalid req "dest should be added before adding attribute for it")
  | some entry => do
    let action ← attribLookup setup req op ledger entry
    setup.validate ledger req action

/-- `parse_attr_txn`: the type, the name and the value to be stored. -/
def parseAttrTxn : Except Raised (AttrType × String × Option String) :=
  match op.existing with
  | [(.raw,attr)] => do
    let data ← setup.nym.loads attr
    let key ← poppedKey data
    -- To exclude user-side formatting issues.
    return (.raw,key,some (setup.dumps data))
  | [(.enc,attr)] => .ok (.enc,attr,some attr)
  | [(.hash,attr)] => .ok (.hash,attr,none)
  | _ => .error .valueError

/-- The hash of a value; an empty one and none at all have an empty hash. -/
def hashedValue (value : Option String) : String :=
  if truthy value then setup.sha256 (value.getD "") else ""

def attribUpdateState (ledger : Ledger ι) (seqNo txnTime : Nat) :
    Except Raised (State ι × (String → Option String)) := do
  let (field,key,value) ← parseAttrTxn setup op
  let hashed := hashedValue setup value
  let path := makeStatePathForAttr op.dest.val (attrNameHash setup field key)
  let state := Function.update ledger.state path (some ⟨.attrib hashed,seqNo,txnTime⟩)
  return (state,if field = .hash then ledger.attributes
    else Function.update ledger.attributes hashed value)

end Handler
end IndyNode.Domain

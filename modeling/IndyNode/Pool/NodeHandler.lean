import IndyNode.Authorize.OwnerRules

/-! `node_handler.py`: which NODE transactions are accepted. An update is checked field by
field, each changed value by the rule for its field; what a trustee sends is not checked by
the inherited handler first. -/
namespace IndyNode.Pool
open Authorize

/-- A service is a word, so its `repr` is the word in quotes. -/
abbrev Service := {name : String // name.toList.all Char.isAlpha = true}

def validator : Service := ⟨"VALIDATOR",by decide⟩

inductive NodeValue where
  | null
  | text (value : String)
  | number (value : Int)
  | services (names : List Service)
deriving DecidableEq

namespace NodeValue

def str : NodeValue → String
  | .null => ""
  | .text value => value
  | .number value => toString value
  | .services names => "[" ++ ", ".intercalate (names.map fun name => "'" ++ name.val ++ "'") ++ "]"

def orEmpty : NodeValue → NodeValue
  | .null => .services []
  | .text value => if value = "" then .services [] else .text value
  | .number value => if value = 0 then .services [] else .number value
  | .services names => .services names

end NodeValue

/-- The operation of a NODE request. By the message schema `services` is a list and no name of
a field has a dash. -/
structure NodeOperation where
  dest : String
  data : List (String × NodeValue)
  distinct : (data.map Prod.fst).Nodup
  named : ∀ entry ∈ data, '-' ∉ entry.1.toList
  listed : ∀ value, ("services",value) ∈ data → ∃ names, value = .services names

structure NodeRecord where
  steward : Option Did
  data : List (String × NodeValue)

abbrev PoolState := List (String × NodeRecord)

/-- The checks of plenum's `NodeHandler` that this one calls, and `str` of the data. Whose node
a node is, is read from the pool state. -/
structure InheritedChecks where
  dataErrorWhileValidating : List (String × NodeValue) → Option String
  stewardHasNode : PoolState → Option Did → Bool
  isNodeDataConflicting : PoolState → List (String × NodeValue) → Option String
  authErrorWhileUpdatingNode : IdrCache → PoolState → Request → NodeOperation → Option String
  dataErrorWhileValidatingUpdate : PoolState → List (String × NodeValue) → String → Option String
  isStewardOfNode : PoolState → Option Did → String → Bool
  describe : List (String × NodeValue) → String
  stewardHasNode_iff : ∀ state origin, stewardHasNode state origin = true ↔
    ∃ nym record, state.lookup nym = some record ∧ record.steward = origin
  isStewardOfNode_iff : ∀ state origin nym, isStewardOfNode state origin nym = true ↔
    ∃ record, state.lookup nym = some record ∧ record.steward = origin

section
variable (config : ValidatorConfig) (checks : InheritedChecks)

def authErrorWhileAddingNode (cache : IdrCache) (state : PoolState) (req : Request) (op : NodeOperation) :
    Except Raised (Option String) := do
  let error := checks.dataErrorWhileValidating op.data
  if truthy error then return error
  if checks.stewardHasNode state req.identifier then
    return some (RolesAuthorizer.strIdentifier req.identifier ++ " already has a node")
  let error := checks.isNodeDataConflicting state op.data
  if truthy error then
    return some ("existing data has conflicts with request data " ++ checks.describe op.data ++ ". Error: " ++
      error.getD "")
  let services := (op.data.lookup "services").getD (.services [validator])
  validate config cache req [.add "0" "services" services.str true]
  return none

def hasTrustee (cache : IdrCache) : Option Did → Except Raised Bool
  -- `None.encode()` fails.
  | none => .error .attributeError
  | some did => .ok (getRoleOf cache did = some .trustee)

def storedValue (state : PoolState) (nym field : String) : NodeValue :=
  ((state.lookup nym).bind fun record => record.data.lookup field).getD .null

def compared (field : String) (value : NodeValue) : NodeValue :=
  if field = "services" then value.orEmpty else value

def validateField (cache : IdrCache) (state : PoolState) (req : Request) (nym : String)
    (entry : String × NodeValue) : Except Raised Unit := do
  if entry.1 = "blskey_pop" then return
  let oldVal := compared entry.1 (storedValue state nym entry.1)
  let newVal := compared entry.1 entry.2
  if oldVal ≠ newVal then
    validate config cache req
      [.edit "0" entry.1 oldVal.str newVal.str (checks.isStewardOfNode state req.identifier nym)]

def authErrorWhileUpdatingNode (cache : IdrCache) (state : PoolState) (req : Request) (op : NodeOperation) :
    Except Raised (Option String) := do
  let isTrustee ← hasTrustee cache req.identifier
  let error := if isTrustee then none else checks.authErrorWhileUpdatingNode cache state req op
  if truthy error then return error
  let error := checks.dataErrorWhileValidatingUpdate state op.data op.dest
  if truthy error then return error
  (op.data.filter fun entry => entry.1 ≠ "alias").forM (validateField config checks cache state req op.dest)
  return none

/-- Plenum's `additional_dynamic_validation`: a known node is updated, another one added. -/
def additionalDynamicValidation (cache : IdrCache) (state : PoolState) (req : Request) (op : NodeOperation) :
    Except Raised Unit := do
  let error ← if (state.lookup op.dest).isSome then authErrorWhileUpdatingNode config checks cache state req op
    else authErrorWhileAddingNode config checks cache state req op
  if truthy error then throw (unauthorized req (error.getD ""))

def updateData (existing data : List (String × NodeValue)) : List (String × NodeValue) :=
  data ++ existing.filter fun entry => (data.lookup entry.1).isNone

/-- Plenum's `update_state`: the author of the first transaction is the steward of the node. -/
def updateState (state : PoolState) (req : Request) (op : NodeOperation) : PoolState :=
  let existing := (state.lookup op.dest).getD ⟨req.identifier,[]⟩
  (op.dest,{ existing with data := updateData existing.data op.data }) ::
    state.filter fun entry => entry.1 ≠ op.dest

def applyNode (cache : IdrCache) (state : PoolState) (req : Request) (op : NodeOperation) :
    Except Raised PoolState := do
  additionalDynamicValidation config checks cache state req op
  return updateState state req op

end
end IndyNode.Pool

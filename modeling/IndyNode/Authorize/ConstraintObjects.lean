import IndyNode.Authorize.ConstraintDicts
import IndyNode.Foundation.ObjectStore
import IndyNode.Python

/-! Constraints as the objects they are, with the dictionaries they are rebuilt from: copies
are made, popped from and overwritten in place, lists and metadata are shared. -/
namespace IndyNode.Authorize
open Exec

/-- The scalars of a message; of a float only the truth value matters. -/
inductive PyScalar where
  | none
  | bool (value : Bool)
  | int (value : Int)
  | float (truth : Bool)
  | str (text : String)
deriving DecidableEq, Repr

def PyScalar.truth : PyScalar → Bool
  | .none => false
  | .bool value => value
  | .int value => value ≠ 0
  | .float truth => truth
  | .str text => text ≠ ""

abbrev PyJson := JsonTree PyScalar

abbrev PyWord := Word PyScalar

/-- `AuthConstraintAnd` and `AuthConstraintOr`. -/
inductive Connective where
  | and
  | or
deriving DecidableEq, Repr

def Connective.constraintId : Connective → String
  | .and => "AND"
  | .or => "OR"

/-- The attributes of a constraint. -/
inductive ConstraintObject where
  | role (role sigCount needToBeOwner offLedgerSignature metadata : PyWord)
  | list (connective : Connective) (authConstraints : PyWord)
  | forbidden

abbrev PyCell := HeapCell PyScalar ConstraintObject

abbrev Py := Exec Raised PyCell

def strWord (text : String) : PyWord := .scalar (.str text)

section Access

def loadDict : PyWord → Py (List (String × PyWord))
  | .scalar _ => raise .typeError
  | .address address => do
    match ← load .attributeError address with
    | .dict fields => pure fields
    | _ => raise .typeError

def loadList : PyWord → Py (List PyWord)
  | .scalar _ => raise .typeError
  | .address address => do
    match ← load .attributeError address with
    | .list items => pure items
    | _ => raise .typeError

def loadObject : PyWord → Py ConstraintObject
  | .scalar _ => raise .attributeError
  | .address address => do
    match ← load .attributeError address with
    | .object object => pure object
    | _ => raise .attributeError

def getItem (fields : List (String × PyWord)) (key : String) : Py PyWord :=
  match fields.lookup key with
  | none => raise .keyError
  | some word => pure word

def setKey (key : String) (word : PyWord) (fields : List (String × PyWord)) : List (String × PyWord) :=
  if fields.any fun entry => entry.1 = key then
    fields.map fun entry => if entry.1 = key then (key,word) else entry
  else fields ++ [(key,word)]

/-- `as_dict[key] = word`. -/
def setItem (address : Nat) (key : String) (word : PyWord) : Py Unit := do
  let fields ← loadDict (.address address)
  write address (.dict (setKey key word fields))

/-- `as_dict.pop(key)`. -/
def popItem (address : Nat) (key : String) : Py PyWord := do
  let fields ← loadDict (.address address)
  let word ← getItem fields key
  write address (.dict (fields.filter fun entry => entry.1 ≠ key))
  return word

/-- `dict(word)` of a dictionary; `ConstraintField` lets nothing else through. -/
def copyDict (word : PyWord) : Py Nat := do alloc (.dict (← loadDict word))

def wordTruth : PyWord → Py Bool
  | .scalar value => pure value.truth
  | .address address => do
    match ← load .attributeError address with
    | .dict fields => return !fields.isEmpty
    | .list items => return !items.isEmpty
    | .object _ => return true

end Access

section Rebuild

/-- `role in accepted_roles`. -/
def roleAccepted : PyWord → Bool
  | .scalar .none => true
  | .scalar (.str text) => (acceptedRole (some text)).isSome
  | _ => false

def roleValidation (role offLedgerSignature : PyWord) : Py Unit := do
  if !roleAccepted role then raise .valueError
  if (← wordTruth offLedgerSignature) && role ≠ strWord "*" then raise .valueError

/-- `AuthConstraint.from_dict`; the default for the metadata is made in any case. -/
def roleFromDict (address : Nat) : Py Nat := do
  let fields ← loadDict (.address address)
  let role ← getItem fields "role"
  let sigCount ← getItem fields "sig_count"
  let needToBeOwner := (fields.lookup "need_to_be_owner").getD (.scalar (.bool false))
  let offLedgerSignature := (fields.lookup "off_ledger_signature").getD (.scalar .none)
  let empty ← alloc (.dict [])
  let metadata := (fields.lookup "metadata").getD (.address empty)
  roleValidation role offLedgerSignature
  alloc (.object (.role role sigCount needToBeOwner offLedgerSignature metadata))

/-- A copy of the dictionary without its id, given to the class of the id. -/
def fromCopy (fromDict : PyWord → Nat → Py Nat) (checksId : Bool) (word : PyWord) : Py Nat := do
  let copy ← copyDict word
  let constraintId ← popItem copy "constraint_id"
  if checksId && constraintId = .scalar .none then raise .keyError
  fromDict constraintId copy

/-- `as_dict[AUTH_CONSTRAINTS] = auth_constraints`, and the constructor with the fields of the
dictionary as its arguments. -/
def listFromParts (connective : Connective) (address : Nat) (objects : List Nat) : Py Nat := do
  let list ← alloc (.list (objects.map .address))
  setItem address "auth_constraints" (.address list)
  let fields ← loadDict (.address address)
  if fields.any fun entry => entry.1 ≠ "auth_constraints" then raise .typeError
  alloc (.object (.list connective (.address list)))

/-- `from_dict` of a list of constraints, which changes the dictionary it is given. Only
`AuthConstraintOr` looks for a missing id. -/
def listFromDict (fromDict : PyWord → Nat → Py Nat) (connective : Connective) (address : Nat) : Py Nat := do
  let fields ← loadDict (.address address)
  let items ← loadList (← getItem fields "auth_constraints")
  let objects ← each (fromCopy fromDict (connective = .or)) items
  listFromParts connective address objects

/-- `constraint_to_class_map.get(constraint_id).from_dict(as_dict)`. -/
def fromDict : Nat → PyWord → Nat → Py Nat
  | 0, _, _ => raise .diverges
  | fuel + 1, constraintId, address =>
    if constraintId = strWord "ROLE" then roleFromDict address
    else if constraintId = strWord "AND" then listFromDict (fromDict fuel) .and address
    else if constraintId = strWord "OR" then listFromDict (fromDict fuel) .or address
    else if constraintId = strWord "FORBIDDEN" then alloc (.object .forbidden)
    else
      match constraintId with
      | .scalar _ => raise .attributeError
      | .address _ => raise .typeError

/-- `ConstraintCreator.create_constraint`. -/
def createObject (fuel : Nat) (inputDict : PyWord) : Py Nat := fromCopy (fromDict fuel) true inputDict

end Rebuild

section Print

def roleFields (role sigCount needToBeOwner metadata offLedgerSignature : PyWord) : List (String × PyWord) :=
  [("constraint_id",strWord "ROLE"),("role",role),("sig_count",sigCount),("need_to_be_owner",needToBeOwner),
    ("metadata",metadata)] ++
    if offLedgerSignature = .scalar .none then [] else [("off_ledger_signature",offLedgerSignature)]

def listFields (connective : Connective) (list : PyWord) : List (String × PyWord) :=
  [("constraint_id",strWord connective.constraintId),("auth_constraints",list)]

/-- `as_dict`. -/
def objectAsDict : Nat → PyWord → Py PyWord
  | 0, _ => raise .diverges
  | fuel + 1, word => do
    match ← loadObject word with
    | .role role sigCount needToBeOwner offLedgerSignature metadata =>
      return .address (← alloc (.dict (roleFields role sigCount needToBeOwner metadata offLedgerSignature)))
    | .list connective parts =>
      let dicts ← each (objectAsDict fuel) (← loadList parts)
      let list ← alloc (.list dicts)
      return .address (← alloc (.dict (listFields connective (.address list))))
    | .forbidden => return .address (← alloc (.dict [("constraint_id",strWord "FORBIDDEN")]))

end Print

end IndyNode.Authorize

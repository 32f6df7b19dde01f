import IndyNode.Authorize.Constraints
import IndyNode.Authorize.Actions
import Mathlib.Data.List.Nodup

/-! `authorizer.py`: the checks behind one ROLE constraint and the composite
authorizer that walks a constraint tree. Verdicts travel in two ways, as a
returned pair and as a raised `AuthValidationError`. -/
namespace IndyNode.Authorize

/-- An identifier is the base58 text of a 16 or 32 byte value, so it is never
the empty string. -/
abbrev Did := {text : String // text ≠ ""}

/-- What `IdrCache.get` returns for a known DID. `ta` is the DID that added it,
stored as `""` if there is none. -/
structure CacheEntry where
  seqNo : Nat
  txnTime : Option Nat
  ta : Option Did
  role : Role
  verkey : Option String
deriving DecidableEq, Repr

/-- The uncommitted view of the cache; a missing key is a `KeyError`. -/
abbrev IdrCache := Did → Option CacheEntry

/-- The parts of a request that authorization reads. `signatures` is empty when
the field is missing. A single signature is the author's, so it comes with an
identifier. -/
structure Request where
  identifier : Option Did
  reqId : Nat
  signature : Option String
  signatures : List (Did × String)
  endorser : Option Did
  distinct : (signatures.map Prod.fst).Nodup
  identified : truthy signature = true → identifier ≠ none

namespace Request

def hasSignature (req : Request) : Bool := truthy req.signature

def signers (req : Request) : List Did := req.signatures.map Prod.fst

/-- `request.identifier in request.signatures`. -/
def authorSigned (req : Request) : Bool :=
  match req.identifier with
  | none => false
  | some author => author ∈ req.signers

end Request

/-- `_get_role`: `None` for a DID that is not in the cache. -/
def getRoleOf (cache : IdrCache) (did : Did) : Option Role := (cache did).map CacheEntry.role

namespace RolesAuthorizer

def getRole (cache : IdrCache) (req : Request) : Option Role := req.identifier.bind (getRoleOf cache)

def isRoleAccepted (role : Option Role) : RoleSpec → Bool
  | .any => role.isSome
  | .role wanted => role = some wanted

/-- A wildcard counts the entries of `signatures` without looking them up.
`_get_role(None)` would fail on `None.encode()`. -/
def getSigCount (cache : IdrCache) (req : Request) (role : RoleSpec) (offLedger : Bool) :
    Except Raised Nat :=
  if req.hasSignature then
    if offLedger then .ok 1
    else match req.identifier with
      | none => .error .attributeError
      | some author => .ok (if isRoleAccepted (getRoleOf cache author) role then 1 else 0)
  else if req.signatures.isEmpty then .ok 0
  else match role with
    | .any => .ok req.signatures.length
    | .role _ => .ok (req.signers.countP fun did =>
        offLedger || isRoleAccepted (getRoleOf cache did) role)

def isOwnerAccepted (constraint : AuthConstraint) (action : AuthAction) : Bool :=
  !(constraint.needToBeOwner && !action.isOwner)

def isSigCountAccepted (cache : IdrCache) (req : Request) (constraint : AuthConstraint) :
    Except Raised Bool := do
  let sigCount ← getSigCount cache req constraint.role constraint.acceptsOffLedger
  return sigCount ≥ constraint.sigCount

def strIdentifier : Option Did → String
  | none => "None"
  | some did => did.val

def notOwnerReason (cache : IdrCache) (req : Request) (action : AuthAction) : String :=
  let name := getNamedRole (getRole cache req)
  if action.field ≠ "*" then
    name ++ " can not touch " ++ action.field ++ " field since only the owner can modify it"
  else
    name ++ " can not edit " ++ getNameFromCode action.txnType ++
      " txn since only owner can modify it"

def notEnoughReason (role : RoleSpec) : String :=
  let name := match role with
    | .any => "*"
    | .role role => role.name
  "Not enough " ++ name ++ " signatures"

def authorize (cache : IdrCache) (req : Request) (constraint : AuthConstraint) (action : AuthAction) :
    Except Raised (Bool × String) :=
  -- 1. Check that the Author is the owner
  if !isOwnerAccepted constraint action then .ok (false,notOwnerReason cache req action)
  -- 2. Check that the Author is present on the ledger
  else if constraint.sigCount > 0 ∧ !constraint.acceptsOffLedger ∧ (getRole cache req).isNone then
    .ok (false,"sender's DID " ++ strIdentifier req.identifier ++ " is not found in the Ledger")
  -- 3. Check that the Author signed the transaction in case of multi-sig
  else if constraint.sigCount > 0 ∧ !req.signatures.isEmpty ∧ !req.authorSigned then
    .ok (false,"Author must sign the transaction")
  -- 4. Check that there are enough signatures of the needed role
  else do
    let enough ← isSigCountAccepted cache req constraint
    if enough then return (true,"") else return (false,notEnoughReason constraint.role)

end RolesAuthorizer

namespace EndorserAuthorizer

def noNeedForEndorser : Option Role → Bool
  | some .endorser => true
  | some .trustee => true
  | some .steward => true
  | _ => false

def checkEndorserRole (cache : IdrCache) (req : Request) : Bool × String :=
  match req.endorser with
  | none => (true,"")
  | some endorser =>
    if getRoleOf cache endorser = some .endorser then (true,"")
    else (false,"Endorser must have one of the following roles: \x7b'ENDORSER'\x7d")

def checkEndorserFieldPresence (cache : IdrCache) (req : Request) : Bool × String :=
  -- 1. If Endorser is present, Endorser must sign the transaction
  let unsigned := match req.endorser with
    | none => false
    | some endorser => req.endorser ≠ req.identifier ∧ endorser ∉ req.signers
  if unsigned then (false,"Endorser must sign the transaction")
  -- 2. Nothing to check without extra signatures
  else if req.signatures.isEmpty then (true,"")
  else if ¬(req.signatures.length > 1 ∨ !req.authorSigned) then (true,"")
  -- 3. Endorser is required for unprivileged roles only
  else if noNeedForEndorser (req.identifier.bind (getRoleOf cache)) then (true,"")
  -- 4. Endorser field is not required when multi-signed by non-privileged roles only
  else if ¬req.signers.any fun did => noNeedForEndorser (getRoleOf cache did) then (true,"")
  -- 5. Check that Endorser field is present
  else if req.endorser.isNone then
    (false,"'Endorser' field must be explicitly set for the endorsed transaction")
  else (true,"")

def authorize (cache : IdrCache) (req : Request) : Bool × String :=
  let (res,reason) := checkEndorserRole cache req
  if !res then (res,reason)
  else
    let (res,reason) := checkEndorserFieldPresence cache req
    if !res then (res,reason) else (true,"")

end EndorserAuthorizer

/-- `if not authorized: raise AuthValidationError(reason)`. -/
def raiseUnless (verdict : Bool × String) : Except Raised Unit :=
  if verdict.1 then .ok () else .error (.authValidationError verdict.2)

/-- The authorizers registered for ROLE constraints, in order. -/
def roleAuthorizers (cache : IdrCache) :
    List (Request → AuthConstraint → AuthAction → Except Raised (Bool × String)) :=
  [RolesAuthorizer.authorize cache,fun req _ _ => .ok (EndorserAuthorizer.authorize cache req)]

mutual
/-- `CompositeAuthorizer.authorize` with the authorizers of
`register_default_authorizers`. -/
def composite (cache : IdrCache) (req : Request) (action : AuthAction) :
    Constraint → Except Raised (Bool × String)
  | .leaf constraint => do
    (roleAuthorizers cache).forM fun authorizer => do raiseUnless (← authorizer req constraint action)
    return (true,"")
  | .all parts => do
    raiseUnless (← andAuthorize cache req action parts)
    return (true,"")
  | .any parts => do
    raiseUnless (← orAuthorize cache req action parts (" OR ".intercalate (Constraint.texts parts)))
    return (true,"")
  | .never => do
    raiseUnless (false,"The action is forbidden")
    return (true,"")

def andAuthorize (cache : IdrCache) (req : Request) (action : AuthAction) :
    List Constraint → Except Raised (Bool × String)
  | [] => .ok (true,"")
  | part::parts => do
    raiseUnless (← composite cache req action part)
    andAuthorize cache req action parts

/-- `rule` is the text of the whole constraint. -/
def orAuthorize (cache : IdrCache) (req : Request) (action : AuthAction) (parts : List Constraint)
    (rule : String) : Except Raised (Bool × String) := do
  let (successes,fails) ← orLoop cache req action parts
  if successes = 0 then
    throw (.authValidationError ("\n".intercalate
      ["Rule for this action is: " ++ rule,"Failed checks:","\n".intercalate fails]))
  return (true,"")

/-- Every part is tried; only an `AuthValidationError` is caught. -/
def orLoop (cache : IdrCache) (req : Request) (action : AuthAction) :
    List Constraint → Except Raised (Nat × List String)
  | [] => .ok (0,[])
  | part::parts => do
    let failed ← match composite cache req action part with
      | .ok _ => pure none
      | .error (.authValidationError reason) =>
        pure (some ("Constraint: " ++ Constraint.text part ++ ", Error: " ++ reason))
      | .error other => throw other
    let (successes,fails) ← orLoop cache req action parts
    return match failed with
      | none => (successes + 1,fails)
      | some line => (successes,line::fails)
end

end IndyNode.Authorize

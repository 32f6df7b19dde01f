import IndyNode.Python
import IndyNode.Foundation.AndOrTree

/-! Roles and `auth_constraints.py`: the constraint trees an action can be
subject to and the texts that describe them. -/
namespace IndyNode.Authorize

/-- The roles of the ledger. The cache stores the identity owner as `""`,
constraints name it `None`. -/
inductive Role where
  | identityOwner
  | trustee
  | steward
  | endorser
  | networkMonitor
deriving DecidableEq, Repr

/-- `Roles(value).name`. -/
def Role.name : Role → String
  | .identityOwner => "IDENTITY_OWNER"
  | .trustee => "TRUSTEE"
  | .steward => "STEWARD"
  | .endorser => "ENDORSER"
  | .networkMonitor => "NETWORK_MONITOR"

def Role.code : Role → String
  | .identityOwner => ""
  | .trustee => "0"
  | .steward => "2"
  | .endorser => "101"
  | .networkMonitor => "201"

/-- `get_named_role`; an absent DID and an identity owner look alike. -/
def getNamedRole : Option Role → String
  | none => "None role"
  | some .identityOwner => "None role"
  | some role => role.name

/-- The role of a constraint: one role, or `'*'`. -/
inductive RoleSpec where
  | role (role : Role)
  | any
deriving DecidableEq, Repr

/-- A ROLE constraint. `_role_validation` lets off-ledger signatures be accepted
only together with any role. -/
structure AuthConstraint where
  role : RoleSpec
  sigCount : Nat
  needToBeOwner : Bool
  offLedgerSignature : Option Bool
  metadata : List (String × String)
  validated : offLedgerSignature = some true → role = .any
deriving DecidableEq, Repr

namespace AuthConstraint

/-- `off_ledger_signature` as a truth value. -/
def acceptsOffLedger (constraint : AuthConstraint) : Bool :=
  constraint.offLedgerSignature.getD false

def metadataStr (constraint : AuthConstraint) : String :=
  if constraint.metadata.isEmpty then ""
  else "with additional metadata " ++
    " ".intercalate (constraint.metadata.flatMap fun item => [item.1,item.2])

def errorMsg (constraint : AuthConstraint) : String :=
  let count := toString constraint.sigCount
  let many := constraint.sigCount > 1
  let single := constraint.sigCount = 1
  match constraint.acceptsOffLedger,constraint.role,constraint.needToBeOwner with
  | true,_,_ =>
    if many then count ++ " signatures of any role (off-ledger included) are required"
    else if single then "1 signature of any role (off-ledger included) is required"
    else ""
  | false,.role role,owner =>
    let name := getNamedRole (some role)
    let suffix := if owner then " and needs to be owner" else ""
    if many then count ++ " " ++ name ++ " signatures are required" ++ suffix
    else if single then "1 " ++ name ++ " signature is required" ++ suffix
    else ""
  | false,.any,true =>
    if many then count ++ " signatures of any role are required and needs to be owner"
    else if single then "1 signature of any role is required and needs to be owner"
    else ""
  | false,.any,false =>
    if many then count ++ " signatures of any role are required"
    -- The text ends with the name of the role, `ALL`.
    else if single then "1 signature of any role is required ALL"
    else ""

def text (constraint : AuthConstraint) : String :=
  if constraint.metadataStr = "" then constraint.errorMsg
  else constraint.errorMsg ++ " " ++ constraint.metadataStr

end AuthConstraint

abbrev Constraint := AndOrTree AuthConstraint

namespace Constraint

mutual
def text : Constraint → String
  | .leaf constraint => constraint.text
  | .all parts => " AND ".intercalate (texts parts)
  | .any parts => " OR ".intercalate (texts parts)
  | .never => "The action is forbidden"

def texts : List Constraint → List String
  | [] => []
  | part::parts => text part :: texts parts
end

end Constraint

/-- `AuthConstraint(role, sig_count, need_to_be_owner)` for one role. -/
def roleConstraint (role : Role) (sigCount : Nat) (needToBeOwner : Bool) : AuthConstraint :=
  ⟨.role role,sigCount,needToBeOwner,none,[],by simp⟩

/-- `AuthConstraint('*', sig_count, ...)`. -/
def anyRoleConstraint (sigCount : Nat) (needToBeOwner : Bool) (offLedgerSignature : Option Bool) :
    AuthConstraint :=
  ⟨.any,sigCount,needToBeOwner,offLedgerSignature,[],fun _ => rfl⟩

end IndyNode.Authorize

import IndyNode.Authorize.Constraints

/-! Constraints as dictionaries: `as_dict`, `from_dict` and `ConstraintCreator`. A
dictionary is what the message schema admits, one kind for each `constraint_id`. -/
namespace IndyNode.Authorize

inductive ConstraintDict where
  | role (role : Option String) (sigCount : Nat) (needToBeOwner offLedgerSignature : Option Bool)
      (metadata : Option (List (String × String)))
  | and (authConstraints : List ConstraintDict)
  | or (authConstraints : List ConstraintDict)
  | forbidden
deriving Repr

/-- The role of a dictionary; null is the identity owner. -/
def RoleSpec.value : RoleSpec → Option String
  | .any => some "*"
  | .role .identityOwner => none
  | .role named => some named.code

/-- `role in accepted_roles`. -/
def acceptedRole : Option String → Option RoleSpec
  | none => some (.role .identityOwner)
  | some "201" => some (.role .networkMonitor)
  | some "101" => some (.role .endorser)
  | some "2" => some (.role .steward)
  | some "0" => some (.role .trustee)
  | some "*" => some .any
  | some _ => none

private theorem acceptedRole_value (spec : RoleSpec) : acceptedRole spec.value = some spec := by
  cases spec with
  | any => rfl
  | role role => cases role <;> rfl

/-- A failure is the text of the `ValueError`. -/
def AuthConstraint.fromDict (role : Option String) (sigCount : Nat)
    (needToBeOwner offLedgerSignature : Option Bool) (metadata : Option (List (String × String))) :
    Except String AuthConstraint :=
  match acceptedRole role with
  | none => .error ("Role " ++ role.getD "None" ++ " is not acceptable")
  | some spec =>
    if wrong : offLedgerSignature = some true ∧ spec ≠ .any then
      .error ("'off_ledger_signature' can be set to True only if any role is accepted (role='*'). " ++
        "Got " ++ role.getD "None" ++ " role instead.")
    else .ok {
      role := spec
      sigCount := sigCount
      needToBeOwner := needToBeOwner.getD false
      offLedgerSignature := offLedgerSignature
      metadata := metadata.getD []
      validated := fun accepts => Decidable.byContradiction fun named => wrong ⟨accepts,named⟩ }

def AuthConstraint.asDict (constraint : AuthConstraint) : ConstraintDict :=
  .role constraint.role.value constraint.sigCount (some constraint.needToBeOwner)
    constraint.offLedgerSignature (some constraint.metadata)

mutual
/-- `ConstraintCreator.create_constraint`. -/
def createConstraint : ConstraintDict → Except String Constraint
  | .role role sigCount needToBeOwner offLedgerSignature metadata => do
    return .leaf (← AuthConstraint.fromDict role sigCount needToBeOwner offLedgerSignature metadata)
  | .and parts => do return .all (← createConstraints parts)
  | .or parts => do return .any (← createConstraints parts)
  | .forbidden => .ok .never

def createConstraints : List ConstraintDict → Except String (List Constraint)
  | [] => .ok []
  | part::parts => do
    let constraint ← createConstraint part
    return constraint :: (← createConstraints parts)
end

namespace Constraint

mutual
def asDict : Constraint → ConstraintDict
  | .leaf constraint => constraint.asDict
  | .all parts => .and (asDicts parts)
  | .any parts => .or (asDicts parts)
  | .never => .forbidden

def asDicts : List Constraint → List ConstraintDict
  | [] => []
  | part::parts => asDict part :: asDicts parts
end

end Constraint

private theorem fromDict_asDict (constraint : AuthConstraint) :
    AuthConstraint.fromDict constraint.role.value constraint.sigCount (some constraint.needToBeOwner)
      constraint.offLedgerSignature (some constraint.metadata) = .ok constraint := by
  have valid : ¬(constraint.offLedgerSignature = some true ∧ constraint.role ≠ .any) :=
    fun wrong => wrong.2 (constraint.validated wrong.1)
  simp only [AuthConstraint.fromDict,acceptedRole_value]
  rw [dif_neg valid]
  rfl

/-- A constraint is recovered from its dictionary. -/
theorem create_asDict (constraint : Constraint) :
    createConstraint (Constraint.asDict constraint) = .ok constraint := by
  have list (parts : List Constraint)
      (each : ∀ part ∈ parts, createConstraint (Constraint.asDict part) = .ok part) :
      createConstraints (Constraint.asDicts parts) = .ok parts := by
    induction parts with
    | nil => rw [Constraint.asDicts,createConstraints]
    | cons part parts ih =>
      rw [Constraint.asDicts,createConstraints,each part List.mem_cons_self,ok_bind,
        ih fun other member => each other (List.mem_cons_of_mem part member)]
      rfl
  induction constraint using AndOrTree.induct with
  | leaf constraint =>
    rw [Constraint.asDict,AuthConstraint.asDict,createConstraint,fromDict_asDict]
    rfl
  | all parts ih =>
    rw [Constraint.asDict,createConstraint,list parts ih]
    rfl
  | any parts ih =>
    rw [Constraint.asDict,createConstraint,list parts ih]
    rfl
  | never => rw [Constraint.asDict,createConstraint]

end IndyNode.Authorize

import IndyNode.Authorize.ConstraintDicts
import IndyNode.Authorize.RequestValidator
import IndyNode.Nym.Operation

/-! AUTH_RULE, AUTH_RULES and GET_AUTH_RULE: `static_auth_rule_helper.py`, the two
handlers that write rules to the config state and the one that reads them. -/
namespace IndyNode.Config
open Authorize
open Nym (Field)

inductive AuthPrefix where
  | add
  | edit
deriving DecidableEq, Repr

/-- The keys of an operation that name a rule. -/
structure RuleName where
  authAction : Option AuthPrefix
  authType : Option String
  field : Option String
  oldValue : Nym.Field String
  newValue : Nym.Field String
deriving DecidableEq, Repr

/-- One rule of an AUTH_RULE or AUTH_RULES operation, as its schema admits it. -/
structure Rule where
  constraint : ConstraintDict
  authAction : AuthPrefix
  authType : String
  field : String
  oldValue : Nym.Field String
  newValue : Option String
deriving Repr

def Rule.ruleName (rule : Rule) : RuleName :=
  ⟨some rule.authAction,some rule.authType,some rule.field,rule.oldValue,some rule.newValue⟩

/-- `get_auth_key`; without a type the parts of the key cannot be joined. -/
def getAuthKey (name : RuleName) : Except Raised String :=
  match name.authType with
  | none => .error .typeError
  | some authType =>
    let field := name.field.getD ""
    let newValue := name.newValue.get.getD ""
    match name.authAction with
    | some .edit =>
      .ok (AuthAction.edit authType field (name.oldValue.get.getD "") newValue true).actionId
    | _ => .ok (AuthAction.add authType field newValue true).actionId

section Checks
variable (authMap : List (String × Constraint)) (identifier : Option String) (reqId : Nat)

def refuse {α : Type} (reason : String) : Except Raised α :=
  .error (.invalidClientRequest identifier reqId reason)

def checkAuthKey (name : RuleName) : Except Raised Unit := do
  if name.oldValue = none ∧ name.authAction = some .edit then
    refuse identifier reqId
      "Transaction for change authentication rule for auth_action=EDIT must contain field old_value"
  if name.oldValue ≠ none ∧ name.authAction = some .add then
    refuse identifier reqId
      "Transaction for change authentication rule for auth_action=ADD must not contain field old_value"
  let authKey ← getAuthKey name
  if (authMap.lookup authKey).isNone then
    refuse identifier reqId
      ("Unknown authorization rule: key '" ++ authKey ++ "' is not found in authorization map.")

/-- Exactly the keys of the map are accepted, with an old value for edits only. -/
theorem checkAuthKey_iff (name : RuleName) :
    checkAuthKey authMap identifier reqId name = .ok () ↔
      ¬(name.oldValue = none ∧ name.authAction = some .edit) ∧
      ¬(name.oldValue ≠ none ∧ name.authAction = some .add) ∧
      ∃ key, getAuthKey name = .ok key ∧ authMap.lookup key ≠ none := by
  by_cases lacks : name.oldValue = none ∧ name.authAction = some .edit
  · simp [checkAuthKey,lacks,refuse]
  by_cases carries : name.oldValue ≠ none ∧ name.authAction = some .add
  · simp [checkAuthKey,carries,refuse]
  rw [and_iff_right lacks,and_iff_right carries]
  simp only [checkAuthKey,if_neg lacks,if_neg carries]
  cases getAuthKey name with
  | error error => simp [pure,Except.pure]
  | ok key =>
    simp only [pure,Except.pure,ok_bind,Except.ok.injEq,exists_eq_left']
    cases authMap.lookup key with
    | none => simp [refuse]
    | some constraint => simp

def staticValidationForRule (rule : Rule) : Except Raised Unit := do
  match createConstraint rule.constraint with
  | .error reason => refuse identifier reqId reason
  | .ok _ => checkAuthKey authMap identifier reqId rule.ruleName

def staticValidationForRules : List Rule → Except Raised Unit
  | [] => .ok ()
  | rule::rules => do
    staticValidationForRule authMap identifier reqId rule
    staticValidationForRules rules

end Checks

inductive RuleOperation where
  | authRule (rule : Rule)
  | authRules (rules : List Rule)
deriving Repr

def RuleOperation.rules : RuleOperation → List Rule
  | .authRule rule => [rule]
  | .authRules rules => rules

def RuleOperation.txnType : RuleOperation → String
  | .authRule _ => "120"
  | .authRules _ => "122"

structure RuleRequest extends Request where
  operation : RuleOperation

/-- The dictionaries of constraints in the config state; the serializer is assumed
to restore what it stored. -/
abbrev RuleState := String → Option ConstraintDict

def deserialize (dict : ConstraintDict) : Except Raised Constraint :=
  match createConstraint dict with
  | .error _ => .error .valueError
  | .ok constraint => .ok constraint

structure Setup where
  authMap : List (String × Constraint)
  describe : Request → String

/-- The validator of a node that keeps its rules on the config ledger. -/
def Setup.validator (setup : Setup) (state : RuleState) : ValidatorConfig where
  policy := .configLedger
  authMap := setup.authMap
  rules path := (state path).bind fun dict => (deserialize dict).toOption
  describe := setup.describe

def staticValidation (setup : Setup) (req : RuleRequest) : Except Raised Unit :=
  staticValidationForRules setup.authMap (req.identifier.map Subtype.val) req.reqId req.operation.rules

def dynamicValidation (setup : Setup) (cache : IdrCache) (state : RuleState) (req : RuleRequest) :
    Except Raised Unit :=
  validate (setup.validator state) cache req.toRequest [.edit req.operation.txnType "*" "*" "*" true]

def updateAuthConstraint (state : RuleState) (authKey : String) (constraint : Constraint) : RuleState :=
  Function.update state (makeStatePathForAuthRule authKey) (some (Constraint.asDict constraint))

def updateRule (state : RuleState) (rule : Rule) : Except Raised RuleState := do
  let constraint ← deserialize rule.constraint
  let authKey ← getAuthKey rule.ruleName
  return updateAuthConstraint state authKey constraint

def updateState (state : RuleState) (operation : RuleOperation) : Except Raised RuleState :=
  operation.rules.foldlM updateRule state

/-- The number of keys of a GET_AUTH_RULE operation, its type included. -/
def RuleName.fieldCount (name : RuleName) : Nat :=
  1 + name.authAction.isSome.toNat + name.authType.isSome.toNat + name.field.isSome.toNat +
    name.oldValue.isSome.toNat + name.newValue.isSome.toNat

def getStaticValidation (setup : Setup) (identifier : Option String) (reqId : Nat)
    (name : RuleName) : Except Raised Unit :=
  if 1 < name.fieldCount then
    if name.authAction.isSome && name.authType.isSome && name.field.isSome && name.newValue.isSome then
      checkAuthKey setup.authMap identifier reqId name
    else refuse identifier reqId "Not enough fields to build an auth key."
  else .ok ()

structure RuleData where
  constraint : ConstraintDict
  authType : String
  authAction : String
  field : String
  newValue : String
  oldValue : Option String
deriving Repr

def makeAuthRuleData (constraint : Constraint) (action : ActionDef) : RuleData where
  constraint := Constraint.asDict constraint
  authType := action.txnType
  authAction := action.prefixName
  field := action.field
  newValue := action.newValue
  oldValue := if action.prefixName = "EDIT" then some action.oldValue else none

section Read
variable (setup : Setup) (committed : RuleState)

def getAuthRule (key : String) : Except Raised RuleData := do
  let constraint ← match committed (makeStatePathForAuthRule key) with
    | some dict => deserialize dict
    | none =>
      match setup.authMap.lookup key with
      | none => .error .keyError
      | some constraint => .ok constraint
  let action ← splitActionId key
  return makeAuthRuleData constraint action

/-- The operation of a request for one rule has all keys but perhaps the old value. -/
def getResult (name : RuleName) : Except Raised (List RuleData) :=
  if 5 ≤ name.fieldCount then do
    let key ← getAuthKey name
    return [← getAuthRule setup committed key]
  else setup.authMap.mapM fun entry => getAuthRule setup committed entry.1

end Read
end IndyNode.Config

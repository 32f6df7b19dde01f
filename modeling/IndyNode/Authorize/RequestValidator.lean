import IndyNode.Authorize.AuthMap
import IndyNode.Authorize.Decisions

/-! `auth_cons_strategies.py` and `auth_request_validator.py`: how the rule for an
action is found and enforced. Rules are found by comparing identifiers part by
part, the first match in the order of the map decides. -/
namespace IndyNode.Authorize

/-- The comparison of `is_accepted_action_id` on split identifiers. -/
def ActionDef.accepts (am r : ActionDef) : Bool :=
  r.prefixName = am.prefixName && r.txnType = am.txnType &&
    (r.field = am.field || am.field = "*") && (r.oldValue = am.oldValue || am.oldValue = "*") &&
    (r.newValue = am.newValue || am.newValue = "*")

def isAcceptedActionId (fromAuthMap fromReq : String) : Except Raised Bool := do
  let am ← splitActionId fromAuthMap
  let r ← splitActionId fromReq
  return am.accepts r

def findAuthConstraintKey (actionId : String) :
    List (String × Constraint) → Except Raised (Option String)
  | [] => .ok none
  | (amId,_)::rest => do
    let accepted ← isAcceptedActionId amId actionId
    if accepted then return some amId else findAuthConstraintKey actionId rest

def makeStatePathForAuthRule (actionId : String) : String := "1" ++ ":" ++ actionId

inductive AuthPolicy where
  | localAuth
  | configLedger
deriving DecidableEq, Repr

/-- What a `WriteRequestValidator` is built from. `rules` are the uncommitted
constraints of the config state and `describe` is `str(request)`. -/
structure ValidatorConfig where
  policy : AuthPolicy
  authMap : List (String × Constraint)
  rules : String → Option Constraint
  describe : Request → String

section
variable (config : ValidatorConfig)

def getAuthConstraint (actionId : String) : Except Raised (Option Constraint) := do
  match ← findAuthConstraintKey actionId config.authMap with
  | none => return none
  | some amId =>
    match config.policy with
    | .localAuth => return config.authMap.lookup amId
    | .configLedger =>
      return (config.rules (makeStatePathForAuthRule amId)).or (config.authMap.lookup amId)

def unauthorized (req : Request) (reason : String) : Raised :=
  .unauthorizedClientRequest (req.identifier.map Subtype.val) req.reqId reason

/-- The loop returns with the verdict on its first action. -/
def validate (cache : IdrCache) (req : Request) : List AuthAction → Except Raised Unit
  | [] => .ok ()
  | action::_ => do
    match ← getAuthConstraint config action.actionId with
    | some constraint =>
      match composite cache req action constraint with
      | .ok _ => return
      | .error (.authValidationError reason) => throw (unauthorized req reason)
      | .error other => throw other
    | none => throw (unauthorized req
        ("Request can not be authorized as action is not allowed: " ++ config.describe req))

end

theorem isAcceptedActionId_split (am parts : ActionDef) (amClean : am.Clean) (actionId : String)
    (split : splitActionId actionId = .ok parts) :
    isAcceptedActionId (compileActionId am) actionId = .ok (am.accepts parts) := by
  rw [isAcceptedActionId,splitActionId_compile am amClean,split]
  rfl

theorem compileActionId_inj (first second : ActionDef) (firstClean : first.Clean)
    (secondClean : second.Clean) (same : compileActionId first = compileActionId second) :
    first = second := by
  have split := splitActionId_compile first firstClean
  rw [same,splitActionId_compile second secondClean] at split
  exact (Except.ok.inj split).symm

section
variable (entries : List (AuthAction × Constraint))
  (entriesClean : ∀ entry ∈ entries, entry.1.actionDef.Clean) (parts : ActionDef)
include entriesClean

/-- The key that was found leads back to the rule it belongs to. -/
theorem lookup_of_find (found : AuthAction × Constraint)
    (first : (entries.find? fun entry => entry.1.actionDef.accepts parts) = some found) :
    (keyed entries).lookup found.1.actionId = some found.2 := by
  induction entries with
  | nil => simp at first
  | cons entry entries ih =>
    rw [keyed,List.map_cons,List.lookup_cons]
    rw [List.find?_cons] at first
    cases accepted : entry.1.actionDef.accepts parts with
    | true =>
      rw [accepted] at first
      rw [Option.some.inj first]
      simp
    | false =>
      rw [accepted] at first
      have differs : (found.1.actionId == entry.1.actionId) = false := by
        rw [beq_eq_false_iff_ne]
        intro same
        have member := List.mem_of_find?_eq_some first
        have equal := compileActionId_inj _ _
          (entriesClean found (List.mem_cons_of_mem entry member))
          (entriesClean entry List.mem_cons_self) same
        have holds := List.find?_some first
        rw [equal,accepted] at holds
        exact absurd holds (by simp)
      simp only [differs]
      exact ih (fun other member => entriesClean other (List.mem_cons_of_mem entry member)) first

/-- The search compares the parts of the identifier with those of the entries. -/
theorem findAuthConstraintKey_split (actionId : String)
    (split : splitActionId actionId = .ok parts) :
    findAuthConstraintKey actionId (keyed entries) =
      .ok ((entries.find? fun entry => entry.1.actionDef.accepts parts).map
        fun entry => entry.1.actionId) := by
  induction entries with
  | nil => rfl
  | cons entry entries ih =>
    have head := isAcceptedActionId_split entry.1.actionDef parts
      (entriesClean entry List.mem_cons_self) actionId split
    have rest := ih fun other member => entriesClean other (List.mem_cons_of_mem entry member)
    simp only [keyed,List.map_cons,findAuthConstraintKey]
    rw [AuthAction.actionId,head,ok_bind,List.find?_cons]
    cases entry.1.actionDef.accepts parts with
    | true => rfl
    | false => exact rest

end

def defaultConfig (policy : AuthPolicy) (describe : Request → String) : ValidatorConfig :=
  ⟨policy,authMap,fun _ => none,describe⟩

theorem authRules_clean : ∀ rule ∈ authRules, rule.1.actionDef.Clean := by
  decide +kernel

/-- Under both policies the first rule of the map that accepts an action decides. -/
theorem getAuthConstraint_default (policy : AuthPolicy) (describe : Request → String)
    (action : AuthAction) (clean : action.actionDef.Clean) :
    getAuthConstraint (defaultConfig policy describe) action.actionId =
      .ok ((authRules.find? fun rule => rule.1.actionDef.accepts action.actionDef).map Prod.snd) := by
  have found := findAuthConstraintKey_split authRules authRules_clean action.actionDef
    action.actionId (splitActionId_compile _ clean)
  rw [getAuthConstraint,defaultConfig,authMap,found,ok_bind]
  cases first : authRules.find? fun rule => rule.1.actionDef.accepts action.actionDef with
  | none => rfl
  | some rule =>
    have back := lookup_of_find authRules authRules_clean action.actionDef rule first
    cases policy with
    | localAuth =>
      simp only [Option.map_some,back]
      rfl
    | configLedger =>
      simp only [Option.map_some,back]
      rfl

/-- An action is valid exactly when a constraint is found for it and holds. -/
theorem validate_iff (config : ValidatorConfig) (cache : IdrCache) (req : Request)
    (action : AuthAction) (others : List AuthAction) :
    validate config cache req (action::others) = .ok () ↔
      ∃ constraint, getAuthConstraint config action.actionId = .ok (some constraint) ∧
        constraint.eval (leafHolds cache req action) = true := by
  refine ⟨fun valid => ?_,fun ⟨constraint,search,holds⟩ => ?_⟩
  · rw [validate] at valid
    obtain ⟨found,search,enforced⟩ := bind_success _ _ _ valid
    cases found with
    | none => simp [throw_eq] at enforced
    | some constraint =>
      refine ⟨constraint,search,?_⟩
      have decides := composite_decides cache req action constraint
      cases holds : constraint.eval (leafHolds cache req action) with
      | true => rfl
      | false =>
        rw [holds] at decides
        obtain ⟨reason,raised⟩ := decides
        simp [raised,throw_eq] at enforced
  · rw [validate,search,ok_bind]
    simp only [(composite_decides cache req action constraint).accepted.mpr holds]
    rfl

end IndyNode.Authorize

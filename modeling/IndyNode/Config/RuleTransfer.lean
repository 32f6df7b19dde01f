import IndyNode.Authorize.OwnerRules
import IndyNode.Config.AuthRuleRuns

/-! The rules of one pool written to another. What GET_AUTH_RULE replies is turned into
AUTH_RULES, and the pool that accepts it decides every request as the first one did,
whatever rules and defaults it had before. -/
namespace IndyNode.Config
open Authorize

section Reading

/-- The constraint that a state, or the map behind it, has for a key. -/
def Reads (initial : Constraint) (key : String) (state : RuleState) (constraint : Constraint) : Prop :=
  match state (makeStatePathForAuthRule key) with
  | none => constraint = initial
  | some dict => deserialize dict = .ok constraint

private theorem findAuthConstraintKey_keys (actionId : String) {first second : List (String × Constraint)}
    (same : first.map Prod.fst = second.map Prod.fst) :
    findAuthConstraintKey actionId first = findAuthConstraintKey actionId second := by
  induction first generalizing second with
  | nil =>
    rw [List.map_nil,eq_comm,List.map_eq_nil_iff] at same
    rw [same]
  | cons entry first ih =>
    cases second with
    | nil => simp at same
    | cons other second =>
      obtain ⟨key,constraint⟩ := entry
      obtain ⟨key',constraint'⟩ := other
      obtain ⟨rfl,rest⟩ := List.cons.inj same
      simp only [findAuthConstraintKey,ih rest]

variable (describe : Request → String)

private theorem reads_lookup (defaults : AuthAction → Constraint) (state : RuleState) (rule : AuthAction × Constraint)
    (listed : rule ∈ authRules) (constraint : Constraint)
    (reads : Reads (defaults rule.1) rule.1.actionId state constraint) :
    (((setupWith defaults describe).validator state).rules (makeStatePathForAuthRule rule.1.actionId)).or
      ((setupWith defaults describe).authMap.lookup rule.1.actionId) = some constraint := by
  rw [lookup_default defaults describe rule listed]
  rw [Reads] at reads
  simp only [Setup.validator]
  split at reads
  · rename_i absent
    rw [absent,reads]
    rfl
  · rename_i dict stored
    rw [stored,Option.bind_some,reads]
    rfl

/-- Two nodes that have the same constraint for every key decide alike. -/
theorem validate_alike (defaults others : AuthAction → Constraint) (source target : RuleState)
    (shown : String → Constraint)
    (here : ∀ rule ∈ authRules, Reads (defaults rule.1) rule.1.actionId source (shown rule.1.actionId))
    (there : ∀ rule ∈ authRules, Reads (others rule.1) rule.1.actionId target (shown rule.1.actionId))
    (cache : IdrCache) (req : Request) (actions : List AuthAction) :
    validate ((setupWith others describe).validator target) cache req actions =
      validate ((setupWith defaults describe).validator source) cache req actions := by
  have alike (actionId : String) :
      getAuthConstraint ((setupWith others describe).validator target) actionId =
        getAuthConstraint ((setupWith defaults describe).validator source) actionId := by
    have keys : findAuthConstraintKey actionId (setupWith others describe).authMap =
        findAuthConstraintKey actionId (setupWith defaults describe).authMap :=
      findAuthConstraintKey_keys actionId (by simp [setupWith,keyed,withDefaults,Function.comp_def])
    have value (amId : String)
        (found : findAuthConstraintKey actionId (setupWith defaults describe).authMap = .ok (some amId)) :
        ((((setupWith others describe).validator target).rules (makeStatePathForAuthRule amId)).or
          ((setupWith others describe).authMap.lookup amId)) =
        ((((setupWith defaults describe).validator source).rules (makeStatePathForAuthRule amId)).or
          ((setupWith defaults describe).authMap.lookup amId)) := by
      obtain ⟨entry,member,rfl,_⟩ := findAuthConstraintKey_mem _ (withDefaults_clean defaults) _ _ found
      obtain ⟨rule,listed,rfl⟩ := List.mem_map.mp member
      rw [reads_lookup describe others target rule listed _ (there rule listed),
        reads_lookup describe defaults source rule listed _ (here rule listed)]
    have target_map : ((setupWith others describe).validator target).authMap =
      (setupWith others describe).authMap := rfl
    have source_map : ((setupWith defaults describe).validator source).authMap =
      (setupWith defaults describe).authMap := rfl
    rw [getAuthConstraint,getAuthConstraint,target_map,source_map,keys]
    cases found : findAuthConstraintKey actionId (setupWith defaults describe).authMap with
    | error raised => rfl
    | ok result =>
      cases result with
      | none => rfl
      | some amId => exact congrArg Except.ok (value amId found)
  cases actions with
  | nil => rfl
  | cons action rest =>
    rw [validate,validate,alike]
    rfl

end Reading

section Transfer

/-- The rule that sets what a reply has said. -/
def RuleData.toRule (data : RuleData) : Rule where
  constraint := data.constraint
  authAction := if data.authAction = "EDIT" then .edit else .add
  authType := data.authType
  field := data.field
  oldValue := data.oldValue.map some
  newValue := some data.newValue

def transferOperation (replies : List RuleData) : RuleOperation := .authRules (replies.map RuleData.toRule)

private theorem toRule_key (constraint : Constraint) (action : AuthAction) :
    getAuthKey (makeAuthRuleData constraint action.actionDef).toRule.ruleName = .ok action.actionId := by
  cases action with
  | add txnType field value isOwner => rfl
  | edit txnType field oldValue newValue isOwner => rfl

variable (defaults : AuthAction → Constraint) (describe : Request → String)

private theorem toRule_valid (identifier : Option String) (reqId : Nat) (rule : AuthAction × Constraint)
    (listed : rule ∈ authRules) (constraint : Constraint) :
    staticValidationForRule (setupWith defaults describe).authMap identifier reqId
      (makeAuthRuleData constraint rule.1.actionDef).toRule = .ok () := by
  have checked : checkAuthKey (setupWith defaults describe).authMap identifier reqId
      (makeAuthRuleData constraint rule.1.actionDef).toRule.ruleName = .ok () := by
    refine (checkAuthKey_iff _ _ _ _).mpr ⟨?_,?_,rule.1.actionId,toRule_key constraint rule.1,?_⟩
    · cases rule.1 <;> simp [Rule.ruleName,RuleData.toRule,makeAuthRuleData,AuthAction.actionDef]
    · cases rule.1 <;> simp [Rule.ruleName,RuleData.toRule,makeAuthRuleData,AuthAction.actionDef]
    · simp [lookup_default defaults describe rule listed]
  have created : createConstraint (makeAuthRuleData constraint rule.1.actionDef).toRule.constraint =
    .ok constraint := create_asDict constraint
  rw [staticValidationForRule,created]
  exact checked

private theorem staticValidationForRules_iff (authMap : List (String × Constraint)) (identifier : Option String)
    (reqId : Nat) (rules : List Rule) : staticValidationForRules authMap identifier reqId rules = .ok () ↔
      ∀ rule ∈ rules, staticValidationForRule authMap identifier reqId rule = .ok () := by
  induction rules with
  | nil => simp [staticValidationForRules]
  | cons rule rules ih =>
    rw [staticValidationForRules,List.forall_mem_cons,← ih]
    cases staticValidationForRule authMap identifier reqId rule with
    | error raised => simp
    | ok _ => simp

private theorem getAuthRule_reads (state : RuleState) (rule : AuthAction × Constraint) (listed : rule ∈ authRules)
    (data : RuleData) (read : getAuthRule (setupWith defaults describe) state rule.1.actionId = .ok data) :
    ∃ constraint, Reads (defaults rule.1) rule.1.actionId state constraint ∧
      data = makeAuthRuleData constraint rule.1.actionDef := by
  have split := splitActionId_rule rule listed
  cases stored : state (makeStatePathForAuthRule rule.1.actionId) with
  | none =>
    simp only [getAuthRule,stored,lookup_default defaults describe rule listed,ok_bind,split] at read
    exact ⟨defaults rule.1,by simp only [Reads,stored],(Except.ok.inj read).symm⟩
  | some dict =>
    cases made : deserialize dict with
    | error raised => simp [getAuthRule,stored,made] at read
    | ok constraint =>
      simp only [getAuthRule,stored,made,ok_bind,split] at read
      exact ⟨constraint,by simp only [Reads,stored,made],(Except.ok.inj read).symm⟩

private theorem getAuthRule_of_reads (state : RuleState) (rule : AuthAction × Constraint) (listed : rule ∈ authRules)
    (constraint : Constraint) (reads : Reads (defaults rule.1) rule.1.actionId state constraint) :
    getAuthRule (setupWith defaults describe) state rule.1.actionId =
      .ok (makeAuthRuleData constraint rule.1.actionDef) := by
  have split := splitActionId_rule rule listed
  rw [Reads] at reads
  split at reads
  · rename_i absent
    simp only [getAuthRule,absent,lookup_default defaults describe rule listed,ok_bind,split,reads]
    rfl
  · rename_i dict stored
    simp only [getAuthRule,stored,reads,ok_bind,split]
    rfl

private theorem getResult_reads (state : RuleState) (replies : List RuleData)
    (read : getResult (setupWith defaults describe) state allRules = .ok replies) :
    ∃ shown : String → Constraint,
      (∀ rule ∈ authRules, Reads (defaults rule.1) rule.1.actionId state (shown rule.1.actionId)) ∧
      replies = authRules.map fun rule => makeAuthRuleData (shown rule.1.actionId) rule.1.actionDef := by
  have rows : (keyed (withDefaults defaults)).mapM
    (fun entry => getAuthRule (setupWith defaults describe) state entry.1) = .ok replies := read
  have each : ∀ key, ∃ constraint, ∀ rule ∈ authRules, rule.1.actionId = key →
      Reads (defaults rule.1) key state constraint := by
    intro key
    by_cases known : ∃ rule ∈ authRules, rule.1.actionId = key
    · obtain ⟨rule,listed,rfl⟩ := known
      obtain ⟨data,row⟩ := mapM_ok_mem rows (rule.1.actionId,defaults rule.1)
        (List.mem_map_of_mem (mem_withDefaults defaults rule listed))
      obtain ⟨constraint,reads,_⟩ := getAuthRule_reads defaults describe state rule listed data row
      refine ⟨constraint,fun other listed' same => ?_⟩
      have one := lookup_default defaults describe rule listed
      have two := lookup_default defaults describe other listed'
      rw [same,one] at two
      rwa [← Option.some.inj two]
    · exact ⟨defaults (.add "" "" "" true),fun rule listed same => absurd ⟨rule,listed,same⟩ known⟩
  choose shown reads using each
  refine ⟨shown,fun rule listed => reads _ rule listed rfl,?_⟩
  have replied : (keyed (withDefaults defaults)).mapM
      (fun entry => getAuthRule (setupWith defaults describe) state entry.1) =
        .ok (authRules.map fun rule => makeAuthRuleData (shown rule.1.actionId) rule.1.actionDef) := by
    rw [mapM_ok_iff,keyed,withDefaults,List.forall₂_map_left_iff,List.forall₂_map_left_iff,
      List.forall₂_map_right_iff,List.forall₂_same]
    intro rule listed
    exact getAuthRule_of_reads defaults describe state rule listed _ (reads _ rule listed rfl)
  exact Except.ok.inj (rows.symm.trans replied)

private theorem transfer_named (shown : String → Constraint) (rule : AuthAction × Constraint)
    (listed : rule ∈ authRules) :
    lastNamed rule.1.actionId ((authRules.map fun rule =>
      makeAuthRuleData (shown rule.1.actionId) rule.1.actionDef).map RuleData.toRule) =
        some (Constraint.asDict (shown rule.1.actionId)) := by
  have there : ∃ named ∈ ((authRules.map fun rule =>
      makeAuthRuleData (shown rule.1.actionId) rule.1.actionDef).map RuleData.toRule).reverse,
        decide (getAuthKey named.ruleName = .ok rule.1.actionId) = true := by
    refine ⟨(makeAuthRuleData (shown rule.1.actionId) rule.1.actionDef).toRule,?_,?_⟩
    · exact List.mem_reverse.mpr (List.mem_map_of_mem (List.mem_map.mpr ⟨rule,listed,rfl⟩))
    · simp [toRule_key]
  obtain ⟨named,found⟩ := Option.isSome_iff_exists.mp (List.find?_isSome.mpr there)
  have key : getAuthKey named.ruleName = .ok rule.1.actionId := by simpa using List.find?_some found
  have member := List.mem_reverse.mp (List.mem_of_find?_eq_some found)
  simp only [List.map_map,List.mem_map,Function.comp_apply] at member
  obtain ⟨other,_,rfl⟩ := member
  rw [toRule_key] at key
  rw [lastNamed,found,Option.map_some,← Except.ok.inj key]
  rfl

end Transfer

end IndyNode.Config

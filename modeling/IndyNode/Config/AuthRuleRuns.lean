import IndyNode.Authorize.Unambiguous
import IndyNode.Config.AuthRules
import IndyNode.Nym.Privilege

/-! The rules in force over whole runs. Writer, reader and validator each rebuild
the key of a rule; the paths of the config state hold the last constraint given
for each key, and no two patterns of the map accept the same action. -/
namespace IndyNode.Config
open Authorize

/-- The last constraint a list of rules gives for a key. -/
def lastNamed (key : String) (rules : List Rule) : Option ConstraintDict :=
  (rules.reverse.find? fun rule => getAuthKey rule.ruleName = .ok key).map Rule.constraint

/-- The constraint given last for a key, or the one the map starts with. -/
def InForce (initial : Constraint) (key : String) (rules : List Rule) (constraint : Constraint) : Prop :=
  match lastNamed key rules with
  | none => constraint = initial
  | some dict => createConstraint dict = .ok constraint

private theorem lastNamed_snoc (key : String) (rules : List Rule) (rule : Rule) :
    lastNamed key (rules ++ [rule]) =
      if getAuthKey rule.ruleName = .ok key then some rule.constraint else lastNamed key rules := by
  rw [lastNamed,List.reverse_append,List.reverse_singleton,List.singleton_append,List.find?_cons]
  by_cases named : getAuthKey rule.ruleName = .ok key
  · simp [named]
  · simp [named,lastNamed]

private theorem inForce_unique (initial : Constraint) (key : String) (rules : List Rule)
    (first second : Constraint) (one : InForce initial key rules first)
    (other : InForce initial key rules second) : first = second := by
  rw [InForce] at one other
  cases last : lastNamed key rules with
  | none =>
    simp only [last] at one other
    exact one.trans other.symm
  | some dict =>
    simp only [last] at one other
    exact Except.ok.inj (one.symm.trans other)

private theorem makeStatePathForAuthRule_inj (first second : String)
    (same : makeStatePathForAuthRule first = makeStatePathForAuthRule second) : first = second := by
  rw [makeStatePathForAuthRule,makeStatePathForAuthRule,← String.toList_inj] at same
  rw [← String.toList_inj]
  simpa using same

private theorem deserialize_ok (dict : ConstraintDict) (constraint : Constraint) :
    deserialize dict = .ok constraint ↔ createConstraint dict = .ok constraint := by
  rw [deserialize]
  split <;> simp [*]

theorem deserialize_asDict (constraint : Constraint) :
    deserialize (Constraint.asDict constraint) = .ok constraint :=
  (deserialize_ok _ _).mpr (create_asDict constraint)

private theorem updateRule_spec (state after : RuleState) (rule : Rule)
    (written : updateRule state rule = .ok after) :
    ∃ constraint key, createConstraint rule.constraint = .ok constraint ∧
      getAuthKey rule.ruleName = .ok key ∧ after = updateAuthConstraint state key constraint := by
  obtain ⟨constraint,created,rest⟩ := bind_success _ _ _ written
  obtain ⟨key,built,rest⟩ := bind_success _ _ _ rest
  exact ⟨constraint,key,(deserialize_ok _ _).mp created,built,(Except.ok.inj rest).symm⟩

/-- The paths of rules after the rules of a history. -/
def Follows (start : RuleState) (rules : List Rule) (state : RuleState) : Prop :=
  ∀ key, match lastNamed key rules with
    | none => state (makeStatePathForAuthRule key) = start (makeStatePathForAuthRule key)
    | some dict => ∃ constraint, createConstraint dict = .ok constraint ∧
      state (makeStatePathForAuthRule key) = some (Constraint.asDict constraint)

theorem Follows.start (state : RuleState) : Follows state [] state := fun _ => rfl

private theorem Follows.rule {start state after : RuleState} {rules : List Rule} (rule : Rule)
    (holds : Follows start rules state) (written : updateRule state rule = .ok after) :
    Follows start (rules ++ [rule]) after := by
  obtain ⟨constraint,key,created,built,rfl⟩ := updateRule_spec _ _ _ written
  intro other
  rw [lastNamed_snoc,built]
  by_cases same : key = other
  · subst same
    rw [if_pos rfl]
    exact ⟨constraint,created,Function.update_self ..⟩
  · have elsewhere : makeStatePathForAuthRule other ≠ makeStatePathForAuthRule key :=
      fun equal => same (makeStatePathForAuthRule_inj _ _ equal).symm
    rw [if_neg fun equal => same (Except.ok.inj equal),updateAuthConstraint,
      Function.update_of_ne elsewhere]
    exact holds other

theorem Follows.update {start : RuleState} (added : List Rule) :
    ∀ {rules : List Rule} {state after : RuleState}, Follows start rules state →
      added.foldlM updateRule state = .ok after → Follows start (rules ++ added) after := by
  induction added with
  | nil =>
    intro rules state after holds written
    rw [List.append_nil,← Except.ok.inj written]
    exact holds
  | cons rule added ih =>
    intro rules state after holds written
    rw [List.foldlM_cons] at written
    obtain ⟨next,first,rest⟩ := bind_success _ _ _ written
    rw [← List.singleton_append,← List.append_assoc]
    exact ih (holds.rule rule first) rest

private theorem updateState_other (operation : RuleOperation) (state after : RuleState) (path : String)
    (written : updateState state operation = .ok after)
    (unnamed : ∀ rule ∈ operation.rules, ∀ key, getAuthKey rule.ruleName = .ok key →
      makeStatePathForAuthRule key ≠ path) :
    after path = state path := by
  rw [updateState] at written
  generalize operation.rules = rules at written unnamed
  induction rules generalizing state with
  | nil => rw [← Except.ok.inj written]
  | cons rule rules ih =>
    rw [List.foldlM_cons] at written
    obtain ⟨next,first,rest⟩ := bind_success _ _ _ written
    obtain ⟨constraint,key,_,built,rfl⟩ := updateRule_spec _ _ _ first
    rw [ih _ rest fun other member => unnamed other (List.mem_cons_of_mem rule member),
      updateAuthConstraint]
    exact Function.update_of_ne (unnamed rule List.mem_cons_self key built).symm ..

/-- What passed static validation can be written. -/
theorem accepted_written (setup : Setup) (req : RuleRequest)
    (shaped : staticValidation setup req = .ok ()) (state : RuleState) :
    ∃ after, updateState state req.operation = .ok after := by
  rw [staticValidation] at shaped
  rw [updateState]
  generalize req.operation.rules = rules at shaped
  induction rules generalizing state with
  | nil => exact ⟨state,rfl⟩
  | cons rule rules ih =>
    obtain ⟨_,checked,rest⟩ := bind_success _ _ _ shaped
    rw [staticValidationForRule] at checked
    cases created : createConstraint rule.constraint with
    | error reason => simp [created,refuse] at checked
    | ok constraint =>
      have written : ∃ next, updateRule state rule = .ok next := by
        simp only [updateRule,(deserialize_ok _ _).mpr created,ok_bind,getAuthKey,Rule.ruleName]
        cases rule.authAction with
        | add => exact ⟨_,rfl⟩
        | edit => exact ⟨_,rfl⟩
      obtain ⟨next,first⟩ := written
      rw [List.foldlM_cons,first,ok_bind]
      exact ih next rest

/-- A node with the transactions it has applied and not committed, oldest first,
each with the state it left. -/
structure ConfigNode where
  committed : RuleState
  pending : List (RuleOperation × RuleState)

def ConfigNode.uncommitted (node : ConfigNode) : RuleState :=
  (node.pending.getLast?.map Prod.snd).getD node.committed

/-- The runs of a node and the transactions it has committed. Rejecting a batch
takes back the newest transactions. -/
inductive ConfigRun (setup : Setup) (start : RuleState) : List RuleOperation → ConfigNode → Prop where
  | start : ConfigRun setup start [] ⟨start,[]⟩
  | apply (settled : List RuleOperation) (node : ConfigNode) (cache : IdrCache) (req : RuleRequest)
      (after : RuleState) (run : ConfigRun setup start settled node)
      (shaped : staticValidation setup req = .ok ())
      (allowed : dynamicValidation setup cache node.uncommitted req = .ok ())
      (written : updateState node.uncommitted req.operation = .ok after) :
      ConfigRun setup start settled ⟨node.committed,node.pending ++ [(req.operation,after)]⟩
  | commit (settled : List RuleOperation) (committed root : RuleState) (operation : RuleOperation)
      (before later : List (RuleOperation × RuleState))
      (run : ConfigRun setup start settled ⟨committed,before ++ (operation,root) :: later⟩) :
      ConfigRun setup start (settled ++ before.map Prod.fst ++ [operation]) ⟨root,later⟩
  | reject (settled : List RuleOperation) (committed : RuleState)
      (kept dropped : List (RuleOperation × RuleState))
      (run : ConfigRun setup start settled ⟨committed,kept ++ dropped⟩) :
      ConfigRun setup start settled ⟨committed,kept⟩

def rulesOf (operations : List RuleOperation) : List Rule := operations.flatMap RuleOperation.rules

def ConfigNode.applied (node : ConfigNode) (settled : List RuleOperation) : List Rule :=
  rulesOf (settled ++ node.pending.map Prod.fst)

/-- Every state a node keeps follows the transactions it stands for. -/
structure Consistent (start : RuleState) (settled : List RuleOperation) (node : ConfigNode) : Prop where
  committed : Follows start (rulesOf settled) node.committed
  pending : ∀ before operation root later, node.pending = before ++ (operation,root) :: later →
    Follows start (rulesOf (settled ++ before.map Prod.fst ++ [operation])) root

private theorem Consistent.uncommitted {start : RuleState} {settled : List RuleOperation} {node : ConfigNode}
    (holds : Consistent start settled node) : Follows start (node.applied settled) node.uncommitted := by
  rw [ConfigNode.applied,ConfigNode.uncommitted]
  rcases List.eq_nil_or_concat node.pending with none | ⟨before,⟨operation,root⟩,shape⟩
  · simpa [none] using holds.committed
  · have last := holds.pending before operation root [] (by simpa using shape)
    simpa [shape] using last

private theorem run_consistent {setup : Setup} {start : RuleState} {settled : List RuleOperation}
    {node : ConfigNode} (run : ConfigRun setup start settled node) : Consistent start settled node := by
  induction run with
  | start => exact ⟨Follows.start start,fun before operation root later shape => by simp at shape⟩
  | apply settled node cache req after run shaped allowed written ih =>
    refine ⟨ih.committed,?_⟩
    intro before operation root later shape
    rcases List.eq_nil_or_concat later with rfl | ⟨others,last,rfl⟩
    · obtain ⟨rfl,ends⟩ := List.append_inj' shape rfl
      obtain ⟨rfl,rfl⟩ := Prod.mk.inj (List.head_eq_of_cons_eq ends)
      have next := ih.uncommitted.update req.operation.rules written
      simpa [ConfigNode.applied,rulesOf] using next
    · refine ih.pending before operation root others ?_
      have ends : node.pending ++ [(req.operation,after)] =
          (before ++ (operation,root) :: others) ++ [last] := by
        refine Eq.trans shape ?_
        simp
      exact (List.append_inj' ends rfl).1
  | commit settled committed root operation before later run ih =>
    refine ⟨ih.pending before operation root later rfl,?_⟩
    intro earlier other root' later' shape
    have split : before ++ (operation,root) :: later =
        (before ++ (operation,root) :: earlier) ++ (other,root') :: later' := by
      have equal : later = earlier ++ (other,root') :: later' := shape
      simp [equal]
    have holds := ih.pending _ other root' later' split
    simpa using holds
  | reject settled committed kept dropped run ih =>
    refine ⟨ih.committed,?_⟩
    intro before operation root later shape
    refine ih.pending before operation root (later ++ dropped) ?_
    have equal : kept = before ++ (operation,root) :: later := shape
    simp [equal]

/-- The path of a rule holds the constraint, or nothing while it is the default. -/
def Shows (initial : Constraint) (key : String) (state : RuleState) (constraint : Constraint) : Prop :=
  constraint = initial ∧ state (makeStatePathForAuthRule key) = none ∨
    state (makeStatePathForAuthRule key) = some (Constraint.asDict constraint)

private theorem Follows.shows {start state : RuleState} {rules : List Rule} (holds : Follows start rules state)
    (initial : Constraint) (key : String) (unset : start (makeStatePathForAuthRule key) = none) :
    ∃ constraint, InForce initial key rules constraint ∧ Shows initial key state constraint := by
  have path := holds key
  cases last : lastNamed key rules with
  | none =>
    simp only [last] at path
    refine ⟨initial,?_,.inl ⟨rfl,path.trans unset⟩⟩
    simp only [InForce,last]
  | some dict =>
    simp only [last] at path
    obtain ⟨constraint,created,stored⟩ := path
    refine ⟨constraint,?_,.inr stored⟩
    simp only [InForce,last]
    exact created

section Map
variable (defaults : AuthAction → Constraint) (describe : Request → String)

/-- The rules of `auth_map` with any constraints to start with. -/
def withDefaults : List (AuthAction × Constraint) := authRules.map fun rule => (rule.1,defaults rule.1)

def setupWith : Setup := ⟨keyed (withDefaults defaults),describe⟩

theorem withDefaults_clean : ∀ entry ∈ withDefaults defaults, entry.1.actionDef.Clean := by
  intro entry member
  obtain ⟨rule,listed,rfl⟩ := List.mem_map.mp member
  exact authRules_clean rule listed

private theorem withDefaults_separate : (withDefaults defaults).Pairwise Separate :=
  List.pairwise_map.mpr authRules_separate

variable (rule : AuthAction × Constraint) (listed : rule ∈ authRules)
include listed

theorem mem_withDefaults : (rule.1,defaults rule.1) ∈ withDefaults defaults :=
  List.mem_map_of_mem listed

theorem lookup_default : (setupWith defaults describe).authMap.lookup rule.1.actionId =
    some (defaults rule.1) :=
  lookup_entry _ (withDefaults_separate defaults) (withDefaults_clean defaults) (rule.1,defaults rule.1)
    (mem_withDefaults defaults rule listed)

theorem splitActionId_rule : splitActionId rule.1.actionId = .ok rule.1.actionDef :=
  splitActionId_compile _ (authRules_clean rule listed)

theorem getAuthConstraint_inForce (state : RuleState) (constraint : Constraint)
    (stored : Shows (defaults rule.1) rule.1.actionId state constraint)
    (actionId : String) (matched : isAcceptedActionId rule.1.actionId actionId = .ok true) :
    getAuthConstraint ((setupWith defaults describe).validator state) actionId = .ok (some constraint) := by
  have found := findAuthConstraintKey_accepting _ (withDefaults_separate defaults)
    (withDefaults_clean defaults) _ (mem_withDefaults defaults rule listed) actionId matched
  have listedDefault := lookup_default defaults describe rule listed
  simp only [setupWith] at listedDefault
  simp only [getAuthConstraint,Setup.validator,setupWith,found,ok_bind]
  rcases stored with ⟨rfl,absent⟩ | present
  · rw [absent,listedDefault]
    rfl
  · rw [present,Option.bind_some,deserialize_asDict]
    rfl

private theorem getAuthRule_inForce (state : RuleState) (constraint : Constraint)
    (stored : Shows (defaults rule.1) rule.1.actionId state constraint) :
    getAuthRule (setupWith defaults describe) state rule.1.actionId =
      .ok (makeAuthRuleData constraint rule.1.actionDef) := by
  have split := splitActionId_rule rule listed
  rcases stored with ⟨rfl,absent⟩ | present
  · simp only [getAuthRule,absent,lookup_default defaults describe rule listed,ok_bind,split]
    rfl
  · simp only [getAuthRule,present,deserialize_asDict,ok_bind,split]
    rfl

omit rule listed

def allRules : RuleName := ⟨none,none,none,none,none⟩

theorem getResult_all (state : RuleState) (reported : AuthAction → Constraint)
    (shown : ∀ rule ∈ authRules, Shows (defaults rule.1) rule.1.actionId state (reported rule.1)) :
    getResult (setupWith defaults describe) state allRules =
      .ok (authRules.map fun rule => makeAuthRuleData (reported rule.1) rule.1.actionDef) := by
  change (keyed (authRules.map fun rule => (rule.1,defaults rule.1))).mapM
    (fun entry => getAuthRule (setupWith defaults describe) state entry.1) = _
  rw [mapM_ok_iff,keyed,List.forall₂_map_left_iff,List.forall₂_map_left_iff,List.forall₂_map_right_iff,
    List.forall₂_same]
  intro rule listed
  exact getAuthRule_inForce defaults describe rule listed state _ (shown rule listed)

private theorem getResult_one (state : RuleState) (constraint : Constraint) (rule : AuthAction × Constraint)
    (listed : rule ∈ authRules) (shown : Shows (defaults rule.1) rule.1.actionId state constraint)
    (identifier : Option String) (reqId : Nat) (name : RuleName) (asks : 1 < name.fieldCount)
    (shaped : getStaticValidation (setupWith defaults describe) identifier reqId name = .ok ())
    (key : getAuthKey name = .ok rule.1.actionId) :
    getResult (setupWith defaults describe) state name =
      .ok [makeAuthRuleData constraint rule.1.actionDef] := by
  have enough : 5 ≤ name.fieldCount := by
    rw [getStaticValidation,if_pos asks] at shaped
    split at shaped
    · rename_i present
      simp only [Bool.and_eq_true] at present
      simp only [RuleName.fieldCount,present.1.1.1,present.1.1.2,present.1.2,present.2,Bool.toNat_true]
      omega
    · simp [refuse] at shaped
  rw [getResult,if_pos enough,key,ok_bind,
    getAuthRule_inForce defaults describe rule listed state constraint shown]
  rfl

/-- Enforced, reported and last written constraints agree for every key, a
transaction changes only the keys it names, and no key shadows another. -/
theorem rules_enforced_as_reported (start : RuleState)
    (unset : ∀ key, start (makeStatePathForAuthRule key) = none)
    (settled : List RuleOperation) (node : ConfigNode)
    (run : ConfigRun (setupWith defaults describe) start settled node) :
    (∃ enforced reported : AuthAction → Constraint,
      (∀ rule ∈ authRules,
        InForce (defaults rule.1) rule.1.actionId (node.applied settled) (enforced rule.1) ∧
        InForce (defaults rule.1) rule.1.actionId (rulesOf settled) (reported rule.1) ∧
        (node.pending = [] → enforced rule.1 = reported rule.1) ∧
        (∀ actionId, isAcceptedActionId rule.1.actionId actionId = .ok true →
          getAuthConstraint ((setupWith defaults describe).validator node.uncommitted) actionId =
            .ok (some (enforced rule.1))) ∧
        ∀ identifier reqId name, 1 < name.fieldCount →
          getStaticValidation (setupWith defaults describe) identifier reqId name = .ok () →
          getAuthKey name = .ok rule.1.actionId →
          getResult (setupWith defaults describe) node.committed name =
            .ok [makeAuthRuleData (reported rule.1) rule.1.actionDef]) ∧
      getResult (setupWith defaults describe) node.committed allRules =
        .ok (authRules.map fun rule => makeAuthRuleData (reported rule.1) rule.1.actionDef)) ∧
    (∀ operation before after path, updateState before operation = .ok after →
      (∀ rule ∈ operation.rules, ∀ key, getAuthKey rule.ruleName = .ok key →
        makeStatePathForAuthRule key ≠ path) → after path = before path) ∧
    ∀ first ∈ authRules, ∀ second ∈ authRules, ∀ actionId,
      isAcceptedActionId first.1.actionId actionId = .ok true →
      isAcceptedActionId second.1.actionId actionId = .ok true → first.1 = second.1 := by
  refine ⟨?_,fun operation before after path => updateState_other operation before after path,?_⟩
  · have consistent := run_consistent run
    choose enforced applied appliedShown using fun action : AuthAction =>
      consistent.uncommitted.shows (defaults action) action.actionId (unset _)
    choose reported written writtenShown using fun action : AuthAction =>
      consistent.committed.shows (defaults action) action.actionId (unset _)
    refine ⟨enforced,reported,fun rule listed => ⟨applied rule.1,written rule.1,?_,?_,?_⟩,
      getResult_all defaults describe node.committed reported fun rule _ => writtenShown rule.1⟩
    · intro idle
      have same : node.applied settled = rulesOf settled := by
        simp [ConfigNode.applied,idle]
      exact inForce_unique _ _ _ _ _ (applied rule.1) (same ▸ written rule.1)
    · exact getAuthConstraint_inForce defaults describe rule listed _ _ (appliedShown rule.1)
    · exact getResult_one defaults describe _ _ rule listed (writtenShown rule.1)
  · intro first firstRule second secondRule actionId one other
    obtain ⟨parts,split,accepted⟩ := accepted_parts _ (authRules_clean first firstRule) actionId one
    obtain ⟨parts',split',accepted'⟩ :=
      accepted_parts _ (authRules_clean second secondRule) actionId other
    obtain rfl := Except.ok.inj (split.symm.trans split')
    rw [accepted_once authRules authRules_separate first second firstRule secondRule parts accepted
      accepted']

end Map

def forbidSchemas : RuleOperation :=
  .authRule ⟨.forbidden,.add,"101","*",none,some "*"⟩

def forbiddenByA : RuleRequest := ⟨Nym.signedByA,forbidSchemas⟩

def trusteesDecide : Setup := setupWith (fun _ => oneTrusteeConstraint) fun _ => ""

theorem forbidden_schemas_enforced : ∃ committed,
    ConfigRun trusteesDecide (fun _ => none) [forbidSchemas] ⟨committed,[]⟩ ∧
      getAuthConstraint (trusteesDecide.validator committed) addSchema.actionId =
        .ok (some noOneConstraint) := by
  have schemas : (addSchema,endorserOrStewardOrTrusteeConstraint) ∈ authRules :=
    List.mem_of_getElem? (i := 12) rfl
  have shaped : staticValidation trusteesDecide forbiddenByA = .ok () := by
    have known : trusteesDecide.authMap.lookup addSchema.actionId = some oneTrusteeConstraint := by
      rw [trusteesDecide]
      exact lookup_default (fun _ => oneTrusteeConstraint) (fun _ => "") (addSchema,_) schemas
    have checked : checkAuthKey trusteesDecide.authMap (some "A") 1
        ⟨some .add,some "101",some "*",none,some (some "*")⟩ = .ok () := by
      refine (checkAuthKey_iff _ _ _ _).mpr ⟨by decide,by decide,_,rfl,?_⟩
      exact fun missing => absurd (known.symm.trans missing) (by simp)
    simp only [staticValidation,forbiddenByA,forbidSchemas,RuleOperation.rules,
      staticValidationForRules,staticValidationForRule,createConstraint]
    exact congrArg (fun result => result >>= fun _ => Except.ok ()) checked
  have allowed : dynamicValidation trusteesDecide Nym.ledgerOfTrustee.cache (fun _ => none)
      forbiddenByA = .ok () := by
    have listed : (authRule,oneTrusteeConstraint) ∈ authRules :=
      List.mem_of_getElem? (i := 41) rfl
    refine (validate_iff _ _ _ _ _).mpr ⟨oneTrusteeConstraint,?_,by decide⟩
    refine getAuthConstraint_inForce _ _ _ listed _ _ (.inl ⟨rfl,rfl⟩) _ ?_
    exact isAcceptedActionId_self _ (authRules_clean _ listed)
  obtain ⟨after,written⟩ := accepted_written trusteesDecide forbiddenByA shaped fun _ => none
  have run : ConfigRun trusteesDecide (fun _ => none) [forbidSchemas] ⟨after,[]⟩ :=
    .commit [] (fun _ => none) after forbidSchemas [] []
      (.apply [] ⟨fun _ => none,[]⟩ _ forbiddenByA after .start shaped allowed written)
  refine ⟨after,run,?_⟩
  obtain ⟨⟨enforced,reported,agree,_⟩,_⟩ :=
    rules_enforced_as_reported _ _ _ (fun _ => rfl) [forbidSchemas] ⟨after,[]⟩ run
  obtain ⟨inForce,_,_,enforces,_⟩ := agree _ schemas
  rw [trusteesDecide]
  refine (enforces addSchema.actionId ?_).trans ?_
  · exact isAcceptedActionId_self _ (authRules_clean _ schemas)
  · have last : lastNamed addSchema.actionId (rulesOf [forbidSchemas]) = some .forbidden :=
      (lastNamed_snoc addSchema.actionId [] _).trans (if_pos rfl)
    have created : createConstraint .forbidden = .ok (enforced addSchema) := by
      simpa only [InForce,ConfigNode.applied,List.map_nil,List.append_nil,last] using inForce
    rw [createConstraint] at created
    rw [← Except.ok.inj created]
    rfl

end IndyNode.Config

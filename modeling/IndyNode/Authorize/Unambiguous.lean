import Mathlib.Data.List.Pairwise
import IndyNode.Authorize.RequestValidator

/-! No action is accepted by two patterns of the map, so the rule that accepts an
action is the one that is found for it, wherever it stands. -/
namespace IndyNode.Authorize

/-- Some action is accepted by both patterns. -/
def overlaps (first second : ActionDef) : Bool :=
  first.prefixName = second.prefixName && first.txnType = second.txnType &&
    (first.field = second.field || first.field = "*" || second.field = "*") &&
    (first.oldValue = second.oldValue || first.oldValue = "*" || second.oldValue = "*") &&
    (first.newValue = second.newValue || first.newValue = "*" || second.newValue = "*")

private theorem overlaps_of_accepts (first second parts : ActionDef) (one : first.accepts parts = true)
    (other : second.accepts parts = true) : overlaps first second = true := by
  simp only [ActionDef.accepts,Bool.and_eq_true,Bool.or_eq_true,decide_eq_true_eq] at one other
  simp only [overlaps,Bool.and_eq_true,Bool.or_eq_true,decide_eq_true_eq]
  grind

def Separate (first second : AuthAction × Constraint) : Prop :=
  overlaps first.1.actionDef second.1.actionDef = false

instance : DecidableRel Separate := fun _ _ => inferInstanceAs (Decidable (_ = false))

instance : Std.Symm Separate where
  symm first second separate := by
    simp only [Separate,overlaps,Bool.and_eq_false_iff,Bool.or_eq_false_iff,decide_eq_false_iff_not]
      at separate ⊢
    grind

theorem authRules_separate : authRules.Pairwise Separate := by
  decide +kernel

private theorem accepts_self (action : ActionDef) : action.accepts action = true := by
  simp [ActionDef.accepts]

theorem isAcceptedActionId_self (action : ActionDef) (clean : action.Clean) :
    isAcceptedActionId (compileActionId action) (compileActionId action) = .ok true := by
  rw [isAcceptedActionId_split action action clean _ (splitActionId_compile action clean),accepts_self]

theorem accepted_parts (am : ActionDef) (clean : am.Clean) (actionId : String)
    (matched : isAcceptedActionId (compileActionId am) actionId = .ok true) :
    ∃ parts, splitActionId actionId = .ok parts ∧ am.accepts parts = true := by
  obtain ⟨found,amSplit,rest⟩ := bind_success _ _ _ matched
  obtain ⟨parts,split,accepted⟩ := bind_success _ _ _ rest
  rw [splitActionId_compile am clean] at amSplit
  obtain rfl := Except.ok.inj amSplit
  exact ⟨parts,split,Except.ok.inj accepted⟩

section Search
variable (entries : List (AuthAction × Constraint)) (separate : entries.Pairwise Separate)
include separate

theorem accepted_once (first second : AuthAction × Constraint) (firstEntry : first ∈ entries)
    (secondEntry : second ∈ entries) (parts : ActionDef)
    (one : first.1.actionDef.accepts parts = true) (other : second.1.actionDef.accepts parts = true) :
    first = second := by
  by_contra differ
  have apart : overlaps first.1.actionDef second.1.actionDef = false :=
    separate.forall firstEntry secondEntry differ
  rw [overlaps_of_accepts _ _ parts one other] at apart
  exact absurd apart (by simp)

variable (entriesClean : ∀ entry ∈ entries, entry.1.actionDef.Clean)
  (entry : AuthAction × Constraint) (listed : entry ∈ entries)
include listed

private theorem find_accepting (parts : ActionDef) (accepted : entry.1.actionDef.accepts parts = true) :
    (entries.find? fun other => other.1.actionDef.accepts parts) = some entry := by
  have some_accepts : (entries.find? fun other => other.1.actionDef.accepts parts).isSome := by
    rw [List.find?_isSome]
    exact ⟨entry,listed,accepted⟩
  obtain ⟨other,first⟩ := Option.isSome_iff_exists.mp some_accepts
  have holds := List.find?_some first
  rw [first,accepted_once entries separate other entry (List.mem_of_find?_eq_some first) listed parts
    holds accepted]

include entriesClean

theorem lookup_entry : (keyed entries).lookup entry.1.actionId = some entry.2 :=
  lookup_of_find entries entriesClean entry.1.actionDef entry
    (find_accepting entries separate entry listed _ (accepts_self _))

theorem findAuthConstraintKey_accepting (actionId : String)
    (matched : isAcceptedActionId entry.1.actionId actionId = .ok true) :
    findAuthConstraintKey actionId (keyed entries) = .ok (some entry.1.actionId) := by
  obtain ⟨parts,split,accepted⟩ := accepted_parts _ (entriesClean entry listed) actionId matched
  rw [findAuthConstraintKey_split entries entriesClean parts actionId split,
    find_accepting entries separate entry listed parts accepted]
  rfl

end Search

/-- By default an action is subject to the rule that accepts it. -/
theorem getAuthConstraint_accepting (policy : AuthPolicy) (describe : Request → String)
    (rule : AuthAction × Constraint) (listed : rule ∈ authRules) (actionId : String)
    (matched : isAcceptedActionId rule.1.actionId actionId = .ok true) :
    getAuthConstraint (defaultConfig policy describe) actionId = .ok (some rule.2) := by
  have found := findAuthConstraintKey_accepting authRules authRules_separate authRules_clean rule
    listed actionId matched
  have back := lookup_entry authRules authRules_separate authRules_clean rule listed
  simp only [getAuthConstraint,defaultConfig,authMap,found,ok_bind,back]
  cases policy with
  | localAuth => rfl
  | configLedger => rfl

/-- An action with the parts of a rule is valid exactly when the rule's constraint holds. -/
theorem validate_rule_iff (policy : AuthPolicy) (describe : Request → String) (cache : IdrCache)
    (req : Request) (rule : AuthAction × Constraint) (listed : rule ∈ authRules) (action : AuthAction)
    (same : action.actionDef = rule.1.actionDef) :
    validate (defaultConfig policy describe) cache req [action] = .ok () ↔
      rule.2.eval (leafHolds cache req action) = true := by
  have found : getAuthConstraint (defaultConfig policy describe) action.actionId = .ok (some rule.2) := by
    refine getAuthConstraint_accepting policy describe rule listed _ ?_
    rw [AuthAction.actionId,AuthAction.actionId,same]
    exact isAcceptedActionId_self _ (authRules_clean rule listed)
  rw [validate_iff,found]
  simp

theorem validate_rule (policy : AuthPolicy) (describe : Request → String) (cache : IdrCache)
    (req : Request) (rule : AuthAction × Constraint) (listed : rule ∈ authRules) (action : AuthAction)
    (same : action.actionDef = rule.1.actionDef)
    (holds : rule.2.eval (leafHolds cache req action) = true) :
    validate (defaultConfig policy describe) cache req [action] = .ok () :=
  (validate_rule_iff policy describe cache req rule listed action same).mpr holds

end IndyNode.Authorize

import IndyNode.Authorize.ActionTexts
import IndyNode.Authorize.RequestValidator
import IndyNode.Authorize.Signatures

/-! Rules for actions that carry arbitrary texts. Whatever the old and the new
value are, only rules for the type, the prefix and the field of an action can be
found for it; where those ask for the owner, the author is the owner. -/
namespace IndyNode.Authorize

/-- The parts of an action that do not depend on what a request stores. -/
structure ActionDef.HeadClean (action : ActionDef) : Prop where
  txnType : '-' ∉ action.txnType.toList
  prefixName : '-' ∉ action.prefixName.toList
  field : '-' ∉ action.field.toList

private theorem splitActionId_head (action parts : ActionDef) (clean : action.HeadClean)
    (split : splitActionId (compileActionId action) = .ok parts) :
    parts.txnType = action.txnType ∧ parts.prefixName = action.prefixName ∧
      parts.field = action.field := by
  rw [splitActionId,compileActionId_toList,splitDelimiter_append _ _ clean.txnType,
    splitDelimiter_append _ _ clean.prefixName,splitDelimiter_append _ _ clean.field] at split
  split at split
  · rename_i shape
    simp only [List.cons.injEq] at shape
    obtain ⟨rfl,rfl,rfl,_⟩ := shape
    rw [← Except.ok.inj split]
    simp only [String.ofList_toList,and_self]
  · simp at split

/-- The rule may be found for actions of this type, prefix and field. -/
def ActionDef.Targets (rule : ActionDef) (txnType prefixName field : String) : Prop :=
  rule.txnType = txnType ∧ rule.prefixName = prefixName ∧ (rule.field = field ∨ rule.field = "*")

instance (rule : ActionDef) (txnType prefixName field : String) :
    Decidable (rule.Targets txnType prefixName field) :=
  inferInstanceAs (Decidable (_ ∧ _ ∧ _))

theorem accepts_targets (rule parts : ActionDef) (accepted : rule.accepts parts = true) :
    rule.Targets parts.txnType parts.prefixName parts.field := by
  simp only [ActionDef.accepts,Bool.and_eq_true,Bool.or_eq_true,decide_eq_true_eq] at accepted
  obtain ⟨⟨⟨⟨samePrefix,sameType⟩,sameField⟩,_⟩,_⟩ := accepted
  exact ⟨sameType.symm,samePrefix.symm,sameField.imp Eq.symm id⟩

/-- The key that is found belongs to an entry that accepts the split identifier. -/
theorem findAuthConstraintKey_mem (entries : List (AuthAction × Constraint))
    (entriesClean : ∀ entry ∈ entries, entry.1.actionDef.Clean) (actionId key : String)
    (found : findAuthConstraintKey actionId (keyed entries) = .ok (some key)) :
    ∃ entry ∈ entries, entry.1.actionId = key ∧ ∃ parts, splitActionId actionId = .ok parts ∧
      entry.1.actionDef.accepts parts = true := by
  cases split : splitActionId actionId with
  | error error =>
    cases entries with
    | nil => simp [keyed,findAuthConstraintKey] at found
    | cons entry entries =>
      simp [keyed,findAuthConstraintKey,isAcceptedActionId,AuthAction.actionId,split,
        splitActionId_compile _ (entriesClean entry List.mem_cons_self)] at found
  | ok parts =>
    rw [findAuthConstraintKey_split entries entriesClean parts actionId split] at found
    obtain ⟨entry,first,entry_key⟩ := Option.map_eq_some_iff.mp (Except.ok.inj found)
    have accepted := List.find?_some first
    exact ⟨entry,List.mem_of_find?_eq_some first,entry_key,parts,rfl,accepted⟩

private theorem lookup_mem (entries : List (AuthAction × Constraint)) (key : String) (constraint : Constraint)
    (found : (keyed entries).lookup key = some constraint) :
    ∃ entry ∈ entries, entry.1.actionId = key ∧ entry.2 = constraint := by
  induction entries with
  | nil => simp [keyed] at found
  | cons entry entries ih =>
    rw [keyed,List.map_cons,List.lookup_cons] at found
    cases same : key == entry.1.actionId with
    | true =>
      simp only [same,Option.some.injEq] at found
      exact ⟨entry,List.mem_cons_self,(eq_of_beq same).symm,found⟩
    | false =>
      simp only [same] at found
      obtain ⟨other,member,rest⟩ := ih found
      exact ⟨other,List.mem_cons_of_mem entry member,rest⟩

section
variable (policy : AuthPolicy) (describe : Request → String)

/-- A constraint that is found for an action stands in a rule for its head. -/
theorem found_rule (action : AuthAction) (clean : action.actionDef.HeadClean)
    (constraint : Constraint)
    (found : getAuthConstraint (defaultConfig policy describe) action.actionId =
      .ok (some constraint)) :
    ∃ rule ∈ authRules, rule.2 = constraint ∧ rule.1.actionDef.Targets action.actionDef.txnType
      action.actionDef.prefixName action.actionDef.field := by
  obtain ⟨key,search,chosen⟩ := bind_success _ _ _ found
  cases key with
  | none => simp [pure,Except.pure] at chosen
  | some key =>
    have listed : (keyed authRules).lookup key = some constraint := by
      cases policy with
      | localAuth => exact Except.ok.inj chosen
      | configLedger => exact Except.ok.inj chosen
    obtain ⟨entry,member,entry_key,parts,split,accepted⟩ :=
      findAuthConstraintKey_mem authRules authRules_clean action.actionId key search
    obtain ⟨rule,rule_member,rule_key,rule_constraint⟩ := lookup_mem authRules key constraint listed
    have same := compileActionId_inj _ _ (authRules_clean rule rule_member)
      (authRules_clean entry member) (rule_key.trans entry_key.symm)
    obtain ⟨sameType,samePrefix,sameField⟩ := splitActionId_head _ parts clean split
    refine ⟨rule,rule_member,rule_constraint,?_⟩
    rw [same,← sameType,← samePrefix,← sameField]
    exact accepts_targets _ _ accepted

/-- The leaf asks for the owner and for a signature of a DID on the ledger. -/
def NeedsOwner (constraint : AuthConstraint) : Prop :=
  constraint.needToBeOwner = true ∧ 1 ≤ constraint.sigCount ∧ constraint.acceptsOffLedger = false

instance : DecidablePred NeedsOwner := fun _ => inferInstanceAs (Decidable (_ ∧ _ ∧ _))

/-- Every rule for the head asks for the owner. -/
def OwnerOnly (txnType prefixName field : String) : Prop :=
  ∀ rule ∈ authRules, rule.1.actionDef.Targets txnType prefixName field → rule.2.Guarded NeedsOwner

instance (txnType prefixName field : String) : Decidable (OwnerOnly txnType prefixName field) :=
  inferInstanceAs (Decidable (∀ rule ∈ authRules, _ → _))

theorem owner_required (cache : IdrCache) (req : Request) (action : AuthAction)
    (clean : action.actionDef.HeadClean) (owned : OwnerOnly action.actionDef.txnType
      action.actionDef.prefixName action.actionDef.field)
    (valid : validate (defaultConfig policy describe) cache req [action] = .ok ()) :
    action.isOwner = true ∧ ∃ author, req.identifier = some author ∧ HasRole cache author .any := by
  obtain ⟨constraint,found,holds⟩ := (validate_iff _ _ _ _ _).mp valid
  obtain ⟨rule,member,rfl,targets⟩ := found_rule policy describe action clean constraint found
  refine AndOrTree.Guarded.eval_implies ?_ rule.2 (owned rule member targets) holds
  intro leaf needs passed
  obtain ⟨owner,counts,onLedger⟩ := needs
  rw [leafHolds,Bool.and_eq_true] at passed
  refine ⟨?_,author_of_pass cache req leaf action counts onLedger passed.1⟩
  have accepted := ((rolesPass_iff cache req action leaf).mp passed.1).1
  simpa [RolesAuthorizer.isOwnerAccepted,owner] using accepted

end
end IndyNode.Authorize

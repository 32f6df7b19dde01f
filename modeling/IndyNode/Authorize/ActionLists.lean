import IndyNode.Authorize.Unambiguous
import IndyNode.Nym.Privilege

/-! Lists of actions. The loop of `validate` returns after its first action, so the
others are never looked at. -/
namespace IndyNode.Authorize
open Nym (ledgerOfTrustee signedByA)

section Lookup
variable (config : ValidatorConfig) (actionId : String) (raised : Raised)

theorem splitActionId_error (failed : splitActionId actionId = .error raised) : raised = .typeError := by
  rw [splitActionId] at failed
  split at failed
  · simp at failed
  · exact (Except.error.inj failed).symm

private theorem findAuthConstraintKey_error (entries : List (String × Constraint))
    (failed : findAuthConstraintKey actionId entries = .error raised) : raised = .typeError := by
  induction entries with
  | nil => simp [findAuthConstraintKey] at failed
  | cons entry entries ih =>
    obtain ⟨amId,constraint⟩ := entry
    rw [findAuthConstraintKey,isAcceptedActionId] at failed
    cases am : splitActionId amId with
    | error error =>
      rw [am] at failed
      obtain rfl := Except.error.inj failed
      exact splitActionId_error _ _ am
    | ok amParts =>
      cases r : splitActionId actionId with
      | error error =>
        rw [am,r] at failed
        obtain rfl := Except.error.inj failed
        exact splitActionId_error _ _ r
      | ok parts =>
        rw [am,r] at failed
        simp only [ok_bind,pure,Except.pure] at failed
        split at failed
        · simp at failed
        · exact ih failed

private theorem getAuthConstraint_error (failed : getAuthConstraint config actionId = .error raised) :
    raised = .typeError := by
  rw [getAuthConstraint] at failed
  cases search : findAuthConstraintKey actionId config.authMap with
  | error error =>
    rw [search] at failed
    obtain rfl := Except.error.inj failed
    exact findAuthConstraintKey_error _ _ _ search
  | ok found =>
    rw [search,ok_bind] at failed
    cases found with
    | none => simp [pure,Except.pure] at failed
    | some amId => cases policy : config.policy <;> simp [policy,pure,Except.pure] at failed

end Lookup

section Lists
variable (config : ValidatorConfig) (cache : IdrCache) (req : Request)

def Allowed (action : AuthAction) : Prop :=
  ∃ constraint, getAuthConstraint config action.actionId = .ok (some constraint) ∧
    constraint.eval (leafHolds cache req action) = true

theorem validate_refused (action : AuthAction) (others : List AuthAction)
    (refused : ¬Allowed config cache req action) :
    (∃ reason, validate config cache req (action::others) = .error (unauthorized req reason)) ↔
      ∃ found, getAuthConstraint config action.actionId = .ok found := by
  cases search : getAuthConstraint config action.actionId with
  | error raised =>
    obtain rfl := getAuthConstraint_error config action.actionId raised search
    have failed : validate config cache req (action::others) = .error .typeError := by
      rw [validate,search]
      rfl
    simp [failed,unauthorized]
  | ok found =>
    refine iff_of_true ?_ ⟨found,rfl⟩
    cases found with
    | none => exact ⟨_,by rw [validate,search]; rfl⟩
    | some constraint =>
      have fails : constraint.eval (leafHolds cache req action) = false := by
        rw [← Bool.not_eq_true]
        exact fun holds => refused ⟨constraint,search,holds⟩
      have decides := composite_decides cache req action constraint
      rw [fails] at decides
      obtain ⟨reason,raised⟩ := decides
      refine ⟨reason,?_⟩
      rw [validate,search,ok_bind]
      simp only [raised]
      rfl

/-- The verdict is that on all actions, refuses properly and is the same in any order
exactly when all actions are allowed, or none is and the first can be looked up. -/
theorem validate_list_iff (action : AuthAction) (others : List AuthAction) :
    ((validate config cache req (action::others) = .ok () →
        ∀ each ∈ action::others, Allowed config cache req each) ∧
      ((∃ each ∈ action::others, ¬Allowed config cache req each) →
        ∃ reason, validate config cache req (action::others) = .error (unauthorized req reason)) ∧
      ∀ order : List AuthAction, order.Perm (action::others) →
        (validate config cache req order = .ok () ↔ validate config cache req (action::others) = .ok ())) ↔
    (∀ each ∈ action::others, Allowed config cache req each) ∨
      (∀ each ∈ action::others, ¬Allowed config cache req each) ∧
        ∃ found, getAuthConstraint config action.actionId = .ok found := by
  have first : ∀ head rest, validate config cache req (head::rest) = .ok () ↔ Allowed config cache req head :=
    fun head rest => validate_iff config cache req head rest
  constructor
  · rintro ⟨sound,refuses,unordered⟩
    by_cases every : ∀ each ∈ action::others, Allowed config cache req each
    · exact .inl every
    · have refused : ¬Allowed config cache req action := fun allowed => every (sound ((first _ _).mpr allowed))
      have some_refused : ∃ each ∈ action::others, ¬Allowed config cache req each := ⟨action,by simp,refused⟩
      refine .inr ⟨?_,(validate_refused config cache req action others refused).mp (refuses some_refused)⟩
      -- Each action comes first in some order of the list.
      intro each member allowed
      obtain ⟨before,after,split⟩ := List.append_of_mem member
      have order : (each :: (before ++ after)).Perm (action::others) := split ▸ List.perm_middle.symm
      exact refused ((first _ _).mp ((unordered _ order).mp ((first _ _).mpr allowed)))
  · intro uniform
    have alike : ∀ each ∈ action::others, Allowed config cache req each ↔ Allowed config cache req action := by
      rcases uniform with every | ⟨none,_⟩
      · exact fun each member => iff_of_true (every each member) (every action (by simp))
      · exact fun each member => iff_of_false (none each member) (none action (by simp))
    refine ⟨?_,?_,?_⟩
    · intro ok each member
      exact (alike each member).mpr ((first _ _).mp ok)
    · rintro ⟨each,member,refused⟩
      rcases uniform with every | ⟨none,found⟩
      · exact absurd (every each member) refused
      · exact (validate_refused config cache req action others (none action (by simp))).mpr found
    · intro order permuted
      cases order with
      | nil => exact absurd permuted.length_eq (by simp)
      | cons head rest =>
        rw [first,first]
        exact alike head (permuted.mem_iff.mp (by simp))

end Lists

/-- The first action decides for both: one trustee may add a steward, but freezing
ledgers takes three. -/
theorem second_action_unchecked :
    validate (defaultConfig .configLedger fun _ => "") ledgerOfTrustee.cache signedByA
      [addNewSteward,editFrozenLedgers] = .ok () ∧
    ¬Allowed (defaultConfig .configLedger fun _ => "") ledgerOfTrustee.cache signedByA editFrozenLedgers ∧
    validate (defaultConfig .configLedger fun _ => "") ledgerOfTrustee.cache signedByA
      [editFrozenLedgers,addNewSteward] ≠ .ok () := by
  have frozen : getAuthConstraint (defaultConfig .configLedger fun _ => "") editFrozenLedgers.actionId =
      .ok (some threeTrusteeConstraint) := by
    rw [getAuthConstraint_default _ _ _ (by decide)]
    rfl
  have refused : ¬Allowed (defaultConfig .configLedger fun _ => "") ledgerOfTrustee.cache signedByA
      editFrozenLedgers := by
    rintro ⟨constraint,found,holds⟩
    obtain rfl := Option.some.inj (Except.ok.inj (frozen.symm.trans found))
    exact absurd holds (by decide)
  refine ⟨?_,refused,fun ok => refused ((validate_iff _ _ _ _ _).mp ok)⟩
  rw [validate_iff]
  refine ⟨oneTrusteeConstraint,?_,by decide⟩
  rw [getAuthConstraint_default _ _ _ (by decide)]
  rfl

end IndyNode.Authorize

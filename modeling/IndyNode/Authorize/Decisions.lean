import IndyNode.Authorize.Authorizer

/-! What the composite authorizer decides: a constraint tree is accepted exactly
when it holds as a boolean formula over the checks at its leaves, and every
refusal is an `AuthValidationError`. -/
namespace IndyNode.Authorize

def rolesPass (cache : IdrCache) (req : Request) (action : AuthAction)
    (constraint : AuthConstraint) : Bool :=
  match RolesAuthorizer.authorize cache req constraint action with
  | .ok verdict => verdict.1
  | .error _ => false

def endorserPass (cache : IdrCache) (req : Request) : Bool :=
  (EndorserAuthorizer.authorize cache req).1

/-- The meaning of a ROLE leaf. -/
def leafHolds (cache : IdrCache) (req : Request) (action : AuthAction)
    (constraint : AuthConstraint) : Bool :=
  rolesPass cache req action constraint && endorserPass cache req

/-- An authorizer's outcome says whether a condition holds: acceptance is
`(True, "")`, refusal an `AuthValidationError`. -/
def Decides (outcome : Except Raised (Bool × String)) : Bool → Prop
  | true => outcome = .ok (true,"")
  | false => ∃ reason, outcome = .error (.authValidationError reason)

theorem Decides.accepted {outcome : Except Raised (Bool × String)} {holds : Bool}
    (decides : Decides outcome holds) : outcome = .ok (true,"") ↔ holds = true := by
  cases holds with
  | true => exact iff_of_true decides rfl
  | false =>
    obtain ⟨reason,raised⟩ := decides
    simp [raised]

namespace RolesAuthorizer

private theorem getSigCount_total (cache : IdrCache) (req : Request) (role : RoleSpec) (offLedger : Bool) :
    ∃ count, getSigCount cache req role offLedger = .ok count := by
  unfold getSigCount
  split
  · rename_i signed
    split
    · exact ⟨1,rfl⟩
    · cases author : req.identifier with
      | none => exact absurd author (req.identified signed)
      | some did => exact ⟨_,rfl⟩
  · split
    · exact ⟨0,rfl⟩
    · cases role with
      | any => exact ⟨_,rfl⟩
      | role role => exact ⟨_,rfl⟩

theorem getSigCount_single (cache : IdrCache) (req : Request) (role : RoleSpec) (author : Did)
    (single : req.hasSignature = true) (identifier : req.identifier = some author) :
    getSigCount cache req role false =
      .ok (if isRoleAccepted (getRoleOf cache author) role then 1 else 0) := by
  simp [getSigCount,single,identifier]

theorem getSigCount_unsigned (cache : IdrCache) (req : Request) (role : RoleSpec)
    (several : req.hasSignature = false) (empty : req.signatures = []) :
    getSigCount cache req role false = .ok 0 := by
  simp [getSigCount,several,empty]

theorem getSigCount_any (cache : IdrCache) (req : Request) (several : req.hasSignature = false)
    (present : req.signatures ≠ []) :
    getSigCount cache req .any false = .ok req.signatures.length := by
  simp [getSigCount,several,present]

theorem getSigCount_role (cache : IdrCache) (req : Request) (role : Role)
    (several : req.hasSignature = false) (present : req.signatures ≠ []) :
    getSigCount cache req (.role role) false = .ok (req.signers.countP fun did =>
      isRoleAccepted (getRoleOf cache did) (.role role)) := by
  simp [getSigCount,several,present]

private theorem authorize_total (cache : IdrCache) (req : Request) (constraint : AuthConstraint)
    (action : AuthAction) : ∃ verdict, authorize cache req constraint action = .ok verdict ∧
      (verdict.1 = true → verdict = (true,"")) := by
  obtain ⟨count,counted⟩ := getSigCount_total cache req constraint.role constraint.acceptsOffLedger
  unfold authorize isSigCountAccepted
  rw [counted]
  split
  · exact ⟨_,rfl,by simp⟩
  split
  · exact ⟨_,rfl,by simp⟩
  split
  · exact ⟨_,rfl,by simp⟩
  · simp only [ok_bind,pure,Except.pure]
    split
    · exact ⟨_,rfl,fun _ => rfl⟩
    · exact ⟨_,rfl,by simp⟩

end RolesAuthorizer

theorem authorize_accepts (cache : IdrCache) (req : Request) (action : AuthAction)
    (constraint : AuthConstraint) :
    RolesAuthorizer.authorize cache req constraint action = .ok (true,"") ↔
      rolesPass cache req action constraint = true := by
  obtain ⟨verdict,authorized,shape⟩ :=
    RolesAuthorizer.authorize_total cache req constraint action
  rw [rolesPass,authorized]
  refine ⟨fun same => ?_,fun passed => ?_⟩
  · rw [Except.ok.inj same]
  · rw [shape passed]

theorem rolesPass_iff (cache : IdrCache) (req : Request) (action : AuthAction)
    (constraint : AuthConstraint) :
    rolesPass cache req action constraint = true ↔
      RolesAuthorizer.isOwnerAccepted constraint action = true ∧
      (0 < constraint.sigCount → constraint.acceptsOffLedger = false →
        (RolesAuthorizer.getRole cache req).isSome = true) ∧
      (0 < constraint.sigCount → req.signatures ≠ [] → req.authorSigned = true) ∧
      ∃ count, RolesAuthorizer.getSigCount cache req constraint.role constraint.acceptsOffLedger =
        .ok count ∧ constraint.sigCount ≤ count := by
  obtain ⟨count,counted⟩ :=
    RolesAuthorizer.getSigCount_total cache req constraint.role constraint.acceptsOffLedger
  unfold rolesPass RolesAuthorizer.authorize RolesAuthorizer.isSigCountAccepted
  rw [counted]
  by_cases owner : RolesAuthorizer.isOwnerAccepted constraint action = true
  · rw [if_neg (by simp [owner])]
    by_cases unknown : constraint.sigCount > 0 ∧ (!constraint.acceptsOffLedger) = true ∧
        (RolesAuthorizer.getRole cache req).isNone = true
    · rw [if_pos unknown]
      simp_all
    rw [if_neg unknown]
    by_cases unsigned : constraint.sigCount > 0 ∧ (!req.signatures.isEmpty) = true ∧
        (!req.authorSigned) = true
    · rw [if_pos unsigned]
      simp_all
    rw [if_neg unsigned]
    by_cases enough : constraint.sigCount ≤ count
    · simp_all [pure,Except.pure,Option.isSome_iff_ne_none]
    · simp [enough,pure,Except.pure]
  · simp [owner]

theorem endorserPass_iff (cache : IdrCache) (req : Request) :
    endorserPass cache req = true ↔ (EndorserAuthorizer.checkEndorserRole cache req).1 = true ∧
      (EndorserAuthorizer.checkEndorserFieldPresence cache req).1 = true := by
  unfold endorserPass EndorserAuthorizer.authorize
  cases role : (EndorserAuthorizer.checkEndorserRole cache req).1 with
  | false => simp [role]
  | true =>
    cases field : (EndorserAuthorizer.checkEndorserFieldPresence cache req).1 with
    | false => simp [role,field]
    | true => simp [role,field]

private theorem raiseUnless_ok (verdict : Bool × String) (passed : verdict.1 = true) :
    raiseUnless verdict = .ok () := by
  simp [raiseUnless,passed]

private theorem raiseUnless_error (verdict : Bool × String) (failed : verdict.1 = false) :
    raiseUnless verdict = .error (.authValidationError verdict.2) := by
  simp [raiseUnless,failed]

private theorem Decides.checked {outcome : Except Raised (Bool × String)} {holds rest : Bool}
    {next : Except Raised (Bool × String)} (decides : Decides outcome holds)
    (continues : Decides next rest) :
    Decides (do raiseUnless (← outcome); next) (holds && rest) := by
  cases holds with
  | true =>
    have accepted : outcome = .ok (true,"") := decides
    rw [accepted,ok_bind,raiseUnless_ok _ rfl,ok_bind,Bool.true_and]
    exact continues
  | false =>
    obtain ⟨reason,raised⟩ := decides
    refine ⟨reason,?_⟩
    rw [raised]
    rfl

private theorem composite_leaf (cache : IdrCache) (req : Request) (action : AuthAction)
    (constraint : AuthConstraint) :
    Decides (composite cache req action (.leaf constraint)) (leafHolds cache req action constraint) := by
  obtain ⟨verdict,authorized,_⟩ := RolesAuthorizer.authorize_total cache req constraint action
  have roles : rolesPass cache req action constraint = verdict.1 := by
    rw [rolesPass,authorized]
  rw [composite,leafHolds,roles]
  simp only [roleAuthorizers,List.forM_eq_forM,List.forM_cons,List.forM_nil,authorized,ok_bind]
  cases passed : verdict.1 with
  | false =>
    rw [raiseUnless_error _ passed]
    exact ⟨_,rfl⟩
  | true =>
    rw [raiseUnless_ok _ passed,ok_bind,Bool.true_and]
    unfold endorserPass
    cases endorsed : (EndorserAuthorizer.authorize cache req).1 with
    | false =>
      rw [raiseUnless_error _ endorsed]
      exact ⟨_,rfl⟩
    | true =>
      rw [raiseUnless_ok _ endorsed]
      rfl

section
variable (cache : IdrCache) (req : Request) (action : AuthAction) (parts : List Constraint)
  (decided : ∀ part ∈ parts,
    Decides (composite cache req action part) (part.eval (leafHolds cache req action)))
include decided

private theorem andAuthorize_decides :
    Decides (andAuthorize cache req action parts)
      (AndOrTree.evalAll (leafHolds cache req action) parts) := by
  induction parts with
  | nil =>
    rw [andAuthorize,AndOrTree.evalAll]
    rfl
  | cons part parts ih =>
    rw [andAuthorize,AndOrTree.evalAll]
    refine (decided part List.mem_cons_self).checked (ih ?_)
    intro other member
    exact decided other (List.mem_cons_of_mem part member)

/-- The loop over alternatives always ends, and counts a success exactly when
one of them holds. -/
theorem orLoop_counts :
    ∃ successes fails, orLoop cache req action parts = .ok (successes,fails) ∧
      (successes = 0 ↔ AndOrTree.evalAny (leafHolds cache req action) parts = false) := by
  induction parts with
  | nil => exact ⟨0,[],by rw [orLoop],by simp [AndOrTree.evalAny]⟩
  | cons part parts ih =>
    have first := decided part List.mem_cons_self
    obtain ⟨successes,fails,looped,counts⟩ :=
      ih (fun other member => decided other (List.mem_cons_of_mem part member))
    rw [orLoop,AndOrTree.evalAny,looped]
    cases holds : part.eval (leafHolds cache req action) with
    | true =>
      rw [holds] at first
      have accepted : composite cache req action part = .ok (true,"") := first
      refine ⟨successes + 1,fails,?_,by simp⟩
      rw [accepted]
      rfl
    | false =>
      rw [holds] at first
      obtain ⟨reason,raised⟩ := first
      refine ⟨successes,("Constraint: " ++ Constraint.text part ++ ", Error: " ++ reason) :: fails,?_,
        by simpa using counts⟩
      rw [raised]
      rfl

private theorem orAuthorize_decides (rule : String) :
    Decides (orAuthorize cache req action parts rule)
      (AndOrTree.evalAny (leafHolds cache req action) parts) := by
  obtain ⟨successes,fails,looped,counts⟩ := orLoop_counts cache req action parts decided
  rw [orAuthorize,looped,ok_bind]
  cases holds : AndOrTree.evalAny (leafHolds cache req action) parts with
  | true =>
    have some_success : successes ≠ 0 := by simp [counts,holds]
    simp [some_success,Decides,pure,Except.pure]
  | false =>
    have no_success : successes = 0 := counts.mpr holds
    simp only [no_success,Decides]
    exact ⟨_,rfl⟩

end

theorem composite_decides (cache : IdrCache) (req : Request) (action : AuthAction)
    (tree : Constraint) :
    Decides (composite cache req action tree) (tree.eval (leafHolds cache req action)) := by
  induction tree using AndOrTree.induct with
  | leaf constraint =>
    rw [AndOrTree.eval_leaf]
    exact composite_leaf cache req action constraint
  | all parts ih =>
    rw [composite,AndOrTree.eval,← Bool.and_true (AndOrTree.evalAll _ _)]
    exact (andAuthorize_decides cache req action parts ih).checked rfl
  | any parts ih =>
    rw [composite,AndOrTree.eval,← Bool.and_true (AndOrTree.evalAny _ _)]
    exact (orAuthorize_decides cache req action parts ih _).checked rfl
  | never =>
    rw [composite,AndOrTree.eval_never]
    exact ⟨_,rfl⟩

/-- Both ways a verdict travels, returned pairs and exceptions, agree with the
boolean reading of the tree. -/
theorem accepts_exactly_what_holds (cache : IdrCache) (req : Request) (action : AuthAction)
    (tree : Constraint) :
    (composite cache req action tree = .ok (true,"") ↔
      tree.eval (leafHolds cache req action) = true) ∧
    (composite cache req action tree = .ok (true,"") ∨
      ∃ reason, composite cache req action tree = .error (.authValidationError reason)) := by
  have decides := composite_decides cache req action tree
  refine ⟨decides.accepted,?_⟩
  cases holds : tree.eval (leafHolds cache req action) with
  | true => exact Or.inl (decides.accepted.mpr holds)
  | false =>
    rw [holds] at decides
    exact Or.inr decides

end IndyNode.Authorize

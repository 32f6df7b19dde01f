import IndyNode.Authorize.Decisions
import Mathlib.Data.Finset.Dedup
import Mathlib.Data.Finset.Card

/-! Who has signed an accepted request. The roles check counts signatures, by
different rules for one signature, several signatures and any role. -/
namespace IndyNode.Authorize

/-- The DID signed the request, alone or among others. -/
def Request.SignedBy (req : Request) (did : Did) : Prop :=
  req.hasSignature = true ∧ req.identifier = some did ∨ did ∈ req.signers

def HasRole (cache : IdrCache) (did : Did) : RoleSpec → Prop
  | .any => ∃ role, getRoleOf cache did = some role
  | .role role => getRoleOf cache did = some role

/-- Enough distinct signers on the ledger have the role a constraint names, and
the author is on the ledger and one of the signers. -/
def Backed (cache : IdrCache) (req : Request) (constraint : AuthConstraint) : Prop :=
  (∃ dids : Finset Did, constraint.sigCount ≤ dids.card ∧
    ∀ did ∈ dids, req.SignedBy did ∧ HasRole cache did constraint.role) ∧
  ∃ author, req.identifier = some author ∧ HasRole cache author .any ∧ req.SignedBy author

/-- Several signatures suffice for a constraint on any role, but not those of the
signers on the ledger alone. -/
def UnknownSignersDecide (cache : IdrCache) (req : Request) (constraint : AuthConstraint)
    (action : AuthAction) : Prop :=
  constraint.role = .any ∧ req.hasSignature = false ∧
    RolesAuthorizer.isOwnerAccepted constraint action = true ∧
    (RolesAuthorizer.getRole cache req).isSome = true ∧ req.authorSigned = true ∧
    constraint.sigCount ≤ req.signatures.length ∧
    (req.signers.countP fun did => (getRoleOf cache did).isSome) < constraint.sigCount

private theorem isRoleAccepted_iff (cache : IdrCache) (did : Did) (role : RoleSpec) :
    RolesAuthorizer.isRoleAccepted (getRoleOf cache did) role = true ↔ HasRole cache did role := by
  cases role with
  | any => simp [RolesAuthorizer.isRoleAccepted,HasRole,Option.isSome_iff_exists]
  | role role => simp [RolesAuthorizer.isRoleAccepted,HasRole]

theorem authorSigned_iff (req : Request) :
    req.authorSigned = true ↔ ∃ author, req.identifier = some author ∧ author ∈ req.signers := by
  unfold Request.authorSigned
  cases req.identifier with
  | none => simp
  | some author => simp

private theorem getRole_isSome (cache : IdrCache) (req : Request) (author : Did)
    (identifier : req.identifier = some author) :
    (RolesAuthorizer.getRole cache req).isSome = true ↔ HasRole cache author .any := by
  simp [RolesAuthorizer.getRole,identifier,HasRole,Option.isSome_iff_exists]

private theorem exists_distinct_iff {α : Type} [DecidableEq α] (items : List α) (nodup : items.Nodup)
    (test : α → Bool) (count : Nat) :
    (∃ chosen : Finset α, count ≤ chosen.card ∧ ∀ item ∈ chosen, item ∈ items ∧ test item = true) ↔
      count ≤ items.countP test := by
  have card : (items.filter test).toFinset.card = items.countP test := by
    rw [List.toFinset_card_of_nodup (nodup.filter test),List.countP_eq_length_filter]
  refine ⟨fun ⟨chosen,enough,good⟩ => ?_,fun enough => ⟨(items.filter test).toFinset,?_,?_⟩⟩
  · have inside : chosen ⊆ (items.filter test).toFinset := by
      intro item member
      simpa using good item member
    calc count ≤ chosen.card := enough
      _ ≤ (items.filter test).toFinset.card := Finset.card_le_card inside
      _ = items.countP test := card
  · rw [card]
    exact enough
  · intro item member
    simpa using member

theorem signers_nodup (req : Request) : req.signers.Nodup := req.distinct

private theorem signedBy_several (req : Request) (did : Did) (several : req.hasSignature = false) :
    req.SignedBy did ↔ did ∈ req.signers := by
  simp [Request.SignedBy,several]

section
variable (cache : IdrCache) (req : Request) (constraint : AuthConstraint) (action : AuthAction)
  (counts : 1 ≤ constraint.sigCount) (onLedger : constraint.acceptsOffLedger = false)
include counts onLedger

theorem author_of_pass (passed : rolesPass cache req action constraint = true) :
    ∃ author, req.identifier = some author ∧ HasRole cache author .any := by
  obtain ⟨_,known,_,_⟩ := (rolesPass_iff cache req action constraint).mp passed
  have present := known counts onLedger
  cases identifier : req.identifier with
  | none => simp [RolesAuthorizer.getRole,identifier] at present
  | some author => exact ⟨author,rfl,(getRole_isSome cache req author identifier).mp present⟩

private theorem single_backed (single : req.hasSignature = true)
    (passed : rolesPass cache req action constraint = true) :
    ∃ author, req.identifier = some author ∧ HasRole cache author constraint.role ∧
      constraint.sigCount = 1 := by
  obtain ⟨author,identifier,_⟩ := author_of_pass cache req constraint action counts onLedger passed
  obtain ⟨_,_,_,count,counted,enough⟩ := (rolesPass_iff cache req action constraint).mp passed
  rw [onLedger,RolesAuthorizer.getSigCount_single cache req _ author single identifier] at counted
  have count_eq := Except.ok.inj counted
  refine ⟨author,identifier,?_⟩
  split at count_eq
  · rename_i accepted
    exact ⟨(isRoleAccepted_iff cache author constraint.role).mp accepted,by omega⟩
  · omega

private theorem several_counted (several : req.hasSignature = false)
    (passed : rolesPass cache req action constraint = true) :
    req.authorSigned = true ∧
      match constraint.role with
      | .any => constraint.sigCount ≤ req.signatures.length
      | .role role => constraint.sigCount ≤
          req.signers.countP fun did => RolesAuthorizer.isRoleAccepted (getRoleOf cache did) (.role role) := by
  obtain ⟨_,_,signed,count,counted,enough⟩ := (rolesPass_iff cache req action constraint).mp passed
  rw [onLedger] at counted
  by_cases empty : req.signatures = []
  · rw [RolesAuthorizer.getSigCount_unsigned cache req _ several empty] at counted
    have count_eq := Except.ok.inj counted
    omega
  refine ⟨signed counts empty,?_⟩
  cases named : constraint.role with
  | any =>
    rw [named,RolesAuthorizer.getSigCount_any cache req several empty] at counted
    rw [Except.ok.inj counted]
    exact enough
  | role role =>
    rw [named,RolesAuthorizer.getSigCount_role cache req role several empty] at counted
    simp only
    rw [Except.ok.inj counted]
    exact enough

/-- A constraint that names a role is met only with a signer of that role. -/
theorem named_role_signed (role : Role) (named : constraint.role = .role role)
    (passed : rolesPass cache req action constraint = true) :
    ∃ did, req.SignedBy did ∧ getRoleOf cache did = some role := by
  cases single : req.hasSignature with
  | true =>
    obtain ⟨author,identifier,has,_⟩ :=
      single_backed cache req constraint action counts onLedger single passed
    rw [named] at has
    exact ⟨author,Or.inl ⟨single,identifier⟩,has⟩
  | false =>
    obtain ⟨_,counted⟩ := several_counted cache req constraint action counts onLedger single passed
    rw [named] at counted
    obtain ⟨did,member,accepted⟩ := List.countP_pos_iff.mp (Nat.lt_of_lt_of_le counts counted)
    exact ⟨did,Or.inr member,(isRoleAccepted_iff cache did (.role role)).mp accepted⟩

private theorem several_backed_iff (several : req.hasSignature = false)
    (passed : rolesPass cache req action constraint = true) :
    Backed cache req constraint ↔ constraint.sigCount ≤ req.signers.countP fun did =>
      RolesAuthorizer.isRoleAccepted (getRoleOf cache did) constraint.role := by
  obtain ⟨author,identifier,known⟩ :=
    author_of_pass cache req constraint action counts onLedger passed
  have authorSigns : req.SignedBy author := by
    obtain ⟨signer,same,member⟩ := (authorSigned_iff req).mp
      (several_counted cache req constraint action counts onLedger several passed).1
    rw [identifier] at same
    rw [signedBy_several req author several,Option.some.inj same]
    exact member
  rw [← exists_distinct_iff req.signers (signers_nodup req)]
  simp only [Backed,signedBy_several req _ several,isRoleAccepted_iff]
  refine ⟨fun backed => backed.1,fun distinct => ⟨distinct,author,identifier,known,?_⟩⟩
  exact (signedBy_several req author several).mp authorSigns

private theorem unknown_signers_pass (unknown : UnknownSignersDecide cache req constraint action) :
    rolesPass cache req action constraint = true := by
  obtain ⟨any,several,owner,known,signed,enough,_⟩ := unknown
  have present : req.signatures ≠ [] := by
    intro empty
    rw [empty,List.length_nil] at enough
    omega
  rw [rolesPass_iff,any,onLedger]
  exact ⟨owner,fun _ _ => known,fun _ _ => signed,req.signatures.length,
    RolesAuthorizer.getSigCount_any cache req several present,enough⟩

/-- Acceptance means enough signers on the ledger, except where a constraint on
any role is met by signers unknown to the ledger. -/
theorem accepted_backed_iff :
    (RolesAuthorizer.authorize cache req constraint action = .ok (true,"") →
      Backed cache req constraint) ↔ ¬UnknownSignersDecide cache req constraint action := by
  rw [authorize_accepts]
  refine ⟨fun backs unknown => ?_,fun known passed => ?_⟩
  · have passed := unknown_signers_pass cache req constraint action counts onLedger unknown
    obtain ⟨any,several,_,_,_,_,few⟩ := unknown
    have enough := (several_backed_iff cache req constraint action counts onLedger several passed).mp
      (backs passed)
    rw [any] at enough
    exact absurd enough (Nat.not_le.mpr few)
  cases several : req.hasSignature with
  | true =>
    obtain ⟨author,identifier,role,one⟩ :=
      single_backed cache req constraint action counts onLedger several passed
    obtain ⟨same,same_eq,present⟩ := author_of_pass cache req constraint action counts onLedger passed
    rw [identifier] at same_eq
    cases same_eq
    have signs : req.SignedBy author := Or.inl ⟨several,identifier⟩
    refine ⟨⟨{author},?_,?_⟩,author,identifier,present,signs⟩
    · rw [one,Finset.card_singleton]
    · intro did member
      rw [Finset.mem_singleton.mp member]
      exact ⟨signs,role⟩
  | false =>
    rw [several_backed_iff cache req constraint action counts onLedger several passed]
    obtain ⟨signed,counted⟩ :=
      several_counted cache req constraint action counts onLedger several passed
    cases named : constraint.role with
    | role role =>
      rw [named] at counted
      exact counted
    | any =>
      rw [named] at counted
      -- The lookup is what the code leaves out, so it comes from the assumption.
      refine Nat.not_lt.mp fun few => known ⟨named,several,?_,?_,signed,counted,few⟩
      · exact ((rolesPass_iff cache req action constraint).mp passed).1
      · exact ((rolesPass_iff cache req action constraint).mp passed).2.1 counts onLedger

end

def didA : Did := ⟨"A",by decide⟩

def didB : Did := ⟨"B",by decide⟩

def ledgerOfA : IdrCache := fun did =>
  if did = didA then some ⟨1,none,none,.identityOwner,some "keyA"⟩ else none

def signedByAAndB : Request where
  identifier := some didA
  reqId := 1
  signature := none
  signatures := [(didA,"sigA"),(didB,"sigB")]
  endorser := none
  distinct := by decide
  identified := by decide

/-- `A` changes its key; the request is signed by `A` and by the unknown `B`. -/
def editOwnKey : AuthAction := .edit "1" "verkey" "keyA" "keyK" true

theorem unknown_second_signer_counts :
    RolesAuthorizer.authorize ledgerOfA signedByAAndB (anyRoleConstraint 2 false none) editOwnKey =
      .ok (true,"") ∧ ¬Backed ledgerOfA signedByAAndB (anyRoleConstraint 2 false none) := by
  have passed : rolesPass ledgerOfA signedByAAndB editOwnKey (anyRoleConstraint 2 false none) = true := by
    decide
  refine ⟨(authorize_accepts _ _ _ _).mpr passed,?_⟩
  rw [several_backed_iff _ _ _ editOwnKey (by decide) rfl rfl passed]
  decide

/-- A named role is looked up for each signer, and `A` alone has it. -/
theorem known_signers_back : ¬UnknownSignersDecide ledgerOfA signedByAAndB
      (roleConstraint .identityOwner 1 false) editOwnKey ∧
    Backed ledgerOfA signedByAAndB (roleConstraint .identityOwner 1 false) := by
  have named : ¬UnknownSignersDecide ledgerOfA signedByAAndB
      (roleConstraint .identityOwner 1 false) editOwnKey := by
    intro unknown
    exact absurd unknown.1 (by decide)
  refine ⟨named,(accepted_backed_iff _ _ _ _ (by decide) rfl).mpr named ?_⟩
  rw [authorize_accepts]
  decide

end IndyNode.Authorize

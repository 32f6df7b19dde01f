import IndyNode.Authorize.Signatures

/-! Constraints that only privileged roles can meet: an unprivileged author needs
an endorser. The roles check supplies a privileged signer, the endorser check
then insists on the field and on the signature. -/
namespace IndyNode.Authorize

/-- A constraint on a privileged role: `TRUSTEE`, `STEWARD` or `ENDORSER`, at least
one signature, on the ledger. -/
def Privileged (constraint : AuthConstraint) : Prop :=
  (∃ role, constraint.role = .role role ∧ (role = .trustee ∨ role = .steward ∨ role = .endorser)) ∧
    1 ≤ constraint.sigCount ∧ constraint.acceptsOffLedger = false

private theorem noNeedForEndorser_iff (role : Option Role) :
    EndorserAuthorizer.noNeedForEndorser role = true ↔
      role = some .trustee ∨ role = some .steward ∨ role = some .endorser := by
  cases role with
  | none => simp [EndorserAuthorizer.noNeedForEndorser]
  | some role => cases role <;> simp [EndorserAuthorizer.noNeedForEndorser]

private theorem several_of_two (req : Request) (first second : Did) (first_signs : first ∈ req.signers)
    (second_signs : second ∈ req.signers) (differ : first ≠ second) :
    1 < req.signatures.length := by
  have length : req.signers.length = req.signatures.length := by simp [Request.signers]
  rw [← length]
  refine Nat.lt_of_not_le fun short => differ ?_
  match shape : req.signers,short with
  | [],_ =>
    rw [shape] at first_signs
    exact absurd first_signs List.not_mem_nil
  | [only],_ =>
    rw [shape] at first_signs second_signs
    rw [List.mem_singleton.mp first_signs,List.mem_singleton.mp second_signs]
  | _::_::_,short => simp at short

/-- The last three stages of the field check: an unprivileged author among
several signers, one of them privileged, must name an endorser. -/
theorem field_required (cache : IdrCache) (req : Request) (several : 1 < req.signatures.length)
    (author : EndorserAuthorizer.noNeedForEndorser (req.identifier.bind (getRoleOf cache)) = false)
    (privileged : ∃ did ∈ req.signers, EndorserAuthorizer.noNeedForEndorser (getRoleOf cache did) = true)
    (passed : (EndorserAuthorizer.checkEndorserFieldPresence cache req).1 = true) :
    ∃ endorser, req.endorser = some endorser ∧
      (req.endorser = req.identifier ∨ endorser ∈ req.signers) := by
  have present : req.signatures.isEmpty = false := by
    cases shape : req.signatures with
    | nil => simp [shape] at several
    | cons _ _ => rfl
  have anyPrivileged :
      (req.signers.any fun did => EndorserAuthorizer.noNeedForEndorser (getRoleOf cache did)) = true :=
    List.any_eq_true.mpr privileged
  unfold EndorserAuthorizer.checkEndorserFieldPresence at passed
  cases named : req.endorser with
  | none => simp [named,present,several,author,anyPrivileged] at passed
  | some endorser =>
    refine ⟨endorser,rfl,?_⟩
    by_cases unsigned : some endorser ≠ req.identifier ∧ endorser ∉ req.signers
    · simp [named,unsigned] at passed
    · by_cases same : some endorser = req.identifier
      · exact Or.inl same
      · exact Or.inr (Classical.byContradiction fun missing => unsigned ⟨same,missing⟩)

private theorem role_required (cache : IdrCache) (req : Request) (endorser : Did)
    (named : req.endorser = some endorser)
    (passed : (EndorserAuthorizer.checkEndorserRole cache req).1 = true) :
    getRoleOf cache endorser = some .endorser := by
  rw [EndorserAuthorizer.checkEndorserRole,named] at passed
  by_cases role : getRoleOf cache endorser = some .endorser
  · exact role
  · simp [role] at passed

private theorem leaf_endorsed (cache : IdrCache) (req : Request) (action : AuthAction)
    (unprivileged : EndorserAuthorizer.noNeedForEndorser (RolesAuthorizer.getRole cache req) = false)
    (constraint : AuthConstraint) (privileged : Privileged constraint)
    (holds : leafHolds cache req action constraint = true) :
    ∃ endorser, req.endorser = some endorser ∧ getRoleOf cache endorser = some .endorser ∧
      endorser ∈ req.signers := by
  obtain ⟨⟨role,named,kind⟩,counts,onLedger⟩ := privileged
  have exempt : EndorserAuthorizer.noNeedForEndorser (some role) = true := by
    rw [noNeedForEndorser_iff]
    simpa using kind
  rw [leafHolds,Bool.and_eq_true,endorserPass_iff] at holds
  obtain ⟨roles,roleChecked,fieldChecked⟩ := holds
  obtain ⟨did,signs,has⟩ :=
    named_role_signed cache req constraint action counts onLedger role named roles
  rcases signs with ⟨_,own⟩ | member
  · rw [RolesAuthorizer.getRole,own,Option.bind_some,has,exempt] at unprivileged
    exact absurd unprivileged (by simp)
  have present : req.signatures ≠ [] := by
    intro empty
    rw [Request.signers,empty] at member
    exact absurd member List.not_mem_nil
  have signed := ((rolesPass_iff cache req action constraint).mp roles).2.2.1 counts present
  obtain ⟨author,identifier,authorSigns⟩ := (authorSigned_iff req).mp signed
  have authorRole : EndorserAuthorizer.noNeedForEndorser (getRoleOf cache author) = false := by
    simpa [RolesAuthorizer.getRole,identifier] using unprivileged
  have differ : author ≠ did := by
    intro same
    rw [same,has,exempt] at authorRole
    exact absurd authorRole (by simp)
  have several := several_of_two req author did authorSigns member differ
  obtain ⟨endorser,endorser_eq,signs⟩ := field_required cache req several
    (by simpa [identifier] using authorRole) ⟨did,member,by rw [has]; exact exempt⟩ fieldChecked
  have endorserRole := role_required cache req endorser endorser_eq roleChecked
  refine ⟨endorser,endorser_eq,endorserRole,?_⟩
  rcases signs with same | signs
  · -- The author would be the endorser, hence privileged.
    rw [endorser_eq,identifier] at same
    rw [Option.some.inj same] at endorserRole
    rw [endorserRole] at authorRole
    simp [EndorserAuthorizer.noNeedForEndorser] at authorRole
  · exact signs

/-- Whatever the shape of a tree of privileged constraints, an accepted request of
an unprivileged author names an endorser that has the role and has signed. -/
theorem unprivileged_author_endorsed (cache : IdrCache) (req : Request) (action : AuthAction)
    (tree : Constraint) (privileged : tree.Guarded Privileged)
    (accepted : composite cache req action tree = .ok (true,""))
    (unprivileged : ∀ role, RolesAuthorizer.getRole cache req = some role →
      role ≠ .endorser ∧ role ≠ .trustee ∧ role ≠ .steward) :
    ∃ endorser, req.endorser = some endorser ∧ getRoleOf cache endorser = some .endorser ∧
      endorser ∈ req.signers := by
  have author : EndorserAuthorizer.noNeedForEndorser (RolesAuthorizer.getRole cache req) = false := by
    rw [← Bool.not_eq_true,noNeedForEndorser_iff]
    intro exempt
    rcases exempt with role | role | role
    · exact (unprivileged _ role).2.1 rfl
    · exact (unprivileged _ role).2.2 rfl
    · exact (unprivileged _ role).1 rfl
  exact AndOrTree.Guarded.eval_implies (leaf_endorsed cache req action author) tree privileged
    ((composite_decides cache req action tree).accepted.mp accepted)

def ledgerOfAAndB : IdrCache := fun did =>
  if did = didB then some ⟨2,none,none,.endorser,some "keyB"⟩ else ledgerOfA did

def endorsedByB : Request := { signedByAAndB with endorser := some didB }

def trusteeOrEndorser : Constraint :=
  .any [.leaf (roleConstraint .trustee 1 false),.leaf (roleConstraint .endorser 1 false)]

theorem owner_endorsed_by_B :
    composite ledgerOfAAndB endorsedByB (.add "101" "*" "*" true) trusteeOrEndorser = .ok (true,"") ∧
    ∃ endorser, endorsedByB.endorser = some endorser ∧
      getRoleOf ledgerOfAAndB endorser = some .endorser ∧ endorser ∈ endorsedByB.signers := by
  have accepted : composite ledgerOfAAndB endorsedByB (.add "101" "*" "*" true) trusteeOrEndorser =
      .ok (true,"") := by
    rw [(composite_decides _ _ _ _).accepted]
    decide
  refine ⟨accepted,unprivileged_author_endorsed _ _ _ trusteeOrEndorser ?_ accepted ?_⟩
  · simp [trusteeOrEndorser,AndOrTree.Guarded,AndOrTree.GuardedParts,Privileged,roleConstraint,
      AuthConstraint.acceptsOffLedger]
  · intro role known
    have owner : role = .identityOwner := (Option.some.inj known).symm
    subst owner
    decide

end IndyNode.Authorize

import IndyNode.Authorize.Endorsement
import IndyNode.Authorize.RequestValidator
import Mathlib.Data.List.Perm.Subperm

/-! What further signatures do to a valid request. The roles check only counts upwards, but
a signature of a privileged role turns an unprivileged author's request into an endorsed one,
which has to name its endorser. -/
namespace IndyNode.Authorize

/-- The same author and endorser, signed by at least the same DIDs, now in `signatures`. -/
structure Request.Cosigned (req more : Request) : Prop where
  author : more.identifier = req.identifier
  endorser : more.endorser = req.endorser
  several : more.hasSignature = false
  signers : ∀ did, req.SignedBy did → did ∈ more.signers

/-- An unprivileged author, a privileged signer beside them and no endorser named. -/
def EndorserOmitted (cache : IdrCache) (req : Request) : Prop :=
  req.endorser = none ∧ (1 < req.signatures.length ∨ req.authorSigned = false) ∧
    EndorserAuthorizer.noNeedForEndorser (RolesAuthorizer.getRole cache req) = false ∧
    ∃ did ∈ req.signers, EndorserAuthorizer.noNeedForEndorser (getRoleOf cache did) = true

namespace RolesAuthorizer

private theorem signatures_of_signer (req : Request) (did : Did) (signs : did ∈ req.signers) : req.signatures ≠ [] := by
  intro empty
  rw [Request.signers,empty] at signs
  exact absurd signs List.not_mem_nil

private theorem getSigCount_several (cache : IdrCache) (req : Request) (role : RoleSpec) (offLedger : Bool)
    (several : req.hasSignature = false) :
    getSigCount cache req role offLedger = .ok (req.signers.countP fun did =>
      role = .any ∨ offLedger = true ∨ isRoleAccepted (getRoleOf cache did) role = true) := by
  by_cases empty : req.signatures = []
  · simp [getSigCount,several,empty,Request.signers]
  · cases role with
    | any => simp [getSigCount,several,empty,Request.signers]
    | role role => cases offLedger <;> simp [getSigCount,several,empty]

variable {cache : IdrCache} {req more : Request}

private theorem getSigCount_mono (cosigned : req.Cosigned more) (role : RoleSpec) (offLedger : Bool) (count : Nat)
    (counted : getSigCount cache req role offLedger = .ok count) :
    ∃ total, getSigCount cache more role offLedger = .ok total ∧ count ≤ total := by
  refine ⟨_,getSigCount_several cache more role offLedger cosigned.several,?_⟩
  cases single : req.hasSignature with
  | false =>
    rw [getSigCount_several cache req role offLedger single] at counted
    rw [← Except.ok.inj counted]
    have inside : req.signers ⊆ more.signers := fun did signs => cosigned.signers did (Or.inr signs)
    exact ((signers_nodup req).subperm inside).countP_le _
  | true =>
    cases identifier : req.identifier with
    | none => exact absurd identifier (req.identified single)
    | some author =>
      have signs := cosigned.signers author (Or.inl ⟨single,identifier⟩)
      cases offLedger with
      | true =>
        have one : getSigCount cache req role true = .ok 1 := by simp [getSigCount,single]
        rw [← Except.ok.inj (one.symm.trans counted)]
        exact List.countP_pos_iff.mpr ⟨author,signs,by simp⟩
      | false =>
        rw [getSigCount_single cache req role author single identifier] at counted
        rw [← Except.ok.inj counted]
        split
        · rename_i accepted
          exact List.countP_pos_iff.mpr ⟨author,signs,by simp [accepted]⟩
        · exact Nat.zero_le _

end RolesAuthorizer

section
variable {cache : IdrCache} {req more : Request}

private theorem author_signs (action : AuthAction) (constraint : AuthConstraint) (counts : 0 < constraint.sigCount)
    (passed : rolesPass cache req action constraint = true) :
    ∃ author, req.identifier = some author ∧ req.SignedBy author := by
  obtain ⟨_,_,authored,count,counted,enough⟩ := (rolesPass_iff cache req action constraint).mp passed
  cases single : req.hasSignature with
  | true =>
    cases identifier : req.identifier with
    | none => exact absurd identifier (req.identified single)
    | some author => exact ⟨author,rfl,Or.inl ⟨single,identifier⟩⟩
  | false =>
    rw [RolesAuthorizer.getSigCount_several cache req _ _ single] at counted
    have positive := Nat.lt_of_lt_of_le counts (Except.ok.inj counted ▸ enough)
    obtain ⟨did,signs,_⟩ := List.countP_pos_iff.mp positive
    have present := RolesAuthorizer.signatures_of_signer req did signs
    obtain ⟨author,identifier,member⟩ := (authorSigned_iff req).mp (authored counts present)
    exact ⟨author,identifier,Or.inr member⟩

private theorem rolesPass_mono (cosigned : req.Cosigned more) (action : AuthAction) (constraint : AuthConstraint)
    (passed : rolesPass cache req action constraint = true) : rolesPass cache more action constraint = true := by
  obtain ⟨owner,known,_,count,counted,enough⟩ := (rolesPass_iff cache req action constraint).mp passed
  obtain ⟨total,recounted,grows⟩ := RolesAuthorizer.getSigCount_mono cosigned _ _ count counted
  refine (rolesPass_iff cache more action constraint).mpr
    ⟨owner,fun counts onLedger => ?_,fun counts _ => ?_,total,recounted,enough.trans grows⟩
  · rw [RolesAuthorizer.getRole,cosigned.author]
    exact known counts onLedger
  · obtain ⟨author,identifier,signs⟩ := author_signs action constraint counts passed
    exact (authorSigned_iff more).mpr ⟨author,cosigned.author.trans identifier,cosigned.signers author signs⟩

private theorem fieldPresence_iff (signed : ∀ endorser, req.endorser = some endorser →
      req.endorser = req.identifier ∨ endorser ∈ req.signers) :
    (EndorserAuthorizer.checkEndorserFieldPresence cache req).1 = true ↔ ¬EndorserOmitted cache req := by
  unfold EndorserAuthorizer.checkEndorserFieldPresence EndorserOmitted RolesAuthorizer.getRole
  cases named : req.endorser with
  | some endorser =>
    have covered : ¬(some endorser ≠ req.identifier ∧ endorser ∉ req.signers) := by
      rintro ⟨other,unsigned⟩
      rcases signed endorser named with own | signs
      · exact other (named ▸ own)
      · exact unsigned signs
    simp only [covered,decide_false,Bool.false_eq_true,if_false,Option.isNone_some,reduceCtorEq,false_and,
      not_false_eq_true,iff_true]
    repeat' split
    all_goals rfl
  | none =>
    simp only [Bool.false_eq_true,if_false,Option.isNone_none,if_true,true_and]
    -- The stages of the check are left one by one, each for a part of the condition.
    split
    · rename_i empty
      simp [Request.signers,List.isEmpty_iff.mp empty]
    split
    · rename_i alone
      simp only [true_iff]
      exact fun omitted => alone (omitted.1.imp_right fun unsigned => by simp [unsigned])
    split
    · rename_i exempt
      simp [exempt]
    split
    · rename_i unprivileged
      simp only [true_iff]
      exact fun omitted => unprivileged (List.any_eq_true.mpr omitted.2.2)
    · rename_i beside author privileged
      simp only [Bool.false_eq_true,false_iff,not_not]
      refine ⟨?_,Bool.not_eq_true _ ▸ author,List.any_eq_true.mp (not_not.mp privileged)⟩
      exact (not_not.mp beside).imp_right fun unsigned => by simpa using unsigned

private theorem checkEndorserRole_cosigned (cosigned : req.Cosigned more) :
    EndorserAuthorizer.checkEndorserRole cache more = EndorserAuthorizer.checkEndorserRole cache req := by
  rw [EndorserAuthorizer.checkEndorserRole,EndorserAuthorizer.checkEndorserRole,cosigned.endorser]

private theorem endorser_signs (passed : endorserPass cache req = true) (endorser : Did)
    (named : req.endorser = some endorser) : req.endorser = req.identifier ∨ endorser ∈ req.signers := by
  obtain ⟨_,field⟩ := (endorserPass_iff cache req).mp passed
  unfold EndorserAuthorizer.checkEndorserFieldPresence at field
  simp only [named] at field ⊢
  by_cases unsigned : some endorser ≠ req.identifier ∧ endorser ∉ req.signers
  · simp [unsigned] at field
  · exact Classical.byContradiction fun neither => unsigned (not_or.mp neither)

private theorem endorserPass_cosigned (cosigned : req.Cosigned more) (passed : endorserPass cache req = true) :
    endorserPass cache more = true ↔ ¬EndorserOmitted cache more := by
  rw [endorserPass_iff,checkEndorserRole_cosigned cosigned,
    and_iff_right ((endorserPass_iff cache req).mp passed).1]
  refine fieldPresence_iff fun endorser named => ?_
  rw [cosigned.endorser] at named ⊢
  rw [cosigned.author]
  exact (endorser_signs passed endorser named).imp_right fun signs => cosigned.signers endorser (Or.inr signs)

private theorem leafHolds_of_unendorsed (action : AuthAction) (failed : endorserPass cache req = false) :
    leafHolds cache req action = fun _ => false := by
  funext constraint
  rw [leafHolds,failed,Bool.and_false]

/-- With more signatures a valid request stays valid unless they call for an endorser that it does
not name; then only a constraint that looks at no signature at all accepts it. -/
theorem cosigned_valid_iff (config : ValidatorConfig) (cache : IdrCache) (req more : Request)
    (cosigned : req.Cosigned more) (action : AuthAction) (others : List AuthAction)
    (valid : validate config cache req (action::others) = .ok ()) :
    validate config cache more (action::others) = .ok () ↔
      ¬EndorserOmitted cache more ∨ ∃ constraint, getAuthConstraint config action.actionId = .ok (some constraint) ∧
        constraint.eval (fun _ => false) = true := by
  obtain ⟨constraint,found,holds⟩ := (validate_iff config cache req action others).mp valid
  have same : ∀ other, getAuthConstraint config action.actionId = .ok (some other) → other = constraint :=
    fun other search => Option.some.inj (Except.ok.inj (search.symm.trans found))
  by_cases unread : constraint.eval (fun _ => false) = true
  · refine iff_of_true ?_ (Or.inr ⟨constraint,found,unread⟩)
    exact (validate_iff config cache more action others).mpr
      ⟨constraint,found,AndOrTree.eval_mono (fun _ impossible => absurd impossible Bool.false_ne_true) constraint unread⟩
  have passed : endorserPass cache req = true := by
    refine Classical.byContradiction fun failed => unread ?_
    rwa [leafHolds_of_unendorsed action (Bool.not_eq_true _ ▸ failed)] at holds
  rw [or_iff_left fun ⟨other,search,reads⟩ => unread (same other search ▸ reads),
    ← endorserPass_cosigned cosigned passed,validate_iff]
  refine ⟨fun ⟨other,search,accepted⟩ => Classical.byContradiction fun failed => unread ?_,
    fun endorsed => ⟨constraint,found,AndOrTree.eval_mono (fun leaf met => ?_) constraint holds⟩⟩
  · rwa [same other search,leafHolds_of_unendorsed action (Bool.not_eq_true _ ▸ failed)] at accepted
  · rw [leafHolds,Bool.and_eq_true] at met ⊢
    exact ⟨rolesPass_mono cosigned action leaf met.1,endorsed⟩

end

def signedByAAlone : Request where
  identifier := some didA
  reqId := 1
  signature := some "sigOfA"
  signatures := []
  endorser := none
  distinct := List.nodup_nil
  identified := by decide

/-- `A` may change its own key, but not with the signature of an endorser it does not name. -/
theorem endorser_signature_refused :
    validate (defaultConfig .localAuth fun _ => "") ledgerOfAAndB signedByAAlone [editOwnKey] = .ok () ∧
    validate (defaultConfig .localAuth fun _ => "") ledgerOfAAndB signedByAAndB [editOwnKey] ≠ .ok () := by
  have found : getAuthConstraint (defaultConfig .localAuth fun _ => "") editOwnKey.actionId =
      .ok (some ownerConstraint) := by
    rw [getAuthConstraint_default .localAuth _ editOwnKey (by decide)]
    rfl
  have valid : validate (defaultConfig .localAuth fun _ => "") ledgerOfAAndB signedByAAlone [editOwnKey] = .ok () :=
    (validate_iff _ _ _ _ _).mpr ⟨ownerConstraint,found,by decide⟩
  have cosigned : signedByAAlone.Cosigned signedByAAndB := by
    refine ⟨rfl,rfl,rfl,fun did signs => ?_⟩
    rcases signs with ⟨_,own⟩ | listed
    · rw [← Option.some.inj own]
      decide
    · exact absurd listed List.not_mem_nil
  refine ⟨valid,fun accepted => ?_⟩
  rcases (cosigned_valid_iff _ _ _ _ cosigned editOwnKey [] valid).mp accepted with named | ⟨constraint,search,unread⟩
  · exact named ⟨rfl,Or.inl (by decide),by decide,didB,by decide,by decide⟩
  · rw [found] at search
    obtain rfl := Option.some.inj (Except.ok.inj search)
    exact absurd unread (by decide)

end IndyNode.Authorize

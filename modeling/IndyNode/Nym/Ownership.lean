import IndyNode.Nym.Steps
import IndyNode.Nym.Privilege
import IndyNode.Authorize.OwnerRules

/-! What the owner of a DID controls under the default rules. The key is the
owner's alone. The document is not: a role in the same request is enough to have
it stored. -/
namespace IndyNode.Nym
open Authorize

private theorem verkey_owner_only : OwnerOnly "1" "EDIT" "verkey" := by
  decide

section
variable (policy : AuthPolicy) (describe : Request → String) (codec : KeyCodec)
  (loads : String → Except Raised Json)

private theorem verkey_from_owner (cache : IdrCache) (req : Request) (op : NymOperation) (record : NymRecord)
    (updates : Updates (defaultSetup policy describe codec loads) cache req op record)
    (given : op.verkey.isSome = true) :
    ∃ author, req.identifier = some author ∧ ownerOf op.dest record = some author := by
  obtain ⟨verkey,same⟩ := Option.isSome_iff_exists.mp given
  obtain ⟨owner,author,identifier,_⟩ := owner_required policy describe cache req
    (.edit nymType "verkey" _ _ _) ⟨by simp [AuthAction.actionDef,nymType],
      by simp [AuthAction.actionDef],by simp [AuthAction.actionDef]⟩
    verkey_owner_only (updates.verkey verkey same)
  refine ⟨author,identifier,?_⟩
  have owned : isOwner req op.dest record = true := owner
  rw [isOwner,decide_eq_true_eq] at owned
  exact owned.symm.trans identifier

private theorem step_verkey (state : NymState) (sub : Submission) (did : Did) (record : NymRecord)
    (known : state.nyms did = some record) :
    ∃ now, (stepNym (defaultSetup policy describe codec loads) state sub).nyms did = some now ∧
      (now.verkey ≠ record.verkey → ∃ author, sub.req.identifier = some author ∧
        ownerOf did record = some author) := by
  rcases stepNym_record (defaultSetup policy describe codec loads) state did sub with
    ⟨_,same⟩ | ⟨op,_,_,rfl,accepted,updated⟩
  · exact ⟨record,same.trans known,fun changed => absurd rfl changed⟩
  rw [known] at updated
  refine ⟨_,updated,fun changed => ?_⟩
  cases accepted with
  | created unknown _ => simp [known] at unknown
  | updated old known_old updates =>
    obtain rfl : record = old := Option.some.inj (known.symm.trans known_old)
    refine verkey_from_owner policy describe codec loads state.cache _ op record updates ?_
    cases given : op.verkey with
    | none => simp [updatedRecord,given] at changed
    | some verkey => rfl

/-- Along every run the key of a DID on the ledger changes only by a request of
its owner: the DID itself if it has a key, whoever put it on the ledger if not. -/
theorem keys_change_by_owner_only (start : NymState) (before : List Submission) (sub : Submission)
    (did : Did) (record : NymRecord)
    (known : (runNyms (defaultSetup policy describe codec loads) start before).nyms did = some record) :
    ∃ now, (runNyms (defaultSetup policy describe codec loads) start (before ++ [sub])).nyms did =
        some now ∧
      (now.verkey ≠ record.verkey → ∃ author, sub.req.identifier = some author ∧
        (truthy (storedVerkey record.verkey) = true → author = did) ∧
        (truthy (storedVerkey record.verkey) = false → CreatedBy
          (defaultSetup policy describe codec loads) start before did (some author))) := by
  obtain ⟨now,stored,owned⟩ := step_verkey policy describe codec loads _ sub did record known
  refine ⟨now,by rw [runNyms_snoc]; exact stored,fun changed => ?_⟩
  obtain ⟨author,identifier,owner⟩ := owned changed
  refine ⟨author,identifier,fun keyed => ?_,fun keyless => ?_⟩
  · rw [ownerOf,if_pos keyed] at owner
    exact (Option.some.inj owner).symm
  · rw [ownerOf,if_neg (by simp [keyless])] at owner
    rw [← owner]
    exact run_creator _ start before did record known

end

def rotationOfA : Submission :=
  ⟨⟨signedByA,nymType,some "A",none,some (some "keyC"),none,none⟩,2,none⟩

private theorem rotationOfA_applied : applyNym plainSetup ledgerOfTrustee rotationOfA =
    .ok (ledgerOfTrustee.update (some didA) ⟨didA,none,some (some "keyC"),none,none⟩ 2 none) := by
  have parsed : staticValidation plainSetup.loads rotationOfA.req =
      .ok ⟨didA,none,some (some "keyC"),none,none⟩ := by
    decide
  have edited : validate plainSetup.config ledgerOfTrustee.cache signedByA
      [.edit nymType "verkey" "keyA" "keyC" true] = .ok () := by
    rw [validate_iff]
    refine ⟨ownerConstraint,?_,by decide⟩
    rw [plainSetup,defaultSetup,getAuthConstraint_default _ _ _ (by decide)]
    rfl
  have checked : additionalDynamicValidation plainSetup ledgerOfTrustee.cache signedByA
      ⟨didA,none,some (some "keyC"),none,none⟩ = .ok () := by
    have unfolded : additionalDynamicValidation plainSetup ledgerOfTrustee.cache signedByA
        ⟨didA,none,some (some "keyC"),none,none⟩ = (do
          validate plainSetup.config ledgerOfTrustee.cache signedByA
            [.edit nymType "verkey" "keyA" "keyC" true]
          .ok ()) := rfl
    rw [unfolded,edited]
    rfl
  rw [applyNym,parsed,ok_bind]
  have same : rotationOfA.req.toRequest = signedByA := rfl
  rw [same,checked]
  rfl

theorem owner_rotates_key : ∃ now, (runNyms plainSetup ledgerOfTrustee [rotationOfA]).nyms didA =
    some now ∧ now.verkey = some "keyC" ∧ ∃ author, rotationOfA.req.identifier = some author ∧
      author = didA := by
  obtain ⟨now,stored,owned⟩ := keys_change_by_owner_only .configLedger (fun _ => "")
    plainSetup.codec plainSetup.loads ledgerOfTrustee [] rotationOfA didA trusteeA rfl
  have key : now.verkey = some "keyC" := by
    have final : (stepNym plainSetup ledgerOfTrustee rotationOfA).nyms didA = some now := stored
    rw [stepNym_applied _ _ _ _ rotationOfA_applied] at final
    obtain rfl := Option.some.inj final
    rfl
  obtain ⟨author,identifier,self,_⟩ := owned (by rw [key]; decide)
  exact ⟨now,stored,key,author,identifier,self (by decide)⟩

/-- A request of somebody else that carries a role together with a document the
DID does not have yet. -/
def Overreaches (state : NymState) (sub : Submission) (did : Did) : Prop :=
  sub.req.operation.dest = some did.val ∧ sub.req.operation.role.isSome = true ∧
    ∃ record, state.nyms did = some record ∧ isOwner sub.req.toRequest did record = false ∧
      ∃ content, sub.req.operation.diddocContent = some content ∧ record.diddocContent ≠ some content

private theorem staticValidation_fields (loads : String → Except Raised Json) (req : ClientRequest)
    (op : NymOperation) (parsed : staticValidation loads req = .ok op) :
    req.operation.dest = some op.dest.val ∧ op.role.isSome = req.operation.role.isSome ∧
      op.verkey = req.operation.verkey ∧ op.diddocContent = req.operation.diddocContent ∧
      op.version = req.operation.version := by
  obtain ⟨dest,target,parsed⟩ := bind_success _ _ _ parsed
  obtain ⟨role,given,parsed⟩ := bind_success _ _ _ parsed
  obtain ⟨_,_,parsed⟩ := bind_success _ _ _ parsed
  obtain ⟨_,_,parsed⟩ := bind_success _ _ _ parsed
  obtain rfl := Except.ok.inj parsed
  refine ⟨?_,?_,rfl,rfl,rfl⟩
  · rw [validDest] at target
    split at target
    · simp at target
    · rename_i text present
      split at target
      · simp at target
      · rw [present,← Except.ok.inj target]
  · rw [checkRole] at given
    split at given
    · rename_i missing
      rw [missing,← Except.ok.inj given]
      rfl
    · rename_i value present
      split at given
      · rw [present,← Except.ok.inj given]
        rfl
      · simp at given

private theorem updated_diddoc (record : NymRecord) (author : Option Did) (op : NymOperation) (seqNo : Nat)
    (txnTime : Option Nat) : (updatedRecord (some record) author op seqNo txnTime).diddocContent =
      op.diddocContent.or record.diddocContent := rfl

section
variable (policy : AuthPolicy) (describe : Request → String) (codec : KeyCodec)
  (loads : String → Except Raised Json)

private theorem stranger_names_role (state : NymState) (req : Request) (op : NymOperation)
    (record : NymRecord)
    (updates : Updates (defaultSetup policy describe codec loads) state.cache req op record)
    (stranger : isOwner req op.dest record = false) : op.role.isSome = true := by
  rcases updates.entitled with owner | role | verkey
  · simp [stranger] at owner
  · exact role
  · obtain ⟨author,identifier,owner⟩ :=
      verkey_from_owner policy describe codec loads state.cache req op record updates verkey
    simp [isOwner,identifier,owner] at stranger

/-- An accepted NYM of somebody else leaves the document alone exactly when it
does not overreach. -/
theorem stranger_step_diddoc (state next : NymState) (sub : Submission) (did : Did)
    (record : NymRecord) (known : state.nyms did = some record)
    (stranger : isOwner sub.req.toRequest did record = false)
    (applied : applyNym (defaultSetup policy describe codec loads) state sub = .ok next) :
    (next.nyms did).map NymRecord.diddocContent = some record.diddocContent ↔
      ¬Overreaches state sub did := by
  obtain ⟨op,parsed,accepted,rfl⟩ := applyNym_accepted _ state next sub applied
  obtain ⟨dest,role,_,content,_⟩ := staticValidation_fields _ _ op parsed
  by_cases target : did = op.dest
  · subst target
    rw [update_dest,known,Option.map_some,updated_diddoc,Option.some.injEq]
    cases accepted with
    | created unknown _ => simp [known] at unknown
    | updated old known_old updates =>
      obtain rfl : record = old := Option.some.inj (known.symm.trans known_old)
      have named := stranger_names_role policy describe codec loads state _ op record updates stranger
      rw [role] at named
      cases given : op.diddocContent with
      | none => simp [Overreaches,← content,given]
      | some text =>
        simp only [Overreaches,dest,named,known,← content,given,Option.some.injEq,
          true_and,exists_eq_left',stranger,ne_eq,not_not]
        exact eq_comm
  · rw [update_other _ _ _ _ _ did target,known]
    refine iff_of_true rfl fun overreach => target ?_
    exact Subtype.ext (Option.some.inj (overreach.1.symm.trans dest))

/-- In every run without overreaching requests the document of a DID is changed by
its owner only, and in every state of a run an accepted request of somebody else
that overreaches changes it. -/
theorem diddoc_kept_without_overreach (start : NymState) (subs : List Submission) :
    ((∀ before sub after did, subs = before ++ sub :: after →
        ¬Overreaches (runNyms (defaultSetup policy describe codec loads) start before) sub did) →
      ∀ before sub after next did record, subs = before ++ sub :: after →
        (runNyms (defaultSetup policy describe codec loads) start before).nyms did = some record →
        applyNym (defaultSetup policy describe codec loads)
          (runNyms (defaultSetup policy describe codec loads) start before) sub = .ok next →
        isOwner sub.req.toRequest did record = false →
        (next.nyms did).map NymRecord.diddocContent = some record.diddocContent) ∧
    ∀ before sub after next did record, subs = before ++ sub :: after →
      (runNyms (defaultSetup policy describe codec loads) start before).nyms did = some record →
      applyNym (defaultSetup policy describe codec loads)
        (runNyms (defaultSetup policy describe codec loads) start before) sub = .ok next →
      isOwner sub.req.toRequest did record = false →
      ((next.nyms did).map NymRecord.diddocContent = some record.diddocContent ↔
        ¬Overreaches (runNyms (defaultSetup policy describe codec loads) start before) sub did) := by
  have step := stranger_step_diddoc policy describe codec loads
  refine ⟨fun careful before sub after next did record split known applied stranger => ?_,
    fun before sub after next did record _ known applied stranger => ?_⟩
  · exact (step _ next sub did record known stranger applied).mpr (careful before sub after did split)
  · exact step _ next sub did record known stranger applied

end

/-- `A` is a trustee and `B` has a key of its own. -/
def ownerB : NymRecord := ⟨some didA,.identityOwner,some "keyB",none,none,2,none⟩

def ledgerOfOwner : NymState where
  nyms did := if did = didA then some trusteeA else if did = didB then some ownerB else none
  cache did := if did = didA then some trusteeA.cacheEntry
    else if did = didB then some ownerB.cacheEntry else none
  agrees did := by
    by_cases trustee : did = didA
    · simp [trustee]
    · by_cases owner : did = didB
      · simp only [if_neg trustee,if_pos owner,Option.map_some]
      · simp [trustee,owner]

/-- Documents are read as an empty object. -/
def documentSetup : NymSetup :=
  defaultSetup .configLedger (fun _ => "") plainSetup.codec fun _ => .ok (.obj [])

def documentForB : Submission :=
  ⟨⟨signedByA,nymType,some "B",some (some "101"),none,some (some "\x7b\x7d"),none⟩,3,none⟩

def documentOfB : NymOperation := ⟨didB,some .endorser,none,some (some "\x7b\x7d"),none⟩

theorem trustee_replaces_document : ∃ next, applyNym documentSetup ledgerOfOwner documentForB =
      .ok next ∧ isOwner documentForB.req.toRequest didB ownerB = false ∧
    (ledgerOfOwner.nyms didB).map NymRecord.diddocContent = some none ∧
    (next.nyms didB).map NymRecord.diddocContent = some (some (some "\x7b\x7d")) := by
  have parsed : staticValidation documentSetup.loads documentForB.req = .ok documentOfB := by
    decide
  have edited : validate documentSetup.config ledgerOfOwner.cache signedByA
      [.edit nymType "role" "" "101" false] = .ok () := by
    rw [validate_iff]
    refine ⟨stewardOrTrusteeConstraint,?_,by decide⟩
    rw [documentSetup,defaultSetup,getAuthConstraint_default _ _ _ (by decide)]
    rfl
  have checked : additionalDynamicValidation documentSetup ledgerOfOwner.cache signedByA documentOfB =
      .ok () := by
    have entry : ledgerOfOwner.cache documentOfB.dest = some ownerB.cacheEntry := by
      decide
    have stranger : decide (signedByA.identifier = getOwnerFor documentOfB.dest ownerB.cacheEntry) =
        false := by
      decide
    have role : validateUpdate documentSetup ledgerOfOwner.cache signedByA "role"
        ownerB.cacheEntry.role.code (documentOfB.role.map Role.code) false = .ok () := edited
    rw [additionalDynamicValidation,entry]
    simp only [validateExistingNym,stranger,validateUpdates,role,ok_bind]
    rfl
  refine ⟨ledgerOfOwner.update (some didA) documentOfB 3 none,?_,by decide,rfl,rfl⟩
  have same : documentForB.req.toRequest = signedByA := rfl
  rw [applyNym,parsed,ok_bind,same,checked]
  rfl

end IndyNode.Nym

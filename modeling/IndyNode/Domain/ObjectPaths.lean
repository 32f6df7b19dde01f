import IndyNode.Domain.ActionTexts
import IndyNode.Domain.Run

/-! When two objects of one author share a path. The parts of a path are joined with
colons, which signature types, tags and registry types may contain themselves. -/
namespace IndyNode.Domain
open Authorize Nym Separated

/-- The form of a schema version: numbers separated by dots. -/
def IsVersion (version : String) : Prop := ∀ c ∈ version.toList, c = '.' ∨ c.isDigit = true

private theorem IsVersion.clean {version : String} (shaped : IsVersion version) : ':' ∉ version.toList := by
  intro member
  rcases shaped ':' member with dot | digit
  · exact absurd dot (by decide)
  · exact absurd digit (by decide)

private theorem toString_clean (number : Nat) : ':' ∉ (toString number).toList := by
  intro member
  rw [Nat.toString_eq_repr,Nat.toList_repr] at member
  exact absurd (Nat.isDigit_of_mem_toDigits (by decide) (by decide) member) (by decide)

private theorem toString_digits_inj (first second : Nat)
    (same : (toString first).toList = (toString second).toList) : first = second := by
  rw [Nat.toString_eq_repr,Nat.toString_eq_repr,Nat.toList_repr,Nat.toList_repr] at same
  calc first = Nat.ofDigitChars 10 (Nat.toDigits 10 first) 0 := Nat.ofDigitChars_ten_toDigits.symm
    _ = Nat.ofDigitChars 10 (Nat.toDigits 10 second) 0 := by rw [same]
    _ = second := Nat.ofDigitChars_ten_toDigits

def ClaimDefOperation.key (op : ClaimDefOperation) : String × Nat × String :=
  (op.signatureType,op.ref,op.tag)

def RevocDefOperation.key (op : RevocDefOperation) : String × String × String :=
  (op.credDefId,op.revocDefType,op.tag)

/-- The parts of a claim definition around the first separator of its own. -/
def ClaimDefOperation.parts (op : ClaimDefOperation) : List Char × List Char :=
  (op.signatureType.toList,(toString op.ref).toList ++ ':' :: op.tag.toList)

/-- The parts of a registry definition, its type and tag together. -/
def RevocDefOperation.parts (op : RevocDefOperation) : List Char × List Char :=
  (op.credDefId.toList,op.revocDefType.toList ++ ':' :: op.tag.toList)

/-- A colon inside the signature type of one stands where the other has its own. -/
def ClaimDefShifted (first second : ClaimDefOperation) : Prop := Shifted ':' first.parts second.parts

/-- A colon inside the credential definition or the type of one stands where the
other has its own. -/
def RevocDefShifted (first second : RevocDefOperation) : Prop :=
  Shifted ':' first.parts second.parts ∨
    first.credDefId = second.credDefId ∧ Shifted ':' (first.revocDefType.toList,first.tag.toList)
      (second.revocDefType.toList,second.tag.toList)

section Paths
variable (author : Option Did)

theorem schemaPath_inj (first second : SchemaOperation) (firstShaped : IsVersion first.version)
    (secondShaped : IsVersion second.version)
    (same : schemaPath author first = schemaPath author second) :
    first.name = second.name ∧ first.version = second.version := by
  have lists := congrArg String.toList same
  simp only [schemaPath,makeStatePathForSchema,String.toList_append,List.append_assoc,
    List.append_cancel_left_eq] at lists
  have parts := joined_inj_right ':' (first.name.toList,first.version.toList)
    (second.name.toList,second.version.toList) firstShaped.clean secondShaped.clean lists
  obtain ⟨name,version⟩ := Prod.mk.inj parts
  exact ⟨String.toList_inj.mp name,String.toList_inj.mp version⟩

private theorem claimDef_parts_inj (first second : ClaimDefOperation) :
    first.parts = second.parts ↔ first.key = second.key := by
  constructor
  · intro same
    obtain ⟨signatureType,rest⟩ := Prod.mk.inj same
    have parts := joined_inj ':' ((toString first.ref).toList,first.tag.toList)
      ((toString second.ref).toList,second.tag.toList) (toString_clean _) (toString_clean _) rest
    obtain ⟨ref,tag⟩ := Prod.mk.inj parts
    exact Prod.ext (String.toList_inj.mp signatureType)
      (Prod.ext (toString_digits_inj _ _ ref) (String.toList_inj.mp tag))
  · intro same
    obtain ⟨signatureType,rest⟩ := Prod.mk.inj same
    obtain ⟨ref,tag⟩ := Prod.mk.inj rest
    rw [ClaimDefOperation.parts,ClaimDefOperation.parts,signatureType,ref,tag]

private theorem claimDefPath_eq_iff (first second : ClaimDefOperation) :
    claimDefPath author first = claimDefPath author second ↔
      first.key = second.key ∨ ClaimDefShifted first second := by
  rw [← claimDef_parts_inj,ClaimDefShifted,← joined_eq_iff,← String.toList_inj]
  simp [claimDefPath,makeStatePathForClaimDef,ClaimDefOperation.parts]

private theorem revocDefPath_eq_iff (first second : RevocDefOperation) :
    revocDefPath author first = revocDefPath author second ↔
      first.key = second.key ∨ RevocDefShifted first second := by
  have paths : revocDefPath author first = revocDefPath author second ↔
      first.parts = second.parts ∨ Shifted ':' first.parts second.parts := by
    rw [← joined_eq_iff,← String.toList_inj]
    simp [revocDefPath,makeStatePathForRevocDef,RevocDefOperation.parts]
  have parts : first.parts = second.parts ↔ first.credDefId = second.credDefId ∧
      ((first.revocDefType.toList,first.tag.toList) = (second.revocDefType.toList,second.tag.toList) ∨
        Shifted ':' (first.revocDefType.toList,first.tag.toList)
          (second.revocDefType.toList,second.tag.toList)) := by
    rw [← joined_eq_iff,RevocDefOperation.parts,RevocDefOperation.parts,Prod.mk.injEq,String.toList_inj]
  have keys : first.key = second.key ↔ first.credDefId = second.credDefId ∧
      (first.revocDefType.toList,first.tag.toList) = (second.revocDefType.toList,second.tag.toList) := by
    simp [RevocDefOperation.key,String.toList_inj]
  rw [paths,parts,keys,RevocDefShifted,and_or_left,or_assoc]
  exact or_congr_right or_comm

/-- Writing one object leaves the path of every other one alone unless they share it. -/
theorem apart_iff_unshifted {key : Type} (first second : key) (path path' : String)
    (shifted leaves : Prop) (same : path = path' ↔ first = second ∨ shifted)
    (differ : shifted → first ≠ second) (frame : path' ≠ path → leaves) :
    (first ≠ second → path ≠ path' ∧ leaves) ↔ ¬shifted := by
  constructor
  · intro apart moved
    exact (apart (differ moved)).1 (same.mpr (.inr moved))
  · intro unmoved distinct
    have different : path ≠ path' := fun equal => (same.mp equal).elim distinct unmoved
    exact ⟨different,frame different.symm⟩

variable {ι : Type}

/-- Different schemas never share a path; different claim definitions and different
registry definitions share one, and overwrite each other, exactly when a colon
inside one of them takes the place of a separator. -/
theorem objects_apart_iff_unshifted :
    (∀ first second : SchemaOperation, IsVersion first.version → IsVersion second.version →
      (first.name,first.version) ≠ (second.name,second.version) →
      schemaPath author first ≠ schemaPath author second) ∧
    (∀ first second : ClaimDefOperation,
      (first.key ≠ second.key → claimDefPath author first ≠ claimDefPath author second ∧
        ∀ (ledger : Ledger ι) (req : Request) (seqNo time : Nat), req.identifier = author →
          claimDefUpdateState ledger req first seqNo time (claimDefPath author second) =
            ledger.state (claimDefPath author second)) ↔ ¬ClaimDefShifted first second) ∧
    ∀ first second : RevocDefOperation,
      (first.key ≠ second.key → revocDefPath author first ≠ revocDefPath author second ∧
        ∀ (ledger : Ledger ι) (req : Request) (seqNo time : Nat) (state : State ι),
          req.identifier = author → revocDefUpdateState ledger req first seqNo time = .ok state →
          state (revocDefPath author second) = ledger.state (revocDefPath author second)) ↔
        ¬RevocDefShifted first second := by
  refine ⟨?_,?_,?_⟩
  · intro first second firstShaped secondShaped differ same
    obtain ⟨name,version⟩ := schemaPath_inj author first second firstShaped secondShaped same
    exact differ (by rw [name,version])
  · intro first second
    refine apart_iff_unshifted _ _ _ _ _ _ (claimDefPath_eq_iff author first second) ?_ ?_
    · intro moved same
      exact moved.ne (congrArg String.toList (Prod.mk.inj same).1)
    · rintro apart ledger req seqNo time rfl
      exact Function.update_of_ne apart ..
  · intro first second
    refine apart_iff_unshifted _ _ _ _ _ _ (revocDefPath_eq_iff author first second) ?_ ?_
    · intro moved same
      obtain ⟨credDefId,rest⟩ := Prod.mk.inj same
      rcases moved with moved | ⟨_,moved⟩
      · exact moved.ne (congrArg String.toList credDefId)
      · exact moved.ne (congrArg String.toList (Prod.mk.inj rest).1)
    · rintro apart ledger req seqNo time state rfl written
      rw [(revocDefUpdateState_eq ledger req first seqNo time state written).2]
      exact Function.update_of_ne apart ..

end Paths

def twoSchemas : Ledger Nat := ⟨ownerNyms .trustee,fun _ => none,fun _ => none,["1","101","101"]⟩

def firstClaimDef : ClaimDefOperation := ⟨2,"CL","3:tag",[("primary",.obj [("n",.str "1")])]⟩

def secondClaimDef : ClaimDefOperation := ⟨3,"CL:2","tag",[("primary",.obj [("n",.str "2")])]⟩

def oneClaimDef : Ledger Nat :=
  twoSchemas.append claimDefType (claimDefUpdateState twoSchemas signedByOwner firstClaimDef 4 10)

def firstRevocDef : RevocDefOperation :=
  ⟨"V4SGRU86Z58d6TV7PBUe6f:3:CL:2","CL:x","tag",.byDefault⟩

def secondRevocDef : RevocDefOperation :=
  ⟨"V4SGRU86Z58d6TV7PBUe6f:3:CL:2","CL","x:tag",.byDefault⟩

theorem claim_definition_overwritten : firstClaimDef.key ≠ secondClaimDef.key ∧
    (∃ after final, applyTxn plainSetup twoSchemas ⟨.claimDef signedByOwner firstClaimDef,10,by decide⟩ =
        .ok after ∧
      applyTxn plainSetup after ⟨.claimDef signedByOwner secondClaimDef,20,by decide⟩ = .ok final ∧
      final.state (claimDefPath (some ownerDid) firstClaimDef) =
        some ⟨.claimDef secondClaimDef.publicKeys,5,20⟩) ∧
    firstRevocDef.key ≠ secondRevocDef.key ∧
      revocDefStaticValidation signedByOwner firstRevocDef = .ok () ∧
      revocDefStaticValidation signedByOwner secondRevocDef = .ok () ∧
      revocDefPath (some ownerDid) firstRevocDef = revocDefPath (some ownerDid) secondRevocDef := by
  have shared : claimDefPath (some ownerDid) firstClaimDef = claimDefPath (some ownerDid) secondClaimDef := by
    decide
  have added : claimDefDynamicValidation plainSetup twoSchemas signedByOwner firstClaimDef = .ok () :=
    owner_allowed _ rfl (addClaimDef,_) (List.mem_of_getElem? (i := 26) rfl) _ rfl (by decide)
  have stored : applyTxn plainSetup twoSchemas ⟨.claimDef signedByOwner firstClaimDef,10,by decide⟩ =
      .ok oneClaimDef :=
    applyTxn_claimDef plainSetup twoSchemas signedByOwner 10 (by decide) firstClaimDef added
  have found : holdsTrue oneClaimDef.state (claimDefPath (some ownerDid) secondClaimDef) = true := by
    have leaf : oneClaimDef.state (claimDefPath (some ownerDid) firstClaimDef) =
        some ⟨.claimDef firstClaimDef.publicKeys,4,10⟩ :=
      claimDefUpdateState_self twoSchemas signedByOwner firstClaimDef 4 10
    rw [← shared,holdsTrue,leaf]
    rfl
  have edited : claimDefDynamicValidation plainSetup oneClaimDef signedByOwner secondClaimDef = .ok () := by
    have action : claimDefDynamicValidation plainSetup oneClaimDef signedByOwner secondClaimDef =
        plainSetup.validate oneClaimDef signedByOwner (objectAction claimDefType
          (holdsTrue oneClaimDef.state (claimDefPath (some ownerDid) secondClaimDef)) true) := rfl
    rw [action,found]
    exact owner_allowed _ rfl (editClaimDef,_) (List.mem_of_getElem? (i := 27) rfl) _ rfl (by decide)
  refine ⟨by decide,⟨_,_,stored,applyTxn_claimDef _ _ _ 20 _ _ edited,?_⟩,by decide,by decide,
    by decide,by decide⟩
  rw [shared]
  exact claimDefUpdateState_self oneClaimDef signedByOwner secondClaimDef 5 20

end IndyNode.Domain

import IndyNode.Domain.ActionTexts
import IndyNode.Domain.Run

/-! Where an author can write. Schemas and definitions carry their author in the
path; for attributes and registry entries the path is free and the ownership rule
keeps it in place. -/
namespace IndyNode.Domain
open Authorize Nym

/-- The path begins with two given parts. -/
def Under (first second path : String) : Prop := ∃ rest, path = first ++ ":" ++ second ++ ":" ++ rest

theorem under_inj (first second other another path : String) (clean : ':' ∉ first.toList)
    (otherClean : ':' ∉ other.toList) (secondClean : ':' ∉ second.toList)
    (anotherClean : ':' ∉ another.toList) (one : Under first second path)
    (two : Under other another path) : first = other ∧ second = another := by
  obtain ⟨rest,rfl⟩ := one
  obtain ⟨tail,same⟩ := two
  have lists := congrArg String.toList same
  simp only [String.toList_append,List.append_assoc] at lists
  have heads := Separated.joined_inj ':' (first.toList,second.toList ++ ':' :: rest.toList)
    (other.toList,another.toList ++ ':' :: tail.toList) clean otherClean lists
  obtain ⟨head,behind⟩ := Prod.mk.inj heads
  have seconds := Separated.joined_inj ':' (second.toList,rest.toList) (another.toList,tail.toList)
    secondClean anotherClean behind
  exact ⟨String.toList_inj.mp head,String.toList_inj.mp (Prod.mk.inj seconds).1⟩

theorem attrPath_under (did nameHash : String) : Under did "1" (makeStatePathForAttr did nameHash) := by
  refine ⟨nameHash,String.toList_inj.mp ?_⟩
  simp [makeStatePathForAttr]

theorem schemaPath_under (author : Option Did) (op : SchemaOperation) :
    Under (authorText author) "2" (schemaPath author op) := by
  refine ⟨op.name ++ ":" ++ op.version,String.toList_inj.mp ?_⟩
  simp [schemaPath,makeStatePathForSchema]

theorem claimDefPath_under (author : Option Did) (op : ClaimDefOperation) :
    Under (authorText author) "3" (claimDefPath author op) := by
  refine ⟨op.signatureType ++ ":" ++ toString op.ref ++ ":" ++ op.tag,String.toList_inj.mp ?_⟩
  simp [claimDefPath,makeStatePathForClaimDef]

theorem revocDefPath_under (author : Option Did) (op : RevocDefOperation) :
    Under (authorText author) "4" (revocDefPath author op) := by
  refine ⟨op.credDefId ++ ":" ++ op.revocDefType ++ ":" ++ op.tag,String.toList_inj.mp ?_⟩
  simp [revocDefPath,makeStatePathForRevocDef]

private theorem registryPaths_under (owner id : String) (separated : ':' ∈ id.toList)
    (owned : Separated.head ':' id.toList = owner.toList) :
    Under "5" owner (Revocation.revocEntryPath id) ∧ Under "6" owner (Revocation.revocAccumPath id) := by
  obtain ⟨rest,shape⟩ := Separated.head_split ':' id.toList separated
  rw [owned] at shape
  refine ⟨⟨String.ofList rest,String.toList_inj.mp ?_⟩,String.ofList rest,String.toList_inj.mp ?_⟩
  · simp [Revocation.revocEntryPath,shape]
  · simp [Revocation.revocAccumPath,shape]

/-- Whatever is stored has a separator in its path. -/
def Separable {ι : Type} (ledger : Ledger ι) : Prop :=
  ∀ path, ledger.state path ≠ none → ':' ∈ path.toList

theorem Under.separated {first second path : String} (under : Under first second path) :
    ':' ∈ path.toList := by
  obtain ⟨rest,rfl⟩ := under
  simp

section Runs
variable {ι : Type} [DecidableEq ι] [Revocation.PyStr ι] [PyHash ι] [LE ι] [DecidableLE ι]
  (setup : Setup)

omit [DecidableEq ι] [Revocation.PyStr ι] [PyHash ι] [LE ι] [DecidableLE ι] in
private theorem paths_separated (txn : DomainTxn ι) (path : String) (written : path ∈ txn.paths setup) :
    ':' ∈ path.toList := by
  cases txn with
  | nym req => simp [DomainTxn.paths] at written
  | attrib req op =>
    simp only [DomainTxn.paths] at written
    split at written
    · rw [List.mem_singleton.mp written]
      exact (attrPath_under _ _).separated
    · simp at written
  | schema req op =>
    rw [List.mem_singleton.mp written]
    exact (schemaPath_under _ _).separated
  | claimDef req op =>
    rw [List.mem_singleton.mp written]
    exact (claimDefPath_under _ _).separated
  | revocDef req op =>
    rw [List.mem_singleton.mp written]
    exact (revocDefPath_under _ _).separated
  | revocEntry req op =>
    simp only [DomainTxn.paths,List.mem_cons,List.not_mem_nil,or_false] at written
    rcases written with rfl | rfl
    · simp [Revocation.revocEntryPath]
    · simp [Revocation.revocAccumPath]

private theorem Run.separable {start final : Ledger ι} {history : List (Ordered ι)}
    (run : Run setup start history final) (initial : Separable start) : Separable final := by
  induction run with
  | start => exact initial
  | step history before after ordered earlier applied ih =>
    intro path stored
    by_cases written : path ∈ ordered.txn.paths setup
    · exact paths_separated setup ordered.txn path written
    · rw [(applyTxn_applied setup before after ordered applied).other setup path written] at stored
      exact ih path stored

end Runs

/-- The owner of a DID according to the cache. -/
def OwnedBy {ι : Type} (ledger : Ledger ι) (dest author : Did) : Prop :=
  ∃ entry, ledger.nyms.cache dest = some entry ∧ getOwnerFor dest entry = some author

/-- The first two parts of the paths of an author's schemas, definitions and
registry records. -/
def objectHeads (author : Did) : List (String × String) :=
  [(author.val,"2"),(author.val,"3"),(author.val,"4"),("5",author.val),("6",author.val)]

def ObjectOf (author : Did) (path : String) : Prop :=
  ∃ parts ∈ objectHeads author, Under parts.1 parts.2 path

/-- An author's objects and the attributes of the DIDs it owns. -/
def InNamespace {ι : Type} (ledger : Ledger ι) (author : Did) (path : String) : Prop :=
  ObjectOf author path ∨ ∃ dest, IsIdentifier dest ∧ OwnedBy ledger dest author ∧ Under dest.val "1" path

section Namespaces
variable (author : Did) (shaped : IsIdentifier author)
include shaped

theorem identifier_ne_marker (marker : String) (short : marker.length < 16) : author.val ≠ marker := by
  intro same
  have long := shaped.1
  rw [same] at long
  omega

private theorem objectHeads_clean (parts : String × String) (member : parts ∈ objectHeads author) :
    ':' ∉ parts.1.toList ∧ ':' ∉ parts.2.toList := by
  simp only [objectHeads,List.mem_cons,List.not_mem_nil,or_false] at member
  rcases member with rfl | rfl | rfl | rfl | rfl
  · exact ⟨shaped.clean,by simp⟩
  · exact ⟨shaped.clean,by simp⟩
  · exact ⟨shaped.clean,by simp⟩
  · exact ⟨by simp,shaped.clean⟩
  · exact ⟨by simp,shaped.clean⟩

private theorem objectHeads_owner (parts : String × String) (member : parts ∈ objectHeads author) :
    (if parts.1 = "5" ∨ parts.1 = "6" then parts.2 else parts.1) = author.val := by
  have five := identifier_ne_marker author shaped "5" (by decide)
  have six := identifier_ne_marker author shaped "6" (by decide)
  simp only [objectHeads,List.mem_cons,List.not_mem_nil,or_false] at member
  rcases member with rfl | rfl | rfl | rfl | rfl
  · simp [five,six]
  · simp [five,six]
  · simp [five,six]
  · simp
  · simp

private theorem objects_apart (other : Did) (otherShaped : IsIdentifier other) (path : String)
    (mine : ObjectOf author path) (theirs : ObjectOf other path) : author = other := by
  obtain ⟨parts,member,under⟩ := mine
  obtain ⟨parts',member',under'⟩ := theirs
  have clean := objectHeads_clean author shaped parts member
  have clean' := objectHeads_clean other otherShaped parts' member'
  obtain ⟨first,second⟩ := under_inj _ _ _ _ path clean.1 clean'.1 clean.2 clean'.2 under under'
  obtain rfl : parts = parts' := Prod.ext first second
  exact Subtype.ext ((objectHeads_owner author shaped parts member).symm.trans
    (objectHeads_owner other otherShaped parts member'))

private theorem object_not_attribute (dest : Did) (destShaped : IsIdentifier dest) (path : String)
    (object : ObjectOf author path) : ¬Under dest.val "1" path := by
  intro named
  obtain ⟨parts,member,under⟩ := object
  have clean := objectHeads_clean author shaped parts member
  obtain ⟨first,second⟩ := under_inj _ _ _ _ path clean.1 destShaped.clean clean.2 (by decide) under
    named
  have one := identifier_ne_marker author shaped "1" (by decide)
  simp only [objectHeads,List.mem_cons,List.not_mem_nil,or_false] at member
  rcases member with rfl | rfl | rfl | rfl | rfl
  · simp at second
  · simp at second
  · simp at second
  · exact one second
  · exact one second

end Namespaces

section Owners
variable {ι : Type} (policy : AuthPolicy) (describe : Request → String) (setup : Setup)
  (default : setup.nym.config = defaultConfig policy describe)
include default

private theorem attrib_owned (ledger : Ledger ι) (req : Request) (op : AttribOperation) (author : Did)
    (authored : req.identifier = some author)
    (allowed : attribDynamicValidation setup req op ledger = .ok ()) : OwnedBy ledger op.dest author := by
  rw [attribDynamicValidation] at allowed
  cases known : ledger.nyms.cache op.dest with
  | none => simp [known] at allowed
  | some entry =>
    simp only [known] at allowed
    obtain ⟨action,looked,valid⟩ := bind_success _ _ _ allowed
    obtain ⟨field,existing,old,value,rfl⟩ : ∃ field existing old value, action =
        attribAction field existing old value (getOwnerFor op.dest entry = req.identifier) := by
      rw [attribLookup] at looked
      split at looked
      · simp [throw_eq] at looked
      · obtain ⟨key,_,looked⟩ := bind_success _ _ _ looked
        obtain ⟨found,_,looked⟩ := bind_success _ _ _ looked
        exact ⟨_,_,_,_,(Except.ok.inj looked).symm⟩
    have owned : ∀ field : AttrType, ∀ word ∈ ["ADD","EDIT"], OwnerOnly "100" word field.name := by
      intro field
      cases field <;> decide
    rw [Setup.validate,default] at valid
    have required := (owner_required policy describe _ _ _
      (Built.attrib field existing old value _).headClean ?_ valid).1
    · have owns : (getOwnerFor op.dest entry = req.identifier) := by
        cases existing with
        | none => exact of_decide_eq_true required
        | some seqNo => exact of_decide_eq_true required
      exact ⟨entry,known,owns.trans authored⟩
    · cases existing with
      | none => exact owned field "ADD" (by simp)
      | some seqNo => exact owned field "EDIT" (by simp)

private theorem entry_owned (ledger : Ledger ι) (req : Request) (op : RevocEntryOperation ι) (existing : Bool)
    (allowed : setup.validate ledger req
      (objectAction revocRegEntryType existing (ownsRegistry req op)) = .ok ()) :
    ownsRegistry req op = true := by
  rw [Setup.validate,default] at allowed
  cases existing with
  | true =>
    exact (owner_required policy describe _ _ _ (Built.edit "114" _ (by simp)).headClean
      (by decide : OwnerOnly "114" "EDIT" "*") allowed).1
  | false =>
    exact (owner_required policy describe _ _ _ (Built.add "114" _ (by simp)).headClean
      (by decide : OwnerOnly "114" "ADD" "*") allowed).1

end Owners

section Main
variable {ι : Type} [DecidableEq ι] [Revocation.PyStr ι] [PyHash ι] [LE ι] [DecidableLE ι]
  (policy : AuthPolicy) (describe : Request → String) (setup : Setup)
  (default : setup.nym.config = defaultConfig policy describe)
include default

private theorem written_in_namespace (before after : Ledger ι) (time : Nat) (txn : DomainTxn ι)
    (separable : Separable before) (applied : Applied setup before time txn after)
    (identified : txn.Identified) (author : Did) (authored : txn.request.identifier = some author)
    (path : String) (written : path ∈ txn.paths setup) : InNamespace before author path := by
  have named : ∀ identifier, identifier = some author → authorText identifier = author.val := by
    rintro _ rfl
    rfl
  cases applied with
  | nym req nyms applied => simp [DomainTxn.paths] at written
  | attrib req op field key value shaped allowed parsed =>
    simp only [DomainTxn.paths,parsed,List.mem_singleton] at written
    rw [written]
    exact .inr ⟨op.dest,identified.dest req op rfl,
      attrib_owned policy describe setup default before req op author authored allowed,attrPath_under _ _⟩
  | schema req op allowed =>
    have under := schemaPath_under req.identifier op
    rw [named req.identifier authored,← List.mem_singleton.mp written] at under
    exact .inl ⟨(author.val,"2"),by simp [objectHeads],under⟩
  | claimDef req op allowed =>
    have under := claimDefPath_under req.identifier op
    rw [named req.identifier authored,← List.mem_singleton.mp written] at under
    exact .inl ⟨(author.val,"3"),by simp [objectHeads],under⟩
  | revocDef req op state shaped allowed updated =>
    have under := revocDefPath_under req.identifier op
    rw [named req.identifier authored,← List.mem_singleton.mp written] at under
    exact .inl ⟨(author.val,"4"),by simp [objectHeads],under⟩
  | revocEntry req op current kind value accepted =>
    have owns := entry_owned policy describe setup default before req op _ accepted.allowed
    obtain ⟨leaf,defined,_⟩ := accepted.defined
    have head : Separated.head ':' op.revocRegDefId.toList = author.val.toList := by
      have known : req.identifier = some author := authored
      have same := of_decide_eq_true owns
      rw [known] at same
      exact (Option.some.inj same).symm
    have under := registryPaths_under author.val op.revocRegDefId
      (separable op.revocRegDefId (by simp [defined])) head
    simp only [DomainTxn.paths,List.mem_cons,List.not_mem_nil,or_false] at written
    rcases written with rfl | rfl
    · exact .inl ⟨("5",author.val),by simp [objectHeads],under.1⟩
    · exact .inl ⟨("6",author.val),by simp [objectHeads],under.2⟩

/-- Accepted transactions change keys in the namespace of their author only, so no
object of another author and no attribute of a DID owned by somebody else. -/
theorem changes_stay_in_namespace (start before after : Ledger ι) (history : List (Ordered ι))
    (empty : ∀ path, start.state path = none) (run : Run setup start history before)
    (ordered : Ordered ι) (applied : applyTxn setup before ordered = .ok after)
    (identified : ordered.txn.Identified) (author : Did)
    (authored : ordered.txn.request.identifier = some author) :
    (∀ path, after.state path ≠ before.state path → InNamespace before author path) ∧
    (∀ other, IsIdentifier other → other ≠ author → ∀ path, ObjectOf other path →
      after.state path = before.state path) ∧
    ∀ dest, IsIdentifier dest → ¬OwnedBy before dest author → ∀ path, Under dest.val "1" path →
      after.state path = before.state path := by
  have separable : Separable before :=
    run.separable setup fun path stored => absurd (empty path) stored
  have effect := applyTxn_applied setup before after ordered applied
  have shaped := identified.author author authored
  have inside : ∀ path, after.state path ≠ before.state path → InNamespace before author path := by
    intro path changed
    by_cases written : path ∈ ordered.txn.paths setup
    · exact written_in_namespace policy describe setup default before after ordered.time ordered.txn
        separable effect identified author authored path written
    · exact absurd (effect.other setup path written) changed
  refine ⟨inside,?_,?_⟩
  · intro other otherShaped differ path theirs
    by_contra changed
    rcases inside path changed with mine | ⟨dest,destShaped,_,under⟩
    · exact differ (objects_apart author shaped other otherShaped path mine theirs).symm
    · exact object_not_attribute other otherShaped dest destShaped path theirs under
  · intro dest destShaped foreign path under
    by_contra changed
    rcases inside path changed with mine | ⟨owned,ownedShaped,owns,under'⟩
    · exact object_not_attribute author shaped dest destShaped path mine under
    · have same := (under_inj _ _ _ _ path destShaped.clean ownedShaped.clean (by decide) (by decide) under
        under').1
      exact foreign (Subtype.ext same ▸ owns)

end Main

def degreeSchema : SchemaOperation := ⟨"degree","1.0",["name"]⟩

def sampleClaimDef : ClaimDefOperation := ⟨2,"CL","tag",[("primary",.obj [])]⟩

def sampleRegistry (issuanceType : IssuanceType) : RevocDefOperation :=
  ⟨"V4SGRU86Z58d6TV7PBUe6f:3:CL:2:tag","CL_ACCUM","reg",issuanceType⟩

def registryId : String := "V4SGRU86Z58d6TV7PBUe6f:4:V4SGRU86Z58d6TV7PBUe6f:3:CL:2:tag:CL_ACCUM:reg"

def withSchema : Ledger Nat := (ownerLedger .trustee).append schemaType
  (schemaUpdateState (ownerLedger .trustee) signedByOwner degreeSchema 2 10)

def withClaimDef : Ledger Nat := withSchema.append claimDefType
  (claimDefUpdateState withSchema signedByOwner sampleClaimDef 3 10)

def withRegistry : Ledger Nat := withClaimDef.append revocRegDefType
  (Function.update withClaimDef.state registryId
    (some ⟨.registry (.definition ⟨"CL_ACCUM","ISSUANCE_ON_DEMAND"⟩),4,10⟩))

theorem schema_added : applyTxn plainSetup (ownerLedger .trustee)
    ⟨.schema signedByOwner degreeSchema,10,by decide⟩ = .ok withSchema :=
  applyTxn_schema plainSetup _ _ 10 _ _
    (owner_allowed _ rfl (addSchema,_) (List.mem_of_getElem? (i := 12) rfl) _ rfl (by decide))

theorem claimDef_added : applyTxn plainSetup withSchema
    ⟨.claimDef signedByOwner sampleClaimDef,10,by decide⟩ = .ok withClaimDef :=
  applyTxn_claimDef plainSetup _ _ 10 _ _
    (owner_allowed _ rfl (addClaimDef,_) (List.mem_of_getElem? (i := 26) rfl) _ rfl (by decide))

theorem registry_added : applyTxn plainSetup withClaimDef
    ⟨.revocDef signedByOwner (sampleRegistry .onDemand),10,by decide⟩ = .ok withRegistry := by
  have allowed : plainSetup.validate withClaimDef signedByOwner
      (objectAction revocRegDefType (withClaimDef.state registryId).isSome true) = .ok () :=
    owner_allowed _ rfl (addRevocRegDef,_) (List.mem_of_getElem? (i := 44) rfl) _ rfl (by decide)
  have known : (withClaimDef.state (sampleRegistry .onDemand).credDefId).isSome := by decide
  exact applyTxn_revocDef plainSetup _ _ 10 _ _ _ (by decide)
    ((revocDefDynamicValidation_iff _ _ _ _).mpr ⟨by decide,allowed,known⟩) rfl

theorem own_registry_added :
    withRegistry.state registryId ≠ withClaimDef.state registryId ∧
    (∀ path, withRegistry.state path ≠ withClaimDef.state path → InNamespace withClaimDef ownerDid path) ∧
    ∀ other, IsIdentifier other → other ≠ ownerDid → ∀ path, ObjectOf other path →
      withRegistry.state path = withClaimDef.state path := by
  have shaped : IsIdentifier ownerDid := by decide
  have run : Run plainSetup (ownerLedger .trustee) [⟨.schema signedByOwner degreeSchema,10,by decide⟩,
      ⟨.claimDef signedByOwner sampleClaimDef,10,by decide⟩] withClaimDef :=
    .step [⟨.schema signedByOwner degreeSchema,10,by decide⟩] withSchema _ _
      (.step [] _ _ _ .start schema_added) claimDef_added
  obtain ⟨inside,others,_⟩ := changes_stay_in_namespace .configLedger (fun _ => "") plainSetup rfl _ _ _ _
    (fun _ => rfl) run _ registry_added
    ⟨fun author authored => Option.some.inj authored ▸ shaped,fun _ _ wrong => by simp at wrong⟩ ownerDid rfl
  exact ⟨Option.some_ne_none _,inside,others⟩

end IndyNode.Domain

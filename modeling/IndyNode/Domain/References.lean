import IndyNode.Domain.IssuanceType

/-! What the references between definitions lead to. Both are looked up by a path
that the client gives, and only that something is stored there is checked. -/
namespace IndyNode.Domain
open Authorize Nym

section Kinds
variable {ι : Type}

/-- A claim definition that a CLAIM_DEF of the history has written. -/
def NamesClaimDef (history : List (Ordered ι)) (ledger : Ledger ι) (path : String) : Prop :=
  ∃ ordered ∈ history, ∃ req op leaf, ordered.txn = .claimDef req op ∧ path = claimDefPath req.identifier op ∧
    ledger.state path = some leaf ∧ leaf.value = .claimDef op.publicKeys

/-- A registry definition that a REVOC_REG_DEF of the history has written. -/
def NamesRevocDef (history : List (Ordered ι)) (ledger : Ledger ι) (path : String) : Prop :=
  ∃ ordered ∈ history, ∃ req op leaf, ordered.txn = .revocDef req op ∧ path = revocDefPath req.identifier op ∧
    ledger.state path = some leaf ∧
    leaf.value = .registry (.definition ⟨op.revocDefType,op.issuanceType.text⟩)

/-- Every object where a definition can stand comes from a transaction of the history. -/
def Provenance (history : List (Ordered ι)) (ledger : Ledger ι) : Prop :=
  ∀ path leaf, ledger.state path = some leaf → Definable path →
    ∃ ordered ∈ history, ordered.txn.redefines = some (path,leaf.value)

private theorem redefines_cases (txn : DomainTxn ι) (path : String) (value : Value ι)
    (redefines : txn.redefines = some (path,value)) :
    (∃ req op, txn = .claimDef req op ∧ path = claimDefPath req.identifier op ∧
      value = .claimDef op.publicKeys) ∨
    ∃ req op, txn = .revocDef req op ∧ path = revocDefPath req.identifier op ∧
      value = .registry (.definition ⟨op.revocDefType,op.issuanceType.text⟩) := by
  cases txn with
  | claimDef req op =>
    obtain ⟨rfl,rfl⟩ := Prod.mk.inj (Option.some.inj redefines)
    exact .inl ⟨req,op,rfl,rfl,rfl⟩
  | revocDef req op =>
    obtain ⟨rfl,rfl⟩ := Prod.mk.inj (Option.some.inj redefines)
    exact .inr ⟨req,op,rfl,rfl,rfl⟩
  | _ => simp [DomainTxn.redefines] at redefines

private theorem claimDefPath_marked (txn : DomainTxn ι) (identified : txn.Identified) (req : Request)
    (op : ClaimDefOperation) (same : txn = .claimDef req op) : Marked "3" (claimDefPath req.identifier op) := by
  subst same
  exact ⟨_,authorText_plain _ identified.author,claimDefPath_under _ op⟩

private theorem revocDefPath_marked (txn : DomainTxn ι) (identified : txn.Identified) (req : Request)
    (op : RevocDefOperation) (same : txn = .revocDef req op) : Marked "4" (revocDefPath req.identifier op) := by
  subst same
  exact ⟨_,authorText_plain _ identified.author,revocDefPath_under _ op⟩

section Stored
variable {history : List (Ordered ι)} {ledger : Ledger ι} (provenance : Provenance history ledger)
  (identified : ∀ ordered ∈ history, ordered.txn.Identified) (path : String) (leaf : Leaf ι)
  (stored : ledger.state path = some leaf)
include provenance identified stored

private theorem Provenance.claimDef : NamesClaimDef history ledger path ↔ Marked "3" path := by
  constructor
  · rintro ⟨ordered,member,req,op,_,shape,rfl,_⟩
    exact claimDefPath_marked ordered.txn (identified ordered member) req op shape
  · intro marked
    obtain ⟨first,plain,under⟩ := marked
    obtain ⟨ordered,member,redefines⟩ := provenance path leaf stored ⟨first,plain,"3",by simp,under⟩
    rcases redefines_cases ordered.txn path leaf.value redefines with
      ⟨req,op,shape,rfl,value⟩ | ⟨req,op,shape,rfl,value⟩
    · exact ⟨ordered,member,req,op,leaf,shape,rfl,stored,value⟩
    · have registry := revocDefPath_marked ordered.txn (identified ordered member) req op shape
      exact absurd (registry.other ⟨first,plain,under⟩ (by decide) (by decide)) (by decide)

theorem Provenance.revocDef : NamesRevocDef history ledger path ↔ Marked "4" path := by
  constructor
  · rintro ⟨ordered,member,req,op,_,shape,rfl,_⟩
    exact revocDefPath_marked ordered.txn (identified ordered member) req op shape
  · intro marked
    obtain ⟨first,plain,under⟩ := marked
    obtain ⟨ordered,member,redefines⟩ := provenance path leaf stored ⟨first,plain,"4",by simp,under⟩
    rcases redefines_cases ordered.txn path leaf.value redefines with
      ⟨req,op,shape,rfl,value⟩ | ⟨req,op,shape,rfl,value⟩
    · have claimDef := claimDefPath_marked ordered.txn (identified ordered member) req op shape
      exact absurd (claimDef.other ⟨first,plain,under⟩ (by decide) (by decide)) (by decide)
    · exact ⟨ordered,member,req,op,leaf,shape,rfl,stored,value⟩

end Stored

/-- The public keys have no member of the name the strategy is read from. -/
def WithoutValue (txn : DomainTxn ι) : Prop :=
  ∀ req op, txn = .claimDef req op → op.publicKeys.lookup "value" = none

private theorem claimDef_no_strategy (publicKeys : List (String × Json))
    (absent : publicKeys.lookup "value" = none) (kind : Revocation.Kind) :
    (Value.claimDef publicKeys : Value ι).strategy ≠ .ok kind := by
  simp [Value.strategy,Value.issuanceType,subscript,absent]

end Kinds

section Runs
variable {ι : Type} [DecidableEq ι] [Revocation.PyStr ι] [PyHash ι] [LE ι] [DecidableLE ι]
  (setup : Setup)

private theorem Provenance.step {history : List (Ordered ι)} {before after : Ledger ι}
    (provenance : Provenance history before) (ordered : Ordered ι) (identified : ordered.txn.Identified)
    (applied : Applied setup before ordered.time ordered.txn after) :
    Provenance (history ++ [ordered]) after := by
  intro path leaf stored definable
  by_cases written : path ∈ ordered.txn.paths setup
  · rcases paths_redefined setup ordered.txn identified path written with ⟨value,redefines⟩ | undefinable
    · obtain ⟨new,now,same⟩ := applied.stores setup path value redefines
      obtain rfl := Option.some.inj (stored.symm.trans now)
      exact ⟨ordered,by simp,same ▸ redefines⟩
    · exact absurd definable undefinable
  · rw [applied.other setup path written] at stored
    obtain ⟨other,member,redefines⟩ := provenance path leaf stored definable
    exact ⟨other,List.mem_append_left _ member,redefines⟩

theorem Run.provenance {start final : Ledger ι} {history : List (Ordered ι)}
    (run : Run setup start history final) (identified : ∀ ordered ∈ history, ordered.txn.Identified)
    (empty : ∀ path, start.state path = none) : Provenance history final := by
  refine run.invariant setup Provenance ?_ ?_ identified
  · intro path leaf stored
    simp [empty] at stored
  · intro history before after ordered _ provenance now applied
    exact provenance.step setup ordered now applied

/-- An accepted reference to a claim definition leads to one exactly when its path
has the marker of claim definitions, and so for registry definitions. The latter
fails only for claim definitions that carry an issuance type. -/
theorem accepted_references (start ledger next : Ledger ι) (history : List (Ordered ι)) (ordered : Ordered ι)
    (empty : ∀ path, start.state path = none)
    (identified : ∀ ordered ∈ history, ordered.txn.Identified) (run : Run setup start history ledger)
    (ok : applyTxn setup ledger ordered = .ok next) :
    (∀ req op, ordered.txn = .revocDef req op →
      (NamesClaimDef history ledger op.credDefId ↔ Marked "3" op.credDefId)) ∧
    (∀ req op, ordered.txn = .revocEntry req op →
      (NamesRevocDef history ledger op.revocRegDefId ↔ Marked "4" op.revocRegDefId)) ∧
    ((∀ earlier ∈ history, WithoutValue earlier.txn) → ∀ req op, ordered.txn = .revocEntry req op →
      NamesRevocDef history ledger op.revocRegDefId) := by
  have provenance := run.provenance setup identified empty
  have typed := run.wellTyped setup identified (.empty start empty)
  have applied := applyTxn_applied setup ledger next ordered ok
  obtain ⟨txn,time,timed⟩ := ordered
  refine ⟨?_,?_,?_⟩
  · rintro req op rfl
    cases applied with
    | revocDef _ _ state shaped allowed written =>
      have known := ((revocDefDynamicValidation_iff setup ledger req op).mp allowed).2.2
      obtain ⟨leaf,stored⟩ := Option.isSome_iff_exists.mp known
      exact provenance.claimDef identified _ leaf stored
  · rintro req op rfl
    cases applied with
    | revocEntry _ _ current kind value accepted =>
      obtain ⟨leaf,stored,_⟩ := accepted.defined
      exact provenance.revocDef identified _ leaf stored
  · rintro plain req op rfl
    cases applied with
    | revocEntry _ _ current kind value accepted =>
      obtain ⟨leaf,stored,strategy⟩ := accepted.defined
      have definable := strategy_definable _ leaf.value kind strategy (typed _ leaf stored)
      obtain ⟨other,member,redefines⟩ := provenance _ leaf stored definable
      rcases redefines_cases other.txn _ leaf.value redefines with
        ⟨author,claimDef,shape,_,same⟩ | ⟨author,revocDef,shape,path,same⟩
      · rw [same] at strategy
        exact absurd strategy (claimDef_no_strategy _ (plain other member author claimDef shape) kind)
      · exact ⟨other,member,author,revocDef,leaf,shape,path,stored,same⟩

end Runs

theorem sample_claimDef_referenced : NamesClaimDef (sampleHistory.take 2) withClaimDef
    (sampleRegistry .onDemand).credDefId := by
  have run : Run plainSetup (ownerLedger .trustee) (sampleHistory.take 2) withClaimDef :=
    .step (sampleHistory.take 1) withSchema _ _ (.step [] _ _ _ .start schema_added) claimDef_added
  have references := accepted_references plainSetup (ownerLedger .trustee) withClaimDef withRegistry
    (sampleHistory.take 2) ⟨.revocDef signedByOwner (sampleRegistry .onDemand),10,by decide⟩ (fun _ => rfl)
    (fun ordered member => sampleHistory_identified ordered (List.mem_of_mem_take member)) run registry_added
  refine (references.1 signedByOwner (sampleRegistry .onDemand) rfl).mpr ⟨ownerDid.val,?_,"CL:2:tag",rfl⟩
  exact IsIdentifier.plain (show IsIdentifier ownerDid by decide)

/-- A registry for a schema, whose path has as many parts as a credential definition. -/
def schemaRegistry : RevocDefOperation := ⟨"V4SGRU86Z58d6TV7PBUe6f:2:degree:1.0","CL_ACCUM","reg",.onDemand⟩

theorem schema_referenced : Run plainSetup (ownerLedger .trustee) (sampleHistory.take 1) withSchema ∧
    (∃ next, applyTxn plainSetup withSchema ⟨.revocDef signedByOwner schemaRegistry,10,by decide⟩ = .ok next) ∧
    ¬NamesClaimDef (sampleHistory.take 1) withSchema schemaRegistry.credDefId := by
  refine ⟨.step [] _ _ _ .start schema_added,?_,?_⟩
  · have allowed : plainSetup.validate withSchema signedByOwner (objectAction revocRegDefType
        (withSchema.state (revocDefPath signedByOwner.identifier schemaRegistry)).isSome true) = .ok () :=
      owner_allowed _ rfl (addRevocRegDef,_) (List.mem_of_getElem? (i := 44) rfl) _ rfl (by decide)
    have known : (withSchema.state schemaRegistry.credDefId).isSome := by decide
    exact ⟨_,applyTxn_revocDef plainSetup _ _ 10 _ _ _ (by decide)
      ((revocDefDynamicValidation_iff _ _ _ _).mpr ⟨by decide,allowed,known⟩) rfl⟩
  · rintro ⟨ordered,member,req,op,_,shape,_⟩
    obtain rfl := List.mem_singleton.mp member
    simp at shape

end IndyNode.Domain

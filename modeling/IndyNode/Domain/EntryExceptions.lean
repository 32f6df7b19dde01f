import IndyNode.Domain.References
import IndyNode.Nym.Exceptions

/-! Which exceptions leave the dynamic validation of a registry entry. The id of the
registry is looked up as it comes, so any object of the state may be found there. -/
namespace IndyNode.Domain
open Authorize Nym

section Values
variable {ι : Type}

/-- The object has an issuance type of the two: it is a registry definition, or a claim
definition that happens to have one. -/
def Value.Registrable : Value ι → Prop
  | .registry (.definition _) => True
  | .claimDef publicKeys => ∃ fields text, publicKeys.lookup "value" = some (.obj fields) ∧
      fields.lookup "issuanceType" = some (.str text) ∧
      (text = "ISSUANCE_BY_DEFAULT" ∨ text = "ISSUANCE_ON_DEMAND")
  | _ => False

private theorem getRevocationStrategy_some (text : String) :
    (Revocation.getRevocationStrategy text).isSome = true ↔
      text = "ISSUANCE_BY_DEFAULT" ∨ text = "ISSUANCE_ON_DEMAND" := by
  unfold Revocation.getRevocationStrategy
  split
  · simp_all
  · split <;> simp_all

private theorem subscript_ok (key : String) (json found : Json) :
    subscript key json = .ok found ↔ ∃ fields, json = .obj fields ∧ fields.lookup key = some found := by
  cases json with
  | obj fields =>
    cases stored : fields.lookup key <;> simp [subscript,stored]
  | _ => simp [subscript]

private theorem claimDef_strategy_iff (publicKeys : List (String × Json)) :
    (∃ kind, (Value.claimDef publicKeys : Value ι).strategy = .ok kind) ↔
      (Value.claimDef publicKeys : Value ι).Registrable := by
  constructor
  · rintro ⟨kind,ok⟩
    obtain ⟨issuance,found,ok⟩ := bind_success _ _ _ ok
    obtain ⟨value,outer,inner⟩ := bind_success _ _ _ found
    obtain ⟨keys,same,stored⟩ := (subscript_ok _ _ _).mp outer
    obtain rfl := Json.obj.inj same
    obtain ⟨fields,rfl,typed⟩ := (subscript_ok _ _ _).mp inner
    cases issuance with
    | str text =>
      refine ⟨fields,text,stored,typed,(getRevocationStrategy_some text).mp ?_⟩
      cases known : Revocation.getRevocationStrategy text with
      | none => simp [known,throw_eq] at ok
      | some kind => rfl
    | _ => simp [throw_eq] at ok
  · rintro ⟨fields,text,stored,typed,known⟩
    obtain ⟨kind,known⟩ := Option.isSome_iff_exists.mp ((getRevocationStrategy_some text).mpr known)
    refine ⟨kind,?_⟩
    simp [Value.strategy,Value.issuanceType,subscript,stored,typed,known,pure,Except.pure]

private theorem subscript_raises (key : String) (json : Json) :
    RaisesOnly (fun raised => !isRefusal raised) (subscript key json) := by
  cases json with
  | obj fields =>
    rw [subscript]
    cases fields.lookup key with
    | none => exact (raisesOnly_error _ _).mpr rfl
    | some found => exact raisesOnly_ok _ _
  | _ => exact (raisesOnly_error _ _).mpr rfl

private theorem issuanceType_raises (value : Value ι) :
    RaisesOnly (fun raised => !isRefusal raised) value.issuanceType := by
  cases value with
  | attrib hashed => exact (raisesOnly_error _ _).mpr rfl
  | schema names => exact (raisesOnly_error _ _).mpr rfl
  | claimDef publicKeys =>
    rw [Value.issuanceType,raisesOnly_bind]
    exact ⟨subscript_raises _ _,fun found _ => subscript_raises _ found⟩
  | registry record =>
    cases record with
    | definition revocDef => exact raisesOnly_ok _ _
    | entry entry => exact (raisesOnly_error _ _).mpr rfl
    | accum accum => exact (raisesOnly_error _ _).mpr rfl

private theorem strategy_raises (value : Value ι) :
    RaisesOnly (fun raised => !isRefusal raised) value.strategy := by
  rw [Value.strategy,raisesOnly_bind]
  refine ⟨issuanceType_raises value,fun issuance _ => ?_⟩
  cases issuance with
  | str text =>
    cases known : Revocation.getRevocationStrategy text with
    | none =>
      simp only [known]
      exact (raisesOnly_error _ _).mpr rfl
    | some kind =>
      simp only [known]
      exact raisesOnly_ok _ _
  | _ => exact (raisesOnly_error _ _).mpr rfl

end Values

section Strategies
variable {ι : Type}

private theorem refuse_raises (wrong : Prop) [Decidable wrong] (req : Revocation.Request ι) (reason : String) :
    RaisesOnly isRefusal (Revocation.refuse wrong req reason) := by
  unfold Revocation.refuse
  split
  · exact (raisesOnly_error _ _).mpr rfl
  · exact raisesOnly_ok _ _

theorem kind_validate_raises [DecidableEq ι] [Revocation.PyStr ι] (kind : Revocation.Kind)
    (current : Option (Revocation.EntryRecord ι))
    (req : Revocation.Request ι) : RaisesOnly isRefusal (kind.validate current req) := by
  unfold Revocation.Kind.validate
  rw [raisesOnly_bind]
  refine ⟨refuse_raises _ _ _,fun _ _ => ?_⟩
  cases current with
  | none => exact refuse_raises _ _ _
  | some entry =>
    simp only [Revocation.Kind.specificValidation,raisesOnly_bind]
    exact ⟨refuse_raises _ _ _,fun _ _ => ⟨refuse_raises _ _ _,fun _ _ => ⟨refuse_raises _ _ _,
      fun _ _ => ⟨refuse_raises _ _ _,fun _ _ => refuse_raises _ _ _⟩⟩⟩⟩

end Strategies

theorem objectAction_clean (txnType : String) (existing isOwner : Bool) (clean : '-' ∉ txnType.toList) :
    (objectAction txnType existing isOwner).actionDef.Clean := by
  have star : '-' ∉ "*".toList := by decide
  cases existing with
  | true => exact ⟨clean,(by decide : '-' ∉ "EDIT".toList),star,star,star⟩
  | false => exact ⟨clean,(by decide : '-' ∉ "ADD".toList),star,star,star⟩

section Reached
variable {ι : Type} [DecidableEq ι] [Revocation.PyStr ι] [PyHash ι] [LE ι] [DecidableLE ι]
  (setup : Setup) {start ledger : Ledger ι} {history : List (Ordered ι)}

omit [DecidableEq ι] [Revocation.PyStr ι] [PyHash ι] [LE ι] [DecidableLE ι] in
theorem currentEntry_typed (typed : WellTyped ledger) (id : String) :
    ∃ current, currentEntry ledger id = .ok current ∧
      current.isSome = (ledger.state (Revocation.revocEntryPath id)).isSome := by
  unfold currentEntry
  cases stored : ledger.state (Revocation.revocEntryPath id) with
  | none => exact ⟨none,rfl,rfl⟩
  | some leaf =>
    obtain ⟨value,seqNo,updateTime⟩ := leaf
    have placed := typed _ _ stored
    cases value with
    | registry record =>
      cases record with
      | entry entry => exact ⟨some entry,rfl,rfl⟩
      | definition revocDef =>
        obtain ⟨first,plain,under⟩ := placed
        exact absurd rfl (under.not_registry plain id).1
      | accum accum =>
        obtain ⟨other,same⟩ := placed
        exact absurd same (Revocation.revocEntryPath_ne_accumPath id other)
    | attrib _ | schema _ | claimDef _ =>
      obtain ⟨first,plain,under⟩ := placed
      exact absurd rfl (under.not_registry plain id).1

/-- A definition of a reached state has come with one of the two issuance types. -/
theorem Run.strategy_iff (run : Run setup start history ledger)
    (identified : ∀ ordered ∈ history, ordered.txn.Identified)
    (empty : ∀ path, start.state path = none) {path : String} {leaf : Leaf ι}
    (stored : ledger.state path = some leaf) :
    RaisesOnly isRefusal leaf.value.strategy ↔ leaf.value.Registrable := by
  rw [raisesOnly_iff_ok (strategy_raises leaf.value)]
  have placed := run.wellTyped setup identified (.empty start empty) path leaf stored
  have provenance := run.provenance setup identified empty
  cases kept : leaf.value with
  | claimDef publicKeys => exact claimDef_strategy_iff publicKeys
  | attrib _ | schema _ =>
    simp [Value.strategy,Value.issuanceType,Value.Registrable]
  | registry record =>
    cases record with
    | entry _ | accum _ =>
      simp [Value.strategy,Value.issuanceType,Revocation.issuanceType,Value.Registrable]
    | definition revocDef =>
      rw [kept] at placed
      obtain ⟨_,_,req,op,_,_,_,again,same⟩ := (provenance.revocDef identified path leaf stored).mpr placed
      obtain rfl := Option.some.inj (stored.symm.trans again)
      obtain rfl := Revocation.Record.definition.inj (Value.registry.inj (kept.symm.trans same))
      refine iff_of_true ?_ trivial
      cases op.issuanceType with
      | byDefault => exact ⟨Revocation.revokedStrategy,rfl⟩
      | onDemand => exact ⟨Revocation.issuedStrategy,rfl⟩

/-- The validation of an entry ends in a verdict exactly when the id leads to nothing, to an
object that the author may not write entries for, or to one with an issuance type. -/
theorem entry_exceptions_iff (empty : ∀ path, start.state path = none)
    (identified : ∀ ordered ∈ history, ordered.txn.Identified) (run : Run setup start history ledger)
    (rules : setup.nym.config.authMap = authMap) (req : Request) (op : RevocEntryOperation ι) :
    RaisesOnly isRefusal (entryDynamicValidation setup ledger req op) ↔
      ∀ leaf, ledger.state op.revocRegDefId = some leaf →
        setup.validate ledger req (objectAction revocRegEntryType
          (ledger.state (Revocation.revocEntryPath op.revocRegDefId)).isSome (ownsRegistry req op)) = .ok () →
        leaf.value.Registrable := by
  obtain ⟨current,entry,known⟩ := currentEntry_typed
    (run.wellTyped setup identified (.empty start empty)) op.revocRegDefId
  have verdict : RaisesOnly isRefusal (setup.validate ledger req
      (objectAction revocRegEntryType current.isSome (ownsRegistry req op))) :=
    validate_raises setup.nym _ req rules _ (objectAction_clean revocRegEntryType _ _ (by decide))
  rw [← known,entryDynamicValidation]
  cases stored : ledger.state op.revocRegDefId with
  | none =>
    rw [currentEntryAndDef_missing entry stored,error_bind,raisesOnly_error]
    exact iff_of_true rfl (by simp)
  | some leaf =>
    rw [currentEntryAndDef_stored entry stored,ok_bind,raisesOnly_bind,and_iff_right verdict]
    simp only [raisesOnly_bind,run.strategy_iff setup identified empty stored,kind_validate_raises,
      implies_true,and_true,Option.some.injEq,forall_eq']
    exact ⟨fun all => all (),fun one _ => one⟩

end Reached

theorem entry_of_registry_ends_in_verdict :
    RaisesOnly isRefusal (entryDynamicValidation plainSetup withRevocation signedByOwner
      (sampleEntry revokeOne)) := by
  refine (entry_exceptions_iff plainSetup (fun _ => rfl) sampleHistory_identified sampleHistory_run rfl
    signedByOwner (sampleEntry revokeOne)).mpr fun leaf stored _ => ?_
  have found : withRevocation.state registryId =
      some ⟨.registry (.definition ⟨"CL_ACCUM","ISSUANCE_ON_DEMAND"⟩),4,10⟩ := rfl
  obtain rfl := Option.some.inj (stored.symm.trans found)
  trivial

def schemaEntry : RevocEntryOperation Nat :=
  ⟨"V4SGRU86Z58d6TV7PBUe6f:2:degree:1.0","CL_ACCUM",issueOne,by decide⟩

/-- The id of a schema: the author may write entries for it, and the schema has no `value`. -/
theorem entry_of_schema_raises :
    Run plainSetup (ownerLedger .trustee) (sampleHistory.take 1) withSchema ∧
      entryDynamicValidation plainSetup withSchema signedByOwner schemaEntry = .error .keyError := by
  refine ⟨.step [] _ _ _ .start schema_added,?_⟩
  have allowed : plainSetup.validate withSchema signedByOwner
      (objectAction revocRegEntryType false (ownsRegistry signedByOwner schemaEntry)) = .ok () :=
    owner_allowed _ rfl (addRevocRegEntry,_) (List.mem_of_getElem? (i := 45) rfl) _ rfl (by decide)
  have found : currentEntryAndDef withSchema signedByOwner schemaEntry.revocRegDefId =
      .ok (none,.schema ["name"]) := rfl
  rw [entryDynamicValidation,found,ok_bind]
  simp only [Option.isSome_none,allowed,ok_bind]
  rfl

end IndyNode.Domain

import IndyNode.Domain.AttributeHistory
import IndyNode.Domain.EntryExceptions
import IndyNode.Revocation.LegacyTermination

/-! How the processing of a domain transaction can end, from its static validation to the
update of the state: with the transaction applied, with a refusal, or with an exception
that no handler of requests expects. -/
namespace IndyNode.Domain
open Authorize Nym

section Lookup
variable (setup : NymSetup) (cache : IdrCache) (req : Request)

private theorem validate_verdict_iff (rules : setup.config.authMap = authMap) (action : AuthAction) :
    RaisesOnly isRefusal (validate setup.config cache req [action]) ↔
      ∃ parts, splitActionId action.actionId = .ok parts := by
  cases split : splitActionId action.actionId with
  | error raised =>
    obtain rfl := splitActionId_error _ _ split
    have search : findAuthConstraintKey action.actionId authMap = .error .typeError := by
      obtain ⟨rule,rest,shape⟩ := List.exists_cons_of_ne_nil (by decide : authRules ≠ [])
      have clean := authRules_clean rule (shape ▸ List.mem_cons_self)
      rw [authMap,shape]
      simp only [keyed,List.map_cons,findAuthConstraintKey,isAcceptedActionId]
      rw [AuthAction.actionId,splitActionId_compile _ clean,ok_bind,split]
      rfl
    have failed : validate setup.config cache req [action] = .error .typeError := by
      rw [validate,getAuthConstraint,rules,search]
      rfl
    rw [failed]
    exact iff_of_false (by simp [isRefusal]) (by simp)
  | ok parts => exact iff_of_true (validate_raises_split setup cache req rules split) ⟨parts,rfl⟩

end Lookup

section Prepared
variable {ι : Type}

/-- The attribute store has what the state refers to. -/
def BackedBy (state : State ι) (attributes : String → Option String) : Prop :=
  ∀ path leaf hashed, state path = some leaf → leaf.value = .attrib hashed →
    hashed = "" ∨ (attributes hashed).isSome

private theorem BackedBy.update {state : State ι} {attributes : String → Option String}
    (backed : BackedBy state attributes) (path : String) (leaf : Leaf ι)
    (new : ∀ hashed, leaf.value = .attrib hashed → hashed = "" ∨ (attributes hashed).isSome) :
    BackedBy (Function.update state path (some leaf)) attributes := by
  intro other found hashed stored kept
  by_cases same : other = path
  · subst same
    rw [Function.update_self] at stored
    obtain rfl := Option.some.inj stored
    exact new hashed kept
  · rw [Function.update_of_ne same] at stored
    exact backed other found hashed stored kept

private theorem BackedBy.store {state : State ι} {attributes : String → Option String}
    (backed : BackedBy state attributes) (hashed text : String) :
    BackedBy state (Function.update attributes hashed (some text)) := by
  intro path leaf other stored kept
  rcases backed path leaf other stored kept with empty | there
  · exact .inl empty
  · refine .inr ?_
    by_cases same : other = hashed
    · simp [same]
    · rwa [Function.update_of_ne same]

def KeysUndashed (nyms : NymState) : Prop :=
  ∀ did record verkey, nyms.nyms did = some record → record.verkey = some verkey → '-' ∉ verkey.toList

private theorem KeysUndashed.cached {nyms : NymState} (keys : KeysUndashed nyms) (did : Did) (entry : CacheEntry)
    (verkey : String) (known : nyms.cache did = some entry) (kept : entry.verkey = some verkey) :
    '-' ∉ verkey.toList := by
  rw [nyms.agrees did,Option.map_eq_some_iff] at known
  obtain ⟨record,stored,rfl⟩ := known
  refine keys did record verkey stored ?_
  simp only [NymRecord.cacheEntry,storedVerkey] at kept
  split at kept
  · cases kept
  · exact kept

/-- What the message schemas say of a transaction: a raw attribute is an object with one
key, and the texts of a registry definition are not empty. -/
def DomainTxn.Schematic (setup : Setup) : DomainTxn ι → Prop
  | .nym req => SchemaAccepted setup.nym.loads req
  | .attrib _ op => ∀ raw, op.raw = some raw → ∃ key value, setup.nym.loads raw = .ok (.obj [(key,value)])
  | .revocDef _ op => ¬(op.credDefId = "" ∨ op.tag = "" ∨ op.revocDefType = "")
  | _ => True

/-- What every reached ledger has. -/
structure Prepared (ledger : Ledger ι) : Prop where
  typed : WellTyped ledger
  backed : BackedBy ledger.state ledger.attributes
  keys : KeysUndashed ledger.nyms

end Prepared

section Runs
variable {ι : Type} [DecidableEq ι] [Revocation.PyStr ι] [PyHash ι] [LE ι] [DecidableLE ι] (setup : Setup)

omit [DecidableEq ι] [Revocation.PyStr ι] [PyHash ι] [LE ι] [DecidableLE ι] in
private theorem staticValidation_verkey (req : ClientRequest) (op : NymOperation)
    (static : staticValidation setup.nym.loads req = .ok op) : op.verkey = req.operation.verkey := by
  obtain ⟨_,_,static⟩ := bind_success _ _ _ static
  obtain ⟨_,_,static⟩ := bind_success _ _ _ static
  obtain ⟨_,_,static⟩ := bind_success _ _ _ static
  obtain ⟨_,_,static⟩ := bind_success _ _ _ static
  obtain rfl := Except.ok.inj static
  rfl

omit [DecidableEq ι] [Revocation.PyStr ι] [PyHash ι] [LE ι] [DecidableLE ι] in
private theorem applyNym_keys {state next : NymState} {req : ClientRequest} {seqNo time : Nat}
    (applied : applyNym setup.nym state ⟨req,seqNo,some time⟩ = .ok next)
    (schema : SchemaAccepted setup.nym.loads req) (keys : KeysUndashed state) : KeysUndashed next := by
  obtain ⟨op,static,applied⟩ := bind_success _ _ _ applied
  obtain ⟨_,_,applied⟩ := bind_success _ _ _ applied
  obtain rfl := Except.ok.inj applied
  have given := staticValidation_verkey setup req op static
  intro did record verkey stored kept
  by_cases same : did = op.dest
  · subst same
    rw [update_dest] at stored
    obtain rfl := Option.some.inj stored
    cases old : state.nyms op.dest with
    | none =>
      simp only [updatedRecord,old] at kept
      exact schema.undashed verkey (given ▸ kept)
    | some before =>
      simp only [updatedRecord,old] at kept
      cases mentioned : op.verkey with
      | none =>
        rw [mentioned,Option.getD_none] at kept
        exact keys op.dest before verkey old kept
      | some value =>
        rw [mentioned,Option.getD_some] at kept
        refine schema.undashed verkey ?_
        rw [← given,Field.get,mentioned,kept]
        rfl
  · rw [update_other _ _ _ _ _ did same] at stored
    exact keys did record verkey stored kept

private theorem Applied.prepared {ledger next : Ledger ι} {time : Nat} {txn : DomainTxn ι}
    (applied : Applied setup ledger time txn next) (identified : txn.Identified)
    (schematic : txn.Schematic setup) (prepared : Prepared ledger) : Prepared next := by
  have typed := applied.wellTyped setup identified prepared.typed
  have backed := prepared.backed
  cases applied with
  | nym req nyms applied => exact ⟨typed,backed,applyNym_keys setup applied schematic prepared.keys⟩
  | attrib req op field key value shaped allowed parsed =>
    refine ⟨typed,?_,prepared.keys⟩
    have valued := parseAttrTxn_valued setup op field key value parsed (nextSeqNo ledger) time
    by_cases hash : field = .hash
    · subst hash
      simp only [if_true]
      refine backed.update _ _ fun hashed same => .inl ?_
      rw [← Value.attrib.inj same,show value = none from valued]
      rfl
    · obtain ⟨text,rfl⟩ := valued.text hash
      simp only [if_neg hash]
      refine (backed.store _ _).update _ _ fun hashed same => .inr ?_
      rw [Value.attrib.inj same,Function.update_self]
      rfl
  | schema req op allowed => exact ⟨typed,backed.update _ _ (by simp),prepared.keys⟩
  | claimDef req op allowed => exact ⟨typed,backed.update _ _ (by simp),prepared.keys⟩
  | revocDef req op state shaped allowed written =>
    obtain ⟨_,rfl⟩ := revocDefUpdateState_eq ledger req op _ _ state written
    exact ⟨typed,backed.update _ _ (by simp),prepared.keys⟩
  | revocEntry req op current kind value accepted =>
    exact ⟨typed,(backed.update _ _ (by simp)).update _ _ (by simp),prepared.keys⟩

private theorem Run.prepared {start final : Ledger ι} {history : List (Ordered ι)} (run : Run setup start history final)
    (empty : ∀ path, start.state path = none) (keys : KeysUndashed start.nyms)
    (schematic : ∀ ordered ∈ history, ordered.txn.Identified ∧ ordered.txn.Schematic setup) : Prepared final := by
  induction run with
  | start => exact ⟨.empty start empty,by simp [BackedBy,empty],keys⟩
  | step history before after ordered earlier applied ih =>
    obtain ⟨identified,schema⟩ := schematic ordered (by simp)
    exact (applyTxn_applied setup before after ordered applied).prepared setup identified schema
      (ih fun other member => schematic other (List.mem_append_left _ member))

end Runs

section Handlers
variable {ι : Type} (setup : Setup) (ledger : Ledger ι) (req : Request)

private theorem attribStaticValidation_raises (op : AttribOperation)
    (schematic : (.attrib req op : DomainTxn ι).Schematic setup) :
    RaisesOnly isRefusal (attribStaticValidation setup req op) := by
  rw [attribStaticValidation,raisesOnly_bind]
  refine ⟨raiseIf_raises req _ _,fun _ _ => ?_⟩
  cases given : op.raw with
  | none => exact raisesOnly_ok _ _
  | some raw =>
    obtain ⟨key,value,parsed⟩ := schematic raw given
    simp only [parsed,jsonLength,ok_bind]
    exact raiseIf_raises req _ _

private theorem attribStaticValidation_single (op : AttribOperation)
    (shaped : attribStaticValidation setup req op = .ok ()) : ∃ field value, op.existing = [(field,value)] := by
  obtain ⟨_,single,_⟩ := bind_success _ _ _ shaped
  have length : op.existing.length = 1 := by
    by_contra other
    simp [raiseIf,other] at single
  obtain ⟨⟨field,value⟩,shape⟩ := List.length_eq_one_iff.mp length
  exact ⟨field,value,shape⟩

variable {ledger} in
private theorem Prepared.getAttr (prepared : Prepared ledger) (did : Did) (shaped : IsIdentifier did) (key : String)
    (field : AttrType) : ∃ found, Domain.getAttr setup ledger did key field = .ok found := by
  rw [Domain.getAttr]
  cases stored : ledger.state (makeStatePathForAttr did.val (attrNameHash setup field key)) with
  | none => exact ⟨_,rfl⟩
  | some leaf =>
    have marked : Marked "1" (makeStatePathForAttr did.val (attrNameHash setup field key)) :=
      ⟨did.val,shaped.plain,attrPath_under _ _⟩
    have placed := prepared.typed _ _ stored
    have backed (hashed : String) := prepared.backed _ _ hashed stored
    obtain ⟨value,seqNo,updateTime⟩ := leaf
    cases value with
    | attrib hashed =>
      dsimp only
      split
      · exact ⟨_,rfl⟩
      · rename_i full
        obtain ⟨text,kept⟩ := Option.isSome_iff_exists.mp ((backed hashed rfl).resolve_left full)
        rw [kept]
        exact ⟨_,rfl⟩
    | schema names => exact absurd (marked.other placed (by decide) (by decide)) (by decide)
    | claimDef publicKeys => exact absurd (marked.other placed (by decide) (by decide)) (by decide)
    | registry record =>
      obtain ⟨first,plain,under⟩ := marked
      cases record with
      | definition revocDef =>
        exact absurd (Marked.other ⟨first,plain,under⟩ placed (by decide) (by decide)) (by decide)
      | entry entry =>
        obtain ⟨id,same⟩ := placed
        exact absurd same.symm (under.not_registry plain id).1
      | accum accum =>
        obtain ⟨id,same⟩ := placed
        exact absurd same.symm (under.not_registry plain id).2

private theorem schematic_attrib_named (op : AttribOperation)
    (schematic : (.attrib req op : DomainTxn ι).Schematic setup)
    {field : AttrType} {value : String} (shape : op.existing = [(field,value)]) :
    (∃ key, attribKey setup field value = .ok key) ∧ ∃ parsed, parseAttrTxn setup op = .ok parsed := by
  have given : op.get field = some value := by
    have member : (field,value) ∈ op.existing := by simp [shape]
    simp only [AttribOperation.existing,List.mem_filterMap,Option.map_eq_some_iff,Prod.mk.injEq] at member
    obtain ⟨key,_,text,found,rfl,rfl⟩ := member
    exact found
  rw [parseAttrTxn,shape]
  cases field with
  | raw =>
    obtain ⟨key,data,parsed⟩ := schematic value given
    simp only [attribKey,parsed,ok_bind]
    exact ⟨⟨key,rfl⟩,⟨_,rfl⟩⟩
  | enc => exact ⟨⟨value,rfl⟩,⟨_,rfl⟩⟩
  | hash => exact ⟨⟨value,rfl⟩,⟨_,rfl⟩⟩

private theorem object_verdict (rules : setup.nym.config.authMap = authMap) (txnType : String) (existing isOwner : Bool)
    (clean : '-' ∉ txnType.toList) :
    RaisesOnly isRefusal (setup.validate ledger req (objectAction txnType existing isOwner)) :=
  validate_raises setup.nym _ req rules _ (objectAction_clean txnType existing isOwner clean)

private theorem claimDefDynamicValidation_raises (rules : setup.nym.config.authMap = authMap) (op : ClaimDefOperation) :
    RaisesOnly isRefusal (claimDefDynamicValidation setup ledger req op) := by
  rw [claimDefDynamicValidation]
  cases txnTypeAt ledger op.ref with
  | none => exact (raisesOnly_error _ _).mpr rfl
  | some found =>
    dsimp only
    split
    · exact (raisesOnly_error _ _).mpr rfl
    · exact object_verdict setup ledger req rules claimDefType _ true (by decide)

private theorem revocDefDynamicValidation_raises (rules : setup.nym.config.authMap = authMap) (op : RevocDefOperation)
    (schematic : (.revocDef req op : DomainTxn ι).Schematic setup) :
    RaisesOnly isRefusal (revocDefDynamicValidation setup ledger req op) := by
  rw [revocDefDynamicValidation,if_neg schematic]
  simp only [raisesOnly_then]
  refine ⟨object_verdict setup ledger req rules revocRegDefType _ true (by decide),fun _ => ?_⟩
  exact raiseIf_raises req _ _

variable [DecidableEq ι] [Revocation.PyStr ι] [PyHash ι] [LE ι] [DecidableLE ι]

private theorem attrib_verdict_iff (rules : setup.nym.config.authMap = authMap) (prepared : Prepared ledger)
    (op : AttribOperation) (shaped : IsIdentifier op.dest)
    (schematic : (.attrib req op : DomainTxn ι).Schematic setup) (time : Nat) (timed : 0 < time) :
    RaisesOnly isRefusal (applyTxn setup ledger ⟨.attrib req op,time,timed⟩) ↔
      ∀ entry action, attribStaticValidation setup req op = .ok () → ledger.nyms.cache op.dest = some entry →
        attribLookup setup req op ledger entry = .ok action →
          ∃ parts, splitActionId action.actionId = .ok parts := by
  have named (static : attribStaticValidation setup req op = .ok ()) (entry : CacheEntry) :
      ∃ action, attribLookup setup req op ledger entry = .ok action := by
    obtain ⟨field,value,shape⟩ := attribStaticValidation_single setup req op static
    obtain ⟨⟨key,named⟩,_⟩ := schematic_attrib_named setup req op schematic shape
    obtain ⟨found,looked⟩ := prepared.getAttr setup op.dest shaped key field
    simp only [attribLookup,shape,named,looked,ok_bind]
    exact ⟨_,rfl⟩
  have updates (static : attribStaticValidation setup req op = .ok ()) :
      ∃ written, attribUpdateState setup op ledger (nextSeqNo ledger) time = .ok written := by
    obtain ⟨field,value,shape⟩ := attribStaticValidation_single setup req op static
    obtain ⟨_,parsed,parses⟩ := schematic_attrib_named setup req op schematic shape
    rw [attribUpdateState,parses]
    exact ⟨_,rfl⟩
  simp only [applyTxn,raisesOnly_then,attribStaticValidation_raises setup req op schematic,true_and]
  constructor
  · intro stages entry action static known looked
    have verdict := (stages static).1
    simp only [attribDynamicValidation,known,looked,ok_bind] at verdict
    exact (validate_verdict_iff setup.nym ledger.nyms.cache req rules action).mp verdict
  · intro splits static
    obtain ⟨written,updated⟩ := updates static
    refine ⟨?_,fun _ => by rw [updated]; exact raisesOnly_ok _ _⟩
    rw [attribDynamicValidation]
    cases known : ledger.nyms.cache op.dest with
    | none => exact (raisesOnly_error _ _).mpr rfl
    | some entry =>
      obtain ⟨action,looked⟩ := named static entry
      simp only [looked,ok_bind]
      exact (validate_verdict_iff setup.nym ledger.nyms.cache req rules action).mpr
        (splits entry action static known looked)

private theorem revocDef_verdict_iff (rules : setup.nym.config.authMap = authMap) (op : RevocDefOperation)
    (schematic : (.revocDef req op : DomainTxn ι).Schematic setup) (time : Nat) (timed : 0 < time) :
    RaisesOnly isRefusal (applyTxn setup ledger ⟨.revocDef req op,time,timed⟩) ↔
      (revocDefStaticValidation req op = .ok () → revocDefDynamicValidation setup ledger req op = .ok () →
        req.identifier ≠ none) := by
  have static : RaisesOnly isRefusal (revocDefStaticValidation req op) := raiseIf_raises req _ _
  simp only [applyTxn,raisesOnly_then,static,revocDefDynamicValidation_raises setup ledger req rules op schematic,
    true_and]
  refine forall₂_congr fun _ _ => ?_
  rw [revocDefUpdateState]
  cases req.identifier with
  | none => simp [isRefusal]
  | some author => exact iff_of_true (raisesOnly_ok _ _) (by simp)

omit [Revocation.PyStr ι] in
private theorem writtenValue_verdict_iff (kind : Revocation.Kind) (sortLegacy : Bool)
    (current : Option (Revocation.EntryRecord ι)) (value : Revocation.EntryValue ι) :
    RaisesOnly isRefusal (kind.writtenValue sortLegacy current value) ↔
      (sortLegacy = true → kind.settled current value = true) := by
  cases sortLegacy with
  | false =>
    refine iff_of_true ?_ (by simp)
    cases current <;> exact raisesOnly_ok _ _
  | true =>
    rw [forall_prop_of_true rfl,← Revocation.writtenValue_iff]
    refine raisesOnly_iff_ok ?_
    cases current with
    | none => exact raisesOnly_ok _ _
    | some entry =>
      simp only [Revocation.Kind.writtenValue,raisesOnly_bind]
      refine ⟨?_,fun _ _ => raisesOnly_ok _ _⟩
      intro raised failed
      have guarded := Revocation.legacyIndices_guarded (entry.value.change.listed kind.kept)
        (value.change.listed kind.kept.opposite) (value.change.listed kind.kept)
      have failed : Revocation.legacyIndices (entry.value.change.listed kind.kept)
        (value.change.listed kind.kept.opposite) (value.change.listed kind.kept) = .error raised := failed
      cases passes : Revocation.settledWrite (entry.value.change.listed kind.kept)
        (value.change.listed kind.kept.opposite) (value.change.listed kind.kept) with
      | true =>
        obtain ⟨indices,ends,_⟩ := guarded.returns passes
        rw [ends] at failed
        cases failed
      | false =>
        rw [guarded.sticks passes] at failed
        obtain rfl := Except.error.inj failed
        rfl

/-- What an entry needs to be handled to its end: an object with an issuance type, a
named author, and a write that ends. -/
structure EntryHandled (op : RevocEntryOperation ι) (time : Nat) : Prop where
  registrable : ∀ found, currentEntryAndDef ledger req op.revocRegDefId = .ok found →
    setup.validate ledger req (objectAction revocRegEntryType found.1.isSome (ownsRegistry req op)) = .ok () →
      found.2.Registrable
  written : ∀ found kind, currentEntryAndDef ledger req op.revocRegDefId = .ok found →
    entryDynamicValidation setup ledger req op = .ok () → found.2.strategy = .ok kind →
      (setup.sortLegacy time = true → kind.settled found.1 op.value = true) ∧ req.identifier ≠ none

omit [Revocation.PyStr ι] in
private theorem entryUpdateState_verdict_iff (op : RevocEntryOperation ι) (time : Nat)
    (found : Option (Revocation.EntryRecord ι) × Value ι) (kind : Revocation.Kind)
    (looked : currentEntryAndDef ledger req op.revocRegDefId = .ok found) (strategy : found.2.strategy = .ok kind) :
    RaisesOnly isRefusal (entryUpdateState setup ledger req op (nextSeqNo ledger) time) ↔
      (setup.sortLegacy time = true → kind.settled found.1 op.value = true) ∧ req.identifier ≠ none := by
  simp only [entryUpdateState,looked,strategy,ok_bind]
  rw [raisesOnly_bind,writtenValue_verdict_iff]
  refine and_congr_right fun ends => ?_
  have returns : ∃ value, kind.writtenValue (setup.sortLegacy time) found.1 op.value = .ok value := by
    cases sorting : setup.sortLegacy time with
    | true => exact (Revocation.writtenValue_iff kind found.1 op.value).mpr (ends sorting)
    | false => cases found.1 <;> exact ⟨_,rfl⟩
  obtain ⟨value,written⟩ := returns
  simp only [written,Except.ok.injEq,forall_eq']
  by_cases absent : req.identifier = none
  · simp [absent,throw_eq,isRefusal]
  · rw [if_neg absent]
    exact iff_of_true (raisesOnly_ok _ _) absent

private theorem entry_verdict_iff (rules : setup.nym.config.authMap = authMap) (prepared : Prepared ledger)
    (strategies : ∀ path leaf, ledger.state path = some leaf →
      (RaisesOnly isRefusal leaf.value.strategy ↔ leaf.value.Registrable))
    (op : RevocEntryOperation ι) (time : Nat) (timed : 0 < time) :
    RaisesOnly isRefusal (applyTxn setup ledger ⟨.revocEntry req op,time,timed⟩) ↔
      EntryHandled setup ledger req op time := by
  simp only [applyTxn,raisesOnly_then]
  obtain ⟨current,entry,_⟩ := currentEntry_typed prepared.typed op.revocRegDefId
  cases stored : ledger.state op.revocRegDefId with
  | none =>
    have missing := currentEntryAndDef_missing entry stored req
    have refused : entryDynamicValidation setup ledger req op = .error (invalid req
        ("There is no any REVOC_REG_DEF by path: " ++ op.revocRegDefId)) := by
      rw [entryDynamicValidation,missing,error_bind]
    rw [refused]
    exact iff_of_true ⟨(raisesOnly_error _ _).mpr rfl,by simp⟩ ⟨by simp [missing],by simp [missing]⟩
  | some leaf =>
    have looked := currentEntryAndDef_stored entry stored req
    have dynamic : RaisesOnly isRefusal (entryDynamicValidation setup ledger req op) ↔
        (setup.validate ledger req (objectAction revocRegEntryType current.isSome (ownsRegistry req op)) = .ok () →
          leaf.value.Registrable) := by
      rw [entryDynamicValidation,looked,ok_bind,raisesOnly_then,
        and_iff_right (object_verdict setup ledger req rules revocRegEntryType _ _ (by decide))]
      simp only [raisesOnly_bind,kind_validate_raises,implies_true,and_true,strategies _ leaf stored]
    rw [dynamic]
    constructor
    · rintro ⟨registrable,updates⟩
      refine ⟨?_,?_⟩
      · rintro found again
        obtain rfl := Except.ok.inj (looked.symm.trans again)
        exact registrable
      · rintro found kind again valid strategy
        have update := updates valid
        rw [raisesOnly_bind] at update
        exact (entryUpdateState_verdict_iff setup ledger req op time found kind again strategy).mp update.1
    · rintro ⟨registrable,written⟩
      refine ⟨registrable (current,leaf.value) looked,fun valid => ?_⟩
      obtain ⟨found,again,rest⟩ := bind_success _ _ _ valid
      obtain ⟨_,_,rest⟩ := bind_success _ _ _ rest
      obtain ⟨kind,strategy,_⟩ := bind_success _ _ _ rest
      rw [raisesOnly_bind]
      refine ⟨?_,fun _ _ => raisesOnly_ok _ _⟩
      exact (entryUpdateState_verdict_iff setup ledger req op time found kind again strategy).mpr
        (written found kind again valid strategy)

private theorem nym_verdict_iff (rules : setup.nym.config.authMap = authMap)
    (base58 : ∀ verkey raised, setup.nym.codec.b58decode verkey = .error raised → isRefusal raised = false)
    (prepared : Prepared ledger) (req : ClientRequest) (schema : SchemaAccepted setup.nym.loads req)
    (time : Nat) (timed : 0 < time) :
    RaisesOnly isRefusal (applyTxn setup ledger ⟨.nym req,time,timed⟩) ↔
      (∀ dest role, validDest req = .ok dest → checkRole req = .ok role →
        ShapelyDocument setup.nym.loads req) ∧
      ∀ op, staticValidation setup.nym.loads req = .ok op →
        Decodable setup.nym ledger.nyms.cache req.toRequest op := by
  simp only [applyTxn]
  rw [raisesOnly_bind]
  simp only [raisesOnly_ok,pure,Except.pure,implies_true,and_true]
  rw [applyNym,raisesOnly_bind,staticValidation_raises setup.nym.loads req schema]
  refine and_congr_right fun _ => forall₂_congr fun op static => ?_
  rw [raisesOnly_then]
  simp only [raisesOnly_ok,pure,Except.pure,implies_true,and_true]
  refine dynamicValidation_raises setup.nym ledger.nyms.cache req.toRequest op rules base58
    prepared.keys.cached ?_
  rw [staticValidation_verkey setup req op static]
  exact schema.undashed

/-- When a transaction is applied or refused. A NYM needs a document that can be scanned and
a key that decodes; an attribute must not disturb the identifier of its action; a registry
definition and an entry need a named author, an entry an object with an issuance type and,
with legacy sorting, searches that end. -/
def DomainTxn.Handled (time : Nat) : DomainTxn ι → Prop
  | .nym req => (∀ dest role, validDest req = .ok dest → checkRole req = .ok role →
        ShapelyDocument setup.nym.loads req) ∧
      ∀ op, staticValidation setup.nym.loads req = .ok op →
        Decodable setup.nym ledger.nyms.cache req.toRequest op
  | .attrib req op => ∀ entry action, attribStaticValidation setup req op = .ok () →
      ledger.nyms.cache op.dest = some entry → attribLookup setup req op ledger entry = .ok action →
        ∃ parts, splitActionId action.actionId = .ok parts
  | .schema _ _ => True
  | .claimDef _ _ => True
  | .revocDef req op => revocDefStaticValidation req op = .ok () →
      revocDefDynamicValidation setup ledger req op = .ok () → req.identifier ≠ none
  | .revocEntry req op => EntryHandled setup ledger req op time

/-- On every ledger that is reached, what a transaction of the domain ledger can end in. -/
theorem transaction_verdict_iff {start ledger : Ledger ι} {history : List (Ordered ι)}
    (rules : setup.nym.config.authMap = authMap)
    (base58 : ∀ verkey raised, setup.nym.codec.b58decode verkey = .error raised → isRefusal raised = false)
    (empty : ∀ path, start.state path = none) (keys : KeysUndashed start.nyms)
    (schematic : ∀ ordered ∈ history, ordered.txn.Identified ∧ ordered.txn.Schematic setup)
    (run : Run setup start history ledger) (ordered : Ordered ι) (identified : ordered.txn.Identified)
    (schema : ordered.txn.Schematic setup) :
    RaisesOnly isRefusal (applyTxn setup ledger ordered) ↔ ordered.txn.Handled setup ledger ordered.time := by
  have prepared := run.prepared setup empty keys schematic
  obtain ⟨txn,time,timed⟩ := ordered
  cases txn with
  | nym req => exact nym_verdict_iff setup ledger rules base58 prepared req schema time timed
  | attrib req op =>
    exact attrib_verdict_iff setup ledger req rules prepared op (identified.dest req op rfl) schema time timed
  | schema req op =>
    refine iff_of_true ?_ trivial
    simp only [applyTxn,raisesOnly_then]
    exact ⟨object_verdict setup ledger req rules schemaType _ true (by decide),fun _ => raisesOnly_ok _ _⟩
  | claimDef req op =>
    refine iff_of_true ?_ trivial
    simp only [applyTxn,raisesOnly_then]
    exact ⟨claimDefDynamicValidation_raises setup ledger req rules op,fun _ => raisesOnly_ok _ _⟩
  | revocDef req op => exact revocDef_verdict_iff setup ledger req rules op schema time timed
  | revocEntry req op =>
    refine entry_verdict_iff setup ledger req rules prepared ?_ op time timed
    intro path leaf stored
    exact run.strategy_iff setup (fun other member => (schematic other member).1) empty stored

end Handlers

section Samples

private theorem sampleHistory_schematic :
    ∀ ordered ∈ sampleHistory, ordered.txn.Identified ∧ ordered.txn.Schematic plainSetup := by
  intro ordered member
  refine ⟨sampleHistory_identified ordered member,?_⟩
  simp only [sampleHistory,List.mem_cons,List.not_mem_nil,or_false] at member
  rcases member with rfl | rfl | rfl | rfl | rfl
  · trivial
  · trivial
  · exact (by decide : ¬("V4SGRU86Z58d6TV7PBUe6f:3:CL:2:tag" = "" ∨ "reg" = "" ∨ "CL_ACCUM" = ""))
  · trivial
  · trivial

private theorem ownerNyms_undashed : KeysUndashed (ownerNyms .trustee) := by
  intro did record verkey stored kept
  by_cases same : did = ownerDid
  · simp only [ownerNyms,same,if_true,Option.some.injEq] at stored
    subst stored
    obtain rfl := Option.some.inj kept
    decide
  · simp [ownerNyms,same] at stored

def dashedAttribute : AttribOperation := ⟨ownerDid,none,some "a--b",none⟩

/-- The identifier of the action has six parts. -/
theorem dashed_attribute_raises :
    ¬RaisesOnly isRefusal (applyTxn plainSetup withRevocation ⟨.attrib signedByOwner dashedAttribute,40,by decide⟩) := by
  have shaped : IsIdentifier ownerDid := by decide
  rw [transaction_verdict_iff plainSetup rfl ?_ (fun _ => rfl) ownerNyms_undashed sampleHistory_schematic
    sampleHistory_run ⟨.attrib signedByOwner dashedAttribute,40,by decide⟩
    ⟨fun author authored => Option.some.inj authored ▸ shaped,?_⟩ ?_]
  · intro handled
    obtain ⟨parts,split⟩ := handled _ _ rfl rfl rfl
    have failed : splitActionId (attribAction .enc none none "a--b" true).actionId = .error .typeError := by decide
    exact absurd (split.symm.trans failed) (by simp)
  · intro verkey raised failed
    rw [← Except.error.inj failed]
    rfl
  · intro req op same
    obtain ⟨rfl,rfl⟩ := DomainTxn.attrib.inj same
    exact shaped
  · intro raw given
    cases given

end Samples
end IndyNode.Domain

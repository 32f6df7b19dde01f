import IndyNode.Domain.Registry
import IndyNode.Foundation.ReferenceStore
import IndyNode.RichSchema.SharedState

/-! References between rich schema objects over whole runs of the domain ledger. They are
checked when they are written; what they lead to may be written over later. -/
namespace IndyNode.RichSchema
open Authorize

section Kept
variable {ι : Type} (setup : SharedSetup ι)

/-- The type of an object, if it is one. -/
def Stored.type? : Stored ι → Option String
  | .object written => some written.rsType
  | _ => none

/-- The references of an object, as the keys they stand for. -/
def referencesOf (object : RichSchemaObject) : List (String × Option String) :=
  (referencesIn object.rsType ((setup.loads object.content).getD (.scalar .null))).map fun expected =>
    (expected.1,expected.2.bind fun reference => (stateKey setup reference).toOption)

def Stored.references : Stored ι → List (String × Option String)
  | .object written => referencesOf setup written
  | _ => []

/-- Every stored object refers to stored objects, of the types that are asked for. -/
def ReferencesKept (state : String → Option (Stored ι)) : Prop :=
  Closed Stored.type? (Stored.references setup) state

/-- An object refers to the key. -/
def Refers (object : RichSchemaObject) (key : String) : Prop :=
  ∃ rsType, (rsType,some key) ∈ referencesOf setup object

/-- A new object refers to keys of objects only, unless it is lost under its own secondary
key. Other transactions, except those for schemas, write under no key that an object which
stays refers to. -/
def Careful (state : String → Option (Stored ι)) : SharedTxn ι → Prop
  | .rich txn => txn.op.id ≠ txn.secondaryKey → ∀ key, Refers setup txn.object key →
      ∃ target, state key = some (.object target)
  | .classic ordered =>
    match ordered.txn with
    | .schema _ _ => True
    | txn => ∀ key ∈ txn.paths setup.domain, ∀ holder, holder ∉ txn.paths setup.domain → ∀ object,
        state holder = some (.object object) → ¬Refers setup object key

private theorem no_one_validates (policy : AuthPolicy) (describe : Request → String) (cache : IdrCache) (req : Request)
    (action : AuthAction) (listed : (action,noOneConstraint) ∈ authRules) :
    validate (defaultConfig policy describe) cache req [action] ≠ .ok () := by
  intro valid
  have holds := (validate_rule_iff policy describe cache req _ listed action rfl).mp valid
  rw [noOneConstraint,AndOrTree.eval_never] at holds
  cases holds

private theorem validateAuthRule_new (policy : AuthPolicy) (describe : Request → String) (cache : IdrCache)
    (req : Request)
    (state : String → Option (Stored ι)) (kind : RichKind) (rsObject : Bool)
    (allowed : validateAuthRule (handlerOf setup state kind) (defaultConfig policy describe) cache req rsObject =
      .ok ()) : rsObject = false := by
  cases rsObject with
  | false => rfl
  | true =>
    -- Nobody may edit an object, whatever its type.
    have forbidden := no_one_validates policy describe cache req
    cases kind with
    | context => exact (forbidden editJsonLdContext (List.mem_of_getElem? (i := 15) rfl) allowed).elim
    | schema => exact (forbidden editRichSchema (List.mem_of_getElem? (i := 17) rfl) allowed).elim
    | encoding => exact (forbidden editRichSchemaEncoding (List.mem_of_getElem? (i := 19) rfl) allowed).elim
    | mapping => exact (forbidden editRichSchemaMapping (List.mem_of_getElem? (i := 21) rfl) allowed).elim
    | credDef => exact (forbidden editRichSchemaCredDef (List.mem_of_getElem? (i := 23) rfl) allowed).elim
    | presDef => exact (forbidden editRichSchemaPresDef (List.mem_of_getElem? (i := 25) rfl) allowed).elim

/-- What an accepted object has passed under the default rules. -/
structure RichAccepted (ledger : SharedLedger ι) (txn : RichTxn) : Prop where
  fresh : ∃ found, lookupShared setup ledger.state (textOf txn.op.id) = .ok found ∧ found.truth = false
  unique : ledger.state txn.secondaryKey = none
  content : dynamicValidationContent (contentsOf setup ledger.state).toMappingSetup txn.request txn.kind txn.op =
    .ok ()

private theorem applyRich_accepted {policy : AuthPolicy} {describe : Request → String}
    (shipped : setup.domain.nym.config = defaultConfig policy describe) {ledger after : SharedLedger ι}
    {txn : RichTxn} (applied : applyRich setup ledger txn = .ok after) :
    RichAccepted setup ledger txn ∧ after.state = richUpdateState ledger.state txn := by
  obtain ⟨_,_,applied⟩ := bind_success _ _ _ applied
  obtain ⟨_,valid,applied⟩ := bind_success _ _ _ applied
  obtain ⟨found,read,valid⟩ := bind_success _ _ _ valid
  rw [← Except.ok.inj applied]
  refine ⟨?_,rfl⟩
  dsimp only at valid
  split at valid
  · cases valid
  next passed =>
    obtain ⟨_,allowed,content⟩ := bind_success _ _ _ valid
    rw [shipped] at allowed
    have fresh := validateAuthRule_new setup policy describe _ _ _ _ _ allowed
    refine ⟨⟨found,read,fresh⟩,?_,content⟩
    simpa [fresh] using passed

private theorem lookupShared_ok {state : String → Option (Stored ι)} {reference found : Document}
    (read : lookupShared setup state reference = .ok found) (there : found.truth = true) :
    ∃ key stored, stateKey setup reference = .ok key ∧ state key = some stored ∧ seen setup stored = .ok found := by
  obtain ⟨key,keyed,read⟩ := bind_success _ _ _ read
  cases held : state key with
  | none =>
    rw [held] at read
    rw [← Except.ok.inj read] at there
    cases there
  | some stored =>
    rw [held] at read
    exact ⟨key,stored,keyed,held,read⟩

private theorem foundAs_stored {state : String → Option (Stored ι)} {rsType : String} {reference : Document}
    (found : FoundAs (contentsOf setup state).toMappingSetup rsType reference) :
    ∃ key stored, stateKey setup reference = .ok key ∧ state key = some stored ∧
      (∃ document, seen setup stored = .ok document ∧ document.truth = true) ∧
      ∀ object, stored = .object object → object.rsType = rsType := by
  obtain ⟨document,read,typed⟩ := found
  obtain ⟨value,held,text⟩ := Option.bind_eq_some_iff.mp typed
  obtain ⟨key,stored,keyed,there,shown⟩ := lookupShared_ok setup read (truth_of_field held)
  refine ⟨key,stored,keyed,there,⟨document,shown,truth_of_field held⟩,?_⟩
  rintro object rfl
  obtain rfl := Except.ok.inj shown
  rw [objectDocument_rsType] at held
  obtain rfl := Option.some.inj held
  exact Option.some.inj text

private theorem RichAccepted.free {ledger : SharedLedger ι} {txn : RichTxn} (accepted : RichAccepted setup ledger txn) :
    ∀ stored, ledger.state txn.op.id = some stored →
      stored.type? = none ∧ ∀ document, seen setup stored = .ok document → document.truth = false := by
  intro stored held
  obtain ⟨found,read,falsy⟩ := accepted.fresh
  have shown : seen setup stored = .ok found := by
    have same : lookupShared setup ledger.state (textOf txn.op.id) = seen setup stored := by
      simp only [lookupShared,stateKey,textOf,Document.text?,ok_bind,held]
    rw [← same]
    exact read
  refine ⟨?_,fun document same => ?_⟩
  · cases stored with
    | object written =>
      rw [← Except.ok.inj shown] at falsy
      cases falsy
    | pointer id => rfl
    | classic leaf => rfl
  · rw [Except.ok.inj (same.symm.trans shown)]
    exact falsy

private theorem RichAccepted.found {ledger : SharedLedger ι} {txn : RichTxn} (accepted : RichAccepted setup ledger txn)
    (reference : String × Option String) (listed : reference ∈ referencesOf setup txn.object) :
    ∃ key stored, reference.2 = some key ∧ ledger.state key = some stored ∧ key ≠ txn.op.id ∧
      key ≠ txn.secondaryKey ∧ ∀ object, stored = .object object → object.rsType = reference.1 := by
  obtain ⟨expected,inside,rfl⟩ := List.mem_map.mp listed
  have typed : txn.object.rsType = txn.kind.rsType := txn.typed
  rw [typed] at inside
  obtain ⟨document,named,found⟩ := references_found _ _ accepted.content expected inside
  obtain ⟨key,stored,keyed,held,⟨shown,read,truth⟩,same⟩ := foundAs_stored setup found
  refine ⟨key,stored,?_,held,?_,?_,same⟩
  · rw [named,Option.bind_some,keyed]
    rfl
  · rintro rfl
    rw [(accepted.free setup stored held).2 shown read] at truth
    cases truth
  · rintro rfl
    rw [accepted.unique] at held
    cases held

private theorem ReferencesKept.point {state : String → Option (Stored ι)} (kept : ReferencesKept setup state)
    (key id : String) (absent : state key = none) :
    ReferencesKept setup (Function.update state key (some (.pointer id))) := by
  refine (closed_overwrite_iff kept (Set.singleton key) ?_ ?_).mpr ?_
  · exact fun other outside => Function.update_of_ne outside ..
  · rintro _ rfl item stored
    rw [Function.update_self] at stored
    obtain rfl := Option.some.inj stored
    exact ⟨rfl,rfl⟩
  · rintro _ rfl holder _ item stored reference listed same
    obtain ⟨target,found,object,there,_⟩ := kept holder item stored reference listed
    obtain rfl := Option.some.inj (found.symm.trans same)
    rw [absent] at there
    cases there

private theorem rich_step_iff {ledger : SharedLedger ι} {txn : RichTxn} (kept : ReferencesKept setup ledger.state)
    (accepted : RichAccepted setup ledger txn) :
    ReferencesKept setup (richUpdateState ledger.state txn) ↔ Careful setup ledger.state (.rich txn) := by
  by_cases lost : txn.op.id = txn.secondaryKey
  · refine iff_of_true ?_ fun apart => (apart lost).elim
    rw [richUpdateState,lost,Function.update_idem]
    exact kept.point setup _ _ accepted.unique
  · rw [richUpdateState,Function.update_comm lost]
    have pointed := kept.point setup txn.secondaryKey txn.op.id accepted.unique
    have free : ∀ old, Function.update ledger.state txn.secondaryKey (some (.pointer txn.op.id)) txn.op.id = some old →
        Stored.type? old = none := by
      intro old stored
      rw [Function.update_of_ne lost] at stored
      exact (accepted.free setup old stored).1
    refine (closed_add_iff pointed txn.op.id (.object txn.object) free).trans ?_
    constructor
    · rintro own _ key ⟨rsType,listed⟩
      obtain ⟨target,same,item,there,typed⟩ := own _ listed
      obtain rfl := Option.some.inj same
      obtain ⟨other,stored,found,held,apart,beside,_⟩ := accepted.found setup _ listed
      obtain rfl := Option.some.inj found
      rw [Function.update_of_ne apart,Function.update_of_ne beside,held] at there
      obtain rfl := Option.some.inj there
      cases stored with
      | object target => exact ⟨target,held⟩
      | pointer id => cases typed
      | classic leaf => cases typed
    · intro careful reference listed
      obtain ⟨key,stored,found,held,apart,beside,same⟩ := accepted.found setup reference listed
      obtain ⟨target,there⟩ := careful lost key ⟨reference.1,found ▸ listed⟩
      obtain rfl := Option.some.inj (held.symm.trans there)
      refine ⟨key,found,.object target,?_,congrArg some (same target rfl)⟩
      rw [Function.update_of_ne apart,Function.update_of_ne beside]
      exact held

section Classic
variable [DecidableEq ι] [Revocation.PyStr ι] [PyHash ι] [LE ι] [DecidableLE ι]

private theorem applyClassic_state {ledger after : SharedLedger ι} {ordered : Domain.Ordered ι}
    (applied : applyClassic setup ledger ordered = .ok after) :
    ∃ view, Domain.applyTxn setup.domain (domainView setup ledger) ordered = .ok view ∧
      after.state = fun key =>
        if key ∈ ordered.txn.paths setup.domain then (view.state key).map .classic else ledger.state key := by
  rw [applyClassic] at applied
  split at applied
  · cases applied
  · obtain ⟨view,run,applied⟩ := bind_success _ _ _ applied
    rw [← Except.ok.inj applied]
    exact ⟨view,run,rfl⟩

omit [DecidableEq ι] [Revocation.PyStr ι] [PyHash ι] [LE ι] [DecidableLE ι] in
private theorem classic_writes_iff {state : String → Option (Stored ι)} (kept : ReferencesKept setup state)
    (paths : List String) (written : String → Option (Domain.Leaf ι)) :
    ReferencesKept setup (fun key => if key ∈ paths then (written key).map .classic else state key) ↔
      ∀ key ∈ paths, ∀ holder, holder ∉ paths → ∀ object, state holder = some (.object object) →
        ¬Refers setup object key := by
  refine (closed_overwrite_iff kept {key | key ∈ paths} (fun key outside => if_neg outside) ?_).trans ?_
  · intro key inside item stored
    rw [if_pos inside] at stored
    obtain ⟨leaf,_,rfl⟩ := Option.map_eq_some_iff.mp stored
    exact ⟨rfl,rfl⟩
  · refine forall₄_congr fun key _ holder _ => ?_
    constructor
    · rintro untouched object stored ⟨rsType,listed⟩
      exact untouched _ stored _ listed rfl
    · intro untouched item stored reference listed same
      cases item with
      | object object => exact untouched object stored ⟨reference.1,same ▸ listed⟩
      | pointer id => cases listed
      | classic leaf => cases listed

omit [DecidableEq ι] [Revocation.PyStr ι] [PyHash ι] [LE ι] [DecidableLE ι] in
/-- A SCHEMA is only written where there is no object. -/
theorem schema_beside_objects {policy : AuthPolicy} {describe : Request → String}
    (shipped : setup.domain.nym.config = defaultConfig policy describe) {ledger : SharedLedger ι} {req : Request}
    {op : Domain.SchemaOperation}
    (allowed : Domain.schemaDynamicValidation setup.domain (domainView setup ledger) req op = .ok ())
    (object : RichSchemaObject) : ledger.state (Domain.schemaPath req.identifier op) ≠ some (.object object) := by
  intro held
  have existing : Domain.holdsTrue (domainView setup ledger).state (Domain.schemaPath req.identifier op) = true := by
    simp [Domain.holdsTrue,domainView,held,asLeaf,Domain.Value.truth,objectJson,storedFields]
  rw [Domain.schemaDynamicValidation,existing,Domain.Setup.validate,shipped] at allowed
  exact no_one_validates policy describe _ _ editSchema (List.mem_of_getElem? (i := 13) rfl) allowed

private theorem classic_step_iff {policy : AuthPolicy} {describe : Request → String}
    (shipped : setup.domain.nym.config = defaultConfig policy describe) {ledger after : SharedLedger ι}
    {ordered : Domain.Ordered ι} (kept : ReferencesKept setup ledger.state)
    (applied : applyClassic setup ledger ordered = .ok after) :
    ReferencesKept setup after.state ↔ Careful setup ledger.state (.classic ordered) := by
  obtain ⟨view,run,state⟩ := applyClassic_state setup applied
  rw [state,classic_writes_iff setup kept]
  obtain ⟨txn,time,timed⟩ := ordered
  cases txn with
  | schema req op =>
    refine iff_of_true ?_ trivial
    cases Domain.applyTxn_applied setup.domain _ _ _ run with
    | schema _ _ allowed =>
      rintro key inside holder _ object stored ⟨rsType,listed⟩
      obtain ⟨target,found,item,there,typed⟩ := kept holder _ stored _ listed
      obtain rfl := Option.some.inj found
      rw [List.mem_singleton.mp inside] at there
      cases item with
      | object written => exact schema_beside_objects setup shipped allowed written there
      | pointer id => cases typed
      | classic leaf => cases typed
  | nym req => exact Iff.rfl
  | attrib req op => exact Iff.rfl
  | claimDef req op => exact Iff.rfl
  | revocDef req op => exact Iff.rfl
  | revocEntry req op => exact Iff.rfl

/-- In every run from an empty state the references stay in order exactly if every accepted
transaction is careful. -/
theorem references_kept_iff (policy : AuthPolicy) (describe : Request → String)
    (shipped : setup.domain.nym.config = defaultConfig policy describe) (start : SharedLedger ι)
    (empty : ∀ key, start.state key = none) (requests : List (SharedTxn ι)) :
    (∀ earlier later, requests = earlier ++ later →
        ReferencesKept setup (attempts (applyShared setup) start earlier).state) ↔
      ∀ earlier txn later after, requests = earlier ++ txn :: later →
        applyShared setup (attempts (applyShared setup) start earlier) txn = .ok after →
        Careful setup (attempts (applyShared setup) start earlier).state txn := by
  refine always_iff_safe (applyShared setup) (fun ledger => ReferencesKept setup ledger.state)
    (fun ledger txn => Careful setup ledger.state txn) start ?_ ?_ requests
  · intro holder item stored
    rw [empty holder] at stored
    cases stored
  · intro ledger txn after kept applied
    cases txn with
    | rich txn =>
      obtain ⟨accepted,state⟩ := applyRich_accepted setup shipped applied
      rw [state]
      exact rich_step_iff setup kept accepted
    | classic ordered => exact classic_step_iff setup shipped kept applied

end Classic

end Kept

section Samples

/-- The path of a claim definition, taken as the id of a schema. -/
def takenPath : String := "V4SGRU86Z58d6TV7PBUe6f:3:CL:2:tag"

def encodingContent : Document :=
  let described : Document := .object [("id",textOf "a"),("type",textOf "b")]
  .object [("input",described),("output",described),("testVectors",textOf "c"),
    ("algorithm",.object [("description",textOf "d"),("documentation",textOf "e"),("implementation",textOf "f")])]

def takenText : String :=
  "\x7b\"@id\": \"V4SGRU86Z58d6TV7PBUe6f:3:CL:2:tag\", \"@type\": \"rdfs:Class\"\x7d"

def encodingText : String :=
  "\x7b\"input\": \x7b\"id\": \"a\", \"type\": \"b\"\x7d, \"output\": \x7b\"id\": \"a\", \"type\": \"b\"\x7d, " ++
    "\"testVectors\": \"c\", \"algorithm\": \x7b\"description\": \"d\", \"documentation\": \"e\", " ++
    "\"implementation\": \"f\"\x7d\x7d"

def mappingText : String :=
  "\x7b\"@id\": \"map1\", \"@type\": \"rdfs:Class\", \"schema\": \"V4SGRU86Z58d6TV7PBUe6f:3:CL:2:tag\", " ++
    "\"attributes\": \x7b\"issuer\": \x7b\"enc\": \"enc1\", \"rank\": 1\x7d, " ++
    "\"issuanceDate\": \x7b\"enc\": \"enc1\", \"rank\": 2\x7d\x7d\x7d"

/-- A parser for three contents; no id is JSON. -/
def sharedSetup : SharedSetup Nat where
  domain := Domain.plainSetup
  enabled := true
  loads text :=
    if text = takenText then some (.object [("@id",textOf takenPath),("@type",textOf "rdfs:Class")])
    else if text = encodingText then some encodingContent
    else if text = mappingText then
      some (.object [("@id",textOf "map1"),("@type",textOf "rdfs:Class"),("schema",textOf takenPath),
        ("attributes",.object [("issuer",pairOf 1),("issuanceDate",pairOf 2)])])
    else none
  format _ := ""
  badUri _ := false
  keyOf _ := .error .typeError
  decode _ := .error .valueError
  document _ := .object []

def richTxn (kind : RichKind) (id content : String) : RichTxn where
  request := Domain.signedByOwner
  op := ⟨⟨kind.rsType,"name","1.0"⟩,id,content⟩
  payloadVersion := some "1"
  seqNo := 1
  txnTime := 20
  kind := kind
  typed := rfl

def SharedLedger.with (ledger : SharedLedger Nat) (txn : RichTxn) : SharedLedger Nat :=
  {ledger with state := richUpdateState ledger.state txn,txnTypes := ledger.txnTypes ++ [txn.kind.txnType]}

private theorem owner_adds (state : String → Option (Stored Nat)) (kind : RichKind) :
    validateAuthRule (handlerOf sharedSetup state kind) Domain.plainSetup.nym.config
      (Domain.ownerNyms .trustee).cache Domain.signedByOwner false = .ok () := by
  have allowed := fun rule listed action same holds => validate_rule .configLedger (fun _ => "")
    (Domain.ownerNyms .trustee).cache Domain.signedByOwner rule listed action same holds
  cases kind with
  | context => exact allowed (addJsonLdContext,_) (List.mem_of_getElem? (i := 14) rfl) addJsonLdContext rfl (by decide)
  | schema => exact allowed (addRichSchema,_) (List.mem_of_getElem? (i := 16) rfl) addRichSchema rfl (by decide)
  | encoding => exact allowed (addRichSchemaEncoding,_) (List.mem_of_getElem? (i := 18) rfl) addRichSchemaEncoding rfl (by decide)
  | mapping => exact allowed (addRichSchemaMapping,_) (List.mem_of_getElem? (i := 20) rfl) addRichSchemaMapping rfl (by decide)
  | credDef => exact allowed (addRichSchemaCredDef,_) (List.mem_of_getElem? (i := 22) rfl) addRichSchemaCredDef rfl (by decide)
  | presDef => exact allowed (addRichSchemaPresDef,_) (List.mem_of_getElem? (i := 24) rfl) addRichSchemaPresDef rfl (by decide)

private theorem richTxn_applies (ledger : SharedLedger Nat) (kind : RichKind) (id content : String)
    (nyms : ledger.nyms = Domain.ownerNyms .trustee)
    (static : staticValidation true (handlerOf sharedSetup ledger.state kind) Domain.signedByOwner
      (richTxn kind id content).op = .ok ())
    (fresh : ledger.state id = none) (unique : ledger.state (richTxn kind id content).secondaryKey = none)
    (checked : dynamicValidationContent (contentsOf sharedSetup ledger.state).toMappingSetup Domain.signedByOwner kind
      (richTxn kind id content).op = .ok ()) :
    applyShared sharedSetup ledger (.rich (richTxn kind id content)) = .ok (ledger.with (richTxn kind id content)) := by
  have read : lookupShared sharedSetup ledger.state (textOf (richTxn kind id content).op.id) = .ok (.scalar .null) := by
    simp only [lookupShared,stateKey,textOf,Document.text?,ok_bind,richTxn,fresh]
    rfl
  have valid : richDynamicValidation sharedSetup ledger (richTxn kind id content) = .ok () := by
    rw [richDynamicValidation,read,ok_bind]
    dsimp only
    rw [unique]
    simp only [Document.truth,Option.isSome_none,Bool.and_false,Bool.false_eq_true,if_false]
    rw [nyms]
    exact (congrArg (fun first => first >>= fun _ => _) (owner_adds ledger.state kind)).trans checked
  have shaped : staticValidation sharedSetup.enabled (handlerOf sharedSetup ledger.state (richTxn kind id content).kind)
      (richTxn kind id content).request (richTxn kind id content).op = .ok () := static
  rw [applyShared,applyRich,shaped,ok_bind,valid,ok_bind]
  rfl

def sharedStart : SharedLedger Nat := ⟨Domain.ownerNyms .trustee,fun _ => none,fun _ => none,["1"]⟩

private theorem degree_timed : 0 < 10 := by decide

def degreeTxn : Domain.Ordered Nat := ⟨.schema Domain.signedByOwner Domain.degreeSchema,10,degree_timed⟩

private theorem taking_timed : 0 < 30 := by decide

def takingTxn : Domain.Ordered Nat := ⟨.claimDef Domain.signedByOwner Domain.sampleClaimDef,30,taking_timed⟩

def SharedLedger.withClassic (ledger : SharedLedger Nat) (ordered : Domain.Ordered Nat) (after : Domain.Ledger Nat) :
    SharedLedger Nat where
  nyms := after.nyms
  state key :=
    if key ∈ ordered.txn.paths sharedSetup.domain then (after.state key).map .classic else ledger.state key
  attributes := after.attributes
  txnTypes := after.txnTypes

def sharedSchema : SharedLedger Nat := sharedStart.withClassic degreeTxn Domain.withSchema

def sharedMapping : SharedLedger Nat :=
  ((sharedSchema.with (richTxn .schema takenPath takenText)).with (richTxn .encoding "enc1" encodingText)).with
    (richTxn .mapping "map1" mappingText)

def sharedTaken : SharedLedger Nat := sharedMapping.withClassic takingTxn
  ((domainView sharedSetup sharedMapping).append Domain.claimDefType
    (Domain.claimDefUpdateState (domainView sharedSetup sharedMapping) Domain.signedByOwner Domain.sampleClaimDef 6 30))

def takingRequests : List (SharedTxn Nat) :=
  [.classic degreeTxn,.rich (richTxn .schema takenPath takenText),.rich (richTxn .encoding "enc1" encodingText),
    .rich (richTxn .mapping "map1" mappingText),.classic takingTxn]

private theorem degree_applied : applyShared sharedSetup sharedStart (.classic degreeTxn) = .ok sharedSchema := by
  have run : Domain.applyTxn sharedSetup.domain (domainView sharedSetup sharedStart) degreeTxn =
      .ok Domain.withSchema := Domain.schema_added
  rw [applyShared,applyClassic,if_neg (by decide),run]
  rfl

private theorem taking_applied : applyShared sharedSetup sharedMapping (.classic takingTxn) = .ok sharedTaken := by
  have allowed : Domain.claimDefDynamicValidation sharedSetup.domain (domainView sharedSetup sharedMapping)
      Domain.signedByOwner Domain.sampleClaimDef = .ok () :=
    Domain.owner_allowed _ rfl (editClaimDef,_) (List.mem_of_getElem? (i := 27) rfl) editClaimDef rfl (by decide)
  have run := Domain.applyTxn_claimDef sharedSetup.domain _ _ 30 (by decide) _ allowed
  rw [applyShared,applyClassic,if_neg (by decide),takingTxn,run]
  rfl

-- The contents are compared character by character.
set_option maxRecDepth 1000 in
private theorem taking_reached : attempts (applyShared sharedSetup) sharedStart takingRequests = sharedTaken := by
  rw [takingRequests,attempts_cons _ degree_applied,
    attempts_cons _ (richTxn_applies _ .schema takenPath takenText rfl rfl rfl rfl rfl),
    attempts_cons _ (richTxn_applies _ .encoding "enc1" encodingText rfl rfl rfl rfl rfl),
    attempts_cons _ (richTxn_applies _ .mapping "map1" mappingText rfl rfl rfl rfl rfl)]
  exact attempts_cons _ taking_applied []

set_option maxRecDepth 1000 in
private theorem taken_dangling : ¬ReferencesKept sharedSetup sharedTaken.state := by
  intro kept
  obtain ⟨key,found,item,there,typed⟩ := kept "map1" (.object (richTxn .mapping "map1" mappingText).object) rfl
    ("sch",some takenPath) (List.mem_of_getElem? (i := 0) rfl)
  obtain rfl := Option.some.inj found
  obtain rfl : Stored.classic _ = item := Option.some.inj there
  cases typed

/-- A claim definition is written over a schema that a mapping refers to. -/
theorem schema_overwritten :
    attempts (applyShared sharedSetup) sharedStart takingRequests = sharedTaken ∧
      sharedTaken.state "map1" = some (.object (richTxn .mapping "map1" mappingText).object) ∧
      (∃ leaf, sharedTaken.state takenPath = some (.classic leaf)) ∧
      ¬ReferencesKept sharedSetup sharedTaken.state :=
  ⟨taking_reached,rfl,⟨_,rfl⟩,taken_dangling⟩

theorem taking_not_careful : ¬∀ earlier txn later after, takingRequests = earlier ++ txn :: later →
    applyShared sharedSetup (attempts (applyShared sharedSetup) sharedStart earlier) txn = .ok after →
    Careful sharedSetup (attempts (applyShared sharedSetup) sharedStart earlier).state txn := by
  intro careful
  have kept := (references_kept_iff sharedSetup .configLedger (fun _ => "") rfl sharedStart (fun _ => rfl)
    takingRequests).mpr careful takingRequests [] (by simp)
  rw [taking_reached] at kept
  exact taken_dangling kept

end Samples
end IndyNode.RichSchema

import IndyNode.Domain.ObjectPaths
import IndyNode.Domain.LookupPaths
import IndyNode.Domain.Timestamps

/-! The reads of schemas, claim definitions, registry definitions and accumulators.
What they return is what the last accepted transaction wrote under the path they ask
for, with its place in the ledger and its time. -/
namespace IndyNode.Domain
open Authorize Nym

section Handlers
variable {ι : Type}

structure GetSchemaOperation where
  dest : Did
  name : String
  version : String
deriving DecidableEq, Repr

structure GetClaimDefOperation where
  origin : Did
  ref : Nat
  signatureType : String
  tag : Option String
deriving DecidableEq, Repr

/-- What `make_result` is called with besides the request. -/
structure ReadReply (ι : Type) where
  data : Option (Value ι)
  lastSeqNo : Option Nat
  updateTime : Option Nat

def ReadReply.of (found : Option (Leaf ι)) : ReadReply ι :=
  ⟨found.map (·.value),found.map (·.seqNo),found.map (·.updateTime)⟩

/-- GET_SCHEMA: the data also gets the name and the version that were asked for, and
a text has no `update`. -/
structure SchemaReply (ι : Type) where
  name : String
  version : String
  found : ReadReply ι

variable (node : Committed ι)

def getSchema (author schemaName schemaVersion : String) : ReadReply ι :=
  .of (node.ledger.state (makeStatePathForSchema author schemaName schemaVersion))

def getSchemaResult (op : GetSchemaOperation) : Except Raised (SchemaReply ι) :=
  let found := getSchema node op.dest.val op.name op.version
  match found.data with
  | some (.attrib _) => .error .attributeError
  | _ => .ok ⟨op.name,op.version,found⟩

def getReadClaimDefTag (op : GetClaimDefOperation) : String := op.tag.getD claimDefTagDefault

def getClaimDef (author : String) (schemaSeqNo : Nat) (signatureType tag : String) : ReadReply ι :=
  .of (node.ledger.state (makeStatePathForClaimDef author schemaSeqNo signatureType tag))

def getClaimDefResult (op : GetClaimDefOperation) : ReadReply ι :=
  getClaimDef node op.origin.val op.ref op.signatureType (getReadClaimDefTag op)

/-- `GetRevocRegDefHandler.get_result`: the id is the path, whatever stands there. -/
def getRevocRegDefResult (id : String) : Except Raised (ReadReply ι) :=
  if id = "" then .error .assertionError else .ok (.of (node.ledger.state id))

/-- `GetRevocRegHandler.get_result`: the accumulator in the state of a time. -/
def getRevocRegResult (revocRegDefId : String) (timestamp : Int) : ReadReply ι :=
  .of (readAtTime node (fun ledger => ledger.state (Revocation.revocAccumPath revocRegDefId)) timestamp)

end Handlers

section Objects
variable {ι : Type}

/-- The path and the leaf of a schema, a claim definition or a registry definition. -/
def objectTxn (ordered : Ordered ι) (index : Nat) : Option (String × Leaf ι) :=
  match ordered.txn with
  | .schema req op => some (schemaPath req.identifier op,⟨.schema op.attrNames,index + 1,ordered.time⟩)
  | .claimDef req op => some (claimDefPath req.identifier op,⟨.claimDef op.publicKeys,index + 1,ordered.time⟩)
  | .revocDef req op => some (revocDefPath req.identifier op,
      ⟨.registry (.definition ⟨op.revocDefType,op.issuanceType.text⟩),index + 1,ordered.time⟩)
  | _ => none

/-- The objects of a history that starts behind `index` transactions. -/
def objectsOf (index : Nat) (history : List (Ordered ι)) : List (String × Leaf ι) :=
  (history.zipIdx index).filterMap fun place => objectTxn place.1 place.2

private theorem objectsOf_snoc (index : Nat) (history : List (Ordered ι)) (ordered : Ordered ι) :
    objectsOf index (history ++ [ordered]) =
      objectsOf index history ++ (objectTxn ordered (index + history.length)).toList :=
  places_snoc _ index history ordered

/-- The markers of paths that hold these objects. -/
def objectMarkers : List String := ["2","3","4"]

/-- The last object that was written under a path. -/
def lastObject (index : Nat) (history : List (Ordered ι)) (path : String) : Option (Leaf ι) :=
  (latest (fun object => object.1 = path) (objectsOf index history)).map Prod.snd

end Objects

section Runs
variable {ι : Type} [DecidableEq ι] [Revocation.PyStr ι] [PyHash ι] [LE ι] [DecidableLE ι]
  (setup : Setup)

private theorem objectMarkers_clean (marker : String) (member : marker ∈ objectMarkers) :
    ':' ∉ marker.toList ∧ marker ≠ "1" := by
  simp only [objectMarkers,List.mem_cons,List.not_mem_nil,or_false] at member
  rcases member with rfl | rfl | rfl <;> decide

omit [DecidableEq ι] [Revocation.PyStr ι] [PyHash ι] [LE ι] [DecidableLE ι] in
private theorem object_unwritten (ordered : Ordered ι) (index : Nat) (identified : ordered.txn.Identified)
    (other : objectTxn ordered index = none) (marker path : String) (member : marker ∈ objectMarkers)
    (marked : Marked marker path) : path ∉ ordered.txn.paths setup := by
  obtain ⟨clean,apart⟩ := objectMarkers_clean marker member
  obtain ⟨txn,time,timed⟩ := ordered
  cases txn with
  | nym req => simp [DomainTxn.paths]
  | attrib req op =>
    simp only [DomainTxn.paths]
    split
    · intro written
      rw [List.mem_singleton.mp written] at marked
      have plain := (identified.dest req op rfl).plain
      exact apart (marked.other ⟨_,plain,attrPath_under _ _⟩ clean (by decide))
    · simp
  | schema req op => simp [objectTxn] at other
  | claimDef req op => simp [objectTxn] at other
  | revocDef req op => simp [objectTxn] at other
  | revocEntry req op =>
    obtain ⟨first,plain,under⟩ := marked
    have free := under.not_registry plain op.revocRegDefId
    simp only [DomainTxn.paths,List.mem_cons,List.not_mem_nil,or_false,not_or]
    exact ⟨free.1.symm,free.2.symm⟩

private theorem Applied.object {ledger next : Ledger ι} (ordered : Ordered ι)
    (applied : Applied setup ledger ordered.time ordered.txn next) (path : String) (leaf : Leaf ι)
    (object : objectTxn ordered ledger.txnTypes.length = some (path,leaf)) :
    next.state = Function.update ledger.state path (some leaf) := by
  obtain ⟨txn,time,timed⟩ := ordered
  cases applied with
  | schema req op allowed =>
    obtain ⟨rfl,rfl⟩ := Prod.mk.inj (Option.some.inj object)
    rfl
  | claimDef req op allowed =>
    obtain ⟨rfl,rfl⟩ := Prod.mk.inj (Option.some.inj object)
    rfl
  | revocDef req op state shaped allowed written =>
    obtain ⟨rfl,rfl⟩ := Prod.mk.inj (Option.some.inj object)
    exact (revocDefUpdateState_eq ledger req op _ _ state written).2
  | _ => simp [objectTxn] at object

/-- Where objects stand, the state has the last one written. -/
def ObjectsHeld (index : Nat) (history : List (Ordered ι)) (ledger : Ledger ι) : Prop :=
  ∀ marker ∈ objectMarkers, ∀ path, Marked marker path → ledger.state path = lastObject index history path

private theorem ObjectsHeld.step {index : Nat} {history : List (Ordered ι)} {before after : Ledger ι}
    (held : ObjectsHeld index history before) (ordered : Ordered ι) (identified : ordered.txn.Identified)
    (length : before.txnTypes.length = index + history.length)
    (applied : Applied setup before ordered.time ordered.txn after) :
    ObjectsHeld index (history ++ [ordered]) after := by
  intro marker member path marked
  rw [lastObject,objectsOf_snoc,← length]
  cases object : objectTxn ordered before.txnTypes.length with
  | none =>
    rw [applied.other setup path (object_unwritten setup ordered _ identified object marker path member marked),
      Option.toList_none,List.append_nil]
    exact held marker member path marked
  | some written =>
    obtain ⟨place,leaf⟩ := written
    rw [applied.object setup ordered place leaf object,Option.toList_some,latest_snoc]
    by_cases same : place = path
    · simp [same]
    · rw [Function.update_of_ne (Ne.symm same),if_neg (by simpa using same)]
      exact held marker member path marked

theorem Run.objects {start final : Ledger ι} {history : List (Ordered ι)}
    (run : Run setup start history final) (identified : ∀ ordered ∈ history, ordered.txn.Identified)
    (empty : ∀ path, start.state path = none) : ObjectsHeld start.txnTypes.length history final := by
  refine run.invariant setup (fun history ledger => ObjectsHeld start.txnTypes.length history ledger) ?_ ?_
    identified
  · intro marker _ path _
    simp [lastObject,objectsOf,latest,empty]
  · intro history before after ordered earlier held now applied
    exact held.step setup ordered now (earlier.length setup) applied

private theorem Run.records {start final : Ledger ι} {history : List (Ordered ι)}
    (run : Run setup start history final) (identified : ∀ ordered ∈ history, ordered.txn.Identified)
    (empty : ∀ path, start.state path = none) (id : String) :
    Records id (entriesOf id start.txnTypes.length history) final := by
  refine run.invariant setup (fun history ledger => Records id
    (entriesOf id start.txnTypes.length history) ledger) (.empty id start empty) ?_ identified
  intro history before after ordered earlier records now applied
  exact records.step setup ordered now (earlier.length setup) applied

end Runs

section Schemas
variable {ι : Type}

/-- The leaf of a schema by the author, the name and the version that are asked for. -/
def schemaTxn (op : GetSchemaOperation) (ordered : Ordered ι) (index : Nat) : Option (Leaf ι) :=
  match ordered.txn with
  | .schema req written =>
    if req.identifier = some op.dest ∧ written.name = op.name ∧ written.version = op.version then
      some ⟨.schema written.attrNames,index + 1,ordered.time⟩
    else none
  | _ => none

def lastSchema (index : Nat) (history : List (Ordered ι)) (op : GetSchemaOperation) : Option (Leaf ι) :=
  ((history.zipIdx index).filterMap fun place => schemaTxn op place.1 place.2).getLast?

/-- The versions of schemas are what the message schema admits. -/
def DomainTxn.Versioned (txn : DomainTxn ι) : Prop :=
  ∀ req op, txn = .schema req op → IsVersion op.version

theorem authorText_inj (author : Option Did) (did : Did) (shaped : IsIdentifier did)
    (same : authorText author = did.val) : author = some did := by
  cases author with
  | none => exact absurd same.symm (identifier_ne_marker did shaped "None" (by decide))
  | some author => exact congrArg some (Subtype.ext same)

private theorem schemaPath_eq_iff (author : Option Did) (written : SchemaOperation) (op : GetSchemaOperation)
    (identified : ∀ did, author = some did → IsIdentifier did) (shaped : IsIdentifier op.dest)
    (versioned : IsVersion written.version) (version : IsVersion op.version) :
    schemaPath author written = makeStatePathForSchema op.dest.val op.name op.version ↔
      author = some op.dest ∧ written.name = op.name ∧ written.version = op.version := by
  constructor
  · intro same
    have theirs := schemaPath_under author written
    have mine := schemaPath_under (some op.dest) ⟨op.name,op.version,[]⟩
    rw [same] at theirs
    have heads := under_inj _ "2" _ "2" _ (authorText_plain author identified).clean shaped.clean (by decide)
      (by decide) theirs mine
    have authored := authorText_inj author op.dest shaped heads.1
    rw [authored] at same
    exact ⟨authored,schemaPath_inj (some op.dest) written ⟨op.name,op.version,[]⟩ versioned version same⟩
  · rintro ⟨rfl,name,number⟩
    rw [schemaPath,name,number]
    rfl

theorem GetSchemaOperation.marked (op : GetSchemaOperation) (shaped : IsIdentifier op.dest) :
    Marked "2" (makeStatePathForSchema op.dest.val op.name op.version) :=
  ⟨op.dest.val,shaped.plain,schemaPath_under (some op.dest) ⟨op.name,op.version,[]⟩⟩

private theorem GetClaimDefOperation.marked (op : GetClaimDefOperation) (shaped : IsIdentifier op.origin) :
    Marked "3" (makeStatePathForClaimDef op.origin.val op.ref op.signatureType (getReadClaimDefTag op)) :=
  ⟨op.origin.val,shaped.plain,
    claimDefPath_under (some op.origin) ⟨op.ref,op.signatureType,getReadClaimDefTag op,[]⟩⟩

theorem lastSchema_origin (index : Nat) (history : List (Ordered ι)) (op : GetSchemaOperation)
    (leaf : Leaf ι) (found : lastSchema index history op = some leaf) :
    ∃ ordered ∈ history, ∃ req written, ordered.txn = .schema req written ∧
      leaf.value = .schema written.attrNames := by
  obtain ⟨place,member,selected⟩ := List.mem_filterMap.mp (List.mem_of_getLast? found)
  rw [schemaTxn] at selected
  split at selected
  · rename_i req written shape
    obtain ⟨_,same⟩ := Option.ite_none_right_eq_some.mp selected
    obtain rfl := Option.some.inj same
    exact ⟨place.1,List.fst_mem_of_mem_zipIdx member,req,written,shape,rfl⟩
  · cases selected

/-- A path of schemas names its author, name and version. -/
theorem lastObject_schema (index : Nat) (history : List (Ordered ι))
    (identified : ∀ ordered ∈ history, ordered.txn.Identified)
    (versioned : ∀ ordered ∈ history, ordered.txn.Versioned) (op : GetSchemaOperation)
    (shaped : IsIdentifier op.dest) (version : IsVersion op.version) :
    lastObject index history (makeStatePathForSchema op.dest.val op.name op.version) =
      lastSchema index history op := by
  have mine := op.marked shaped
  have apart : ∀ author : Option Did, (∀ did, author = some did → IsIdentifier did) → ∀ marker path,
      ':' ∉ marker.toList → marker ≠ "2" → Under (authorText author) marker path →
      path ≠ makeStatePathForSchema op.dest.val op.name op.version := by
    intro author shapedAuthor marker path clean differ under same
    rw [← same] at mine
    exact differ (Marked.other ⟨_,authorText_plain author shapedAuthor,under⟩ mine clean (by decide))
  rw [lastObject,latest,objectsOf,List.filter_filterMap,← List.getLast?_map,List.map_filterMap,lastSchema]
  congr 1
  refine List.filterMap_congr fun place member => ?_
  obtain ⟨⟨txn,time,timed⟩,number⟩ := place
  have listed := List.fst_mem_of_mem_zipIdx member
  have author := (identified _ listed).author
  cases txn with
  | schema req written =>
    have same := schemaPath_eq_iff req.identifier written op author shaped (versioned _ listed req written rfl)
      version
    by_cases hit : req.identifier = some op.dest ∧ written.name = op.name ∧ written.version = op.version
    · simp only [objectTxn,schemaTxn,if_pos hit]
      simp [same.mpr hit]
    · have other : ¬schemaPath req.identifier written =
          makeStatePathForSchema op.dest.val op.name op.version := fun equal => hit (same.mp equal)
      simp [objectTxn,schemaTxn,other,hit]
  | claimDef req written =>
    have other := apart req.identifier author "3" _ (by decide) (by decide) (claimDefPath_under _ written)
    simp [objectTxn,schemaTxn,other]
  | revocDef req written =>
    have other := apart req.identifier author "4" _ (by decide) (by decide) (revocDefPath_under _ written)
    simp [objectTxn,schemaTxn,other]
  | _ => simp [objectTxn,schemaTxn]

end Schemas

section Reads
variable {ι : Type} [DecidableEq ι] [Revocation.PyStr ι] [PyHash ι] [LE ι] [DecidableLE ι]
  (setup : Setup) {start : Ledger ι} {batches : List (Batch ι)} {node : Committed ι}
  (empty : ∀ path, start.state path = none)
  (sorted : batches.Pairwise fun first second => first.time ≤ second.time)
  (committed : commitBatches setup (.genesis start) batches = .ok node)
  (identified : ∀ ordered ∈ batches.flatMap Batch.ordered, ordered.txn.Identified)

/-- The accumulator record an entry leaves. -/
def accumLeaf (id : String) (entry : Revocation.Txn ι) : Leaf ι :=
  ⟨.registry (.accum ⟨id,entry.request.revocDefType,entry.request.value.accum,entry.seqNo,entry.txnTime⟩),
    entry.seqNo,entry.txnTime⟩

omit [DecidableEq ι] [Revocation.PyStr ι] [PyHash ι] [LE ι] [DecidableLE ι] in
private theorem Records.accum {id : String} {entries : List (Revocation.Txn ι)} {ledger : Ledger ι}
    (records : Records id entries ledger) :
    ledger.state (Revocation.revocAccumPath id) = entries.getLast?.map (accumLeaf id) := by
  cases last : entries.getLast? with
  | none => exact (records.absent (List.getLast?_eq_none_iff.mp last)).2
  | some entry =>
    obtain ⟨value,accum,_,stored⟩ := records.present entry last
    rw [stored,accum]
    rfl

include empty sorted committed identified

theorem readAtTime_accum (id : String) (timestamp : Int) :
    readAtTime node (fun ledger => ledger.state (Revocation.revocAccumPath id)) timestamp =
      (entriesOf id start.txnTypes.length (historyUpTo batches timestamp)).getLast?.map (accumLeaf id) := by
  obtain ⟨past,run,found⟩ := readAtTime_committed setup (fun ledger => ledger.state (Revocation.revocAccumPath id))
    start batches node sorted committed timestamp
  have some_of := fun ordered member => identified ordered
    ((historyUpTo_times batches timestamp ordered).mp member).1
  have records := run.records setup some_of empty id
  rw [found,records.accum]
  split
  · rename_i nothing
    simp [historyUpTo,nothing,entriesOf]
  · rfl

/-- GET_SCHEMA returns the last schema of that author, name and version, GET_CLAIM_DEF
and GET_REVOC_REG_DEF the last object under the path they ask for, and GET_REVOC_REG
the accumulator of the last entry up to its time; each with the number and the time
of the transaction. Without such a transaction they return nothing. -/
theorem reads_return_last_written (versioned : ∀ ordered ∈ batches.flatMap Batch.ordered, ordered.txn.Versioned) :
    (∀ op : GetSchemaOperation, IsIdentifier op.dest → IsVersion op.version →
      getSchemaResult node op = .ok ⟨op.name,op.version,
        .of (lastSchema start.txnTypes.length (batches.flatMap Batch.ordered) op)⟩) ∧
    (∀ op : GetClaimDefOperation, IsIdentifier op.origin →
      getClaimDefResult node op = .of (lastObject start.txnTypes.length (batches.flatMap Batch.ordered)
        (makeStatePathForClaimDef op.origin.val op.ref op.signatureType (getReadClaimDefTag op)))) ∧
    (∀ marker ∈ objectMarkers, ∀ id, Marked marker id → getRevocRegDefResult node id =
      .ok (.of (lastObject start.txnTypes.length (batches.flatMap Batch.ordered) id))) ∧
    ∀ id timestamp, getRevocRegResult node id timestamp =
      .of ((entriesOf id start.txnTypes.length (historyUpTo batches timestamp)).getLast?.map (accumLeaf id)) := by
  have consistent := (Consistent.genesis setup start).commitBatches setup batches (by simp) sorted committed
  have run := consistent.run
  rw [List.nil_append] at run
  have held := run.objects setup identified empty
  refine ⟨?_,?_,?_,?_⟩
  · intro op shaped version
    have last := lastObject_schema start.txnTypes.length (batches.flatMap Batch.ordered) identified versioned op
      shaped version
    simp only [getSchemaResult,getSchema,held "2" (by decide) _ (op.marked shaped),last]
    cases found : lastSchema start.txnTypes.length (batches.flatMap Batch.ordered) op with
    | none => rfl
    | some leaf =>
      obtain ⟨_,_,_,_,_,schema⟩ := lastSchema_origin _ _ op leaf found
      simp [ReadReply.of,schema]
  · intro op shaped
    exact congrArg ReadReply.of (held "3" (by decide) _ (op.marked shaped))
  · intro marker member id marked
    have nonempty : id ≠ "" := by
      rintro rfl
      obtain ⟨first,_,under⟩ := marked
      simpa using under.separated
    rw [getRevocRegDefResult,if_neg nonempty,held marker member id marked]
  · intro id timestamp
    exact congrArg ReadReply.of (readAtTime_accum setup empty sorted committed identified id timestamp)

end Reads

private theorem entry_timed : 0 < 20 := Nat.succ_pos 19

private theorem revocation_timed : 0 < 30 := Nat.succ_pos 29

def sampleBatches : List (Batch Nat) :=
  [⟨10,[.schema signedByOwner degreeSchema,.claimDef signedByOwner sampleClaimDef,
      .revocDef signedByOwner (sampleRegistry .onDemand)],ten_pos⟩,
    ⟨20,[.revocEntry signedByOwner (sampleEntry issueOne)],entry_timed⟩,
    ⟨30,[.revocEntry signedByOwner (sampleEntry revokeOne)],revocation_timed⟩]

def afterSample : Committed Nat :=
  ⟨withRevocation,Function.update (Function.update (Function.update (fun _ => none) 10 (some withRegistry))
    20 (some withEntry)) 30 (some withRevocation),
    [none,some 10,some 10,some 10,some 20,some 30]⟩

theorem sampleBatches_committed :
    commitBatches plainSetup (.genesis (ownerLedger .trustee)) sampleBatches = .ok afterSample := by
  simp only [commitBatches,sampleBatches,List.foldlM_cons,List.foldlM_nil,commitBatch,Batch.ordered,List.map_cons,
    List.map_nil,Committed.genesis,schema_added,claimDef_added,registry_added,entry_added,entry_revoked,ok_bind,
    pure_bind]
  rfl

private theorem degreeSchema_version : IsVersion "1.0" := by
  intro c inside
  have listed : c ∈ ['1','.','0'] := inside
  simp only [List.mem_cons,List.not_mem_nil,or_false] at listed
  rcases listed with rfl | rfl | rfl <;> decide

theorem sampleBatches_versioned :
    ∀ ordered ∈ sampleBatches.flatMap Batch.ordered, ordered.txn.Versioned := by
  intro ordered member req op shape
  have listed : ordered ∈ sampleHistory := member
  simp only [sampleHistory,List.mem_cons,List.not_mem_nil,or_false] at listed
  rcases listed with rfl | rfl | rfl | rfl | rfl
  · obtain ⟨rfl,rfl⟩ := DomainTxn.schema.inj shape
    exact degreeSchema_version
  all_goals cases shape

/-- The schema is found, and between the two entries the accumulator of the first. -/
theorem sample_reads :
    getSchemaResult afterSample ⟨ownerDid,"degree","1.0"⟩ =
      .ok ⟨"degree","1.0",⟨some (.schema ["name"]),some 2,some 10⟩⟩ ∧
    (getRevocRegResult afterSample registryId 25).lastSeqNo = some 5 := by
  obtain ⟨schemas,_,_,accums⟩ := reads_return_last_written plainSetup (fun _ => rfl) (by decide)
    sampleBatches_committed sampleHistory_identified sampleBatches_versioned
  refine ⟨(schemas ⟨ownerDid,"degree","1.0"⟩ (by decide) degreeSchema_version).trans ?_,?_⟩
  · rfl
  · rw [accums]
    rfl

end IndyNode.Domain

import IndyNode.Domain.ObjectReads

/-! The key and the value that `state/domain.py` makes of a reply, to be checked
against the state proof in it. They are those of the leaf that was read, unless an
attribute of another kind has taken its place or the reader of a registry definition
is not its author. -/
namespace IndyNode.Domain
open Authorize Nym

/-- `domain_state_serializer` on state values: what `encode_state_value` puts next to
each other, and the records of nyms. -/
structure StateCodec (ι : Type) where
  encodeStateValue : Value ι → Option Nat → Option Nat → List UInt8
  encodeNym : NymRecord → List UInt8

section Prepare
variable {ι : Type} (codec : StateCodec ι) (setup : Setup)

def encoded (found : Option (Leaf ι)) : Option (List UInt8) :=
  found.map fun leaf => codec.encodeStateValue leaf.value (some leaf.seqNo) (some leaf.updateTime)

def prepareGetNymForState (reply : NymReply) : Did × Option (List UInt8) :=
  (reply.dest,reply.data.map fun data => codec.encodeNym data.2)

/-- `get_reply_schema_attr_names`: only schemas stand where a schema is looked up. -/
def getReplySchemaAttrNames (reply : SchemaReply ι) : Option (List String) :=
  match reply.found.data with
  | some (.schema attrNames) => some attrNames
  | _ => none

def prepareGetSchemaForState (origin : Did) (reply : SchemaReply ι) : String × Option (List UInt8) :=
  (makeStatePathForSchema origin.val reply.name reply.version,
    match getReplySchemaAttrNames reply with
    | none => none
    | some attrNames => if attrNames = [] then none else
        some (codec.encodeStateValue (.schema attrNames) reply.found.lastSeqNo reply.found.updateTime))

def prepareGetClaimDefForState (op : GetClaimDefOperation) (reply : ReadReply ι) :
    String × Option (List UInt8) :=
  (makeStatePathForClaimDef op.origin.val op.ref op.signatureType (op.tag.getD claimDefTagDefault),
    reply.data.map fun data => codec.encodeStateValue data reply.lastSeqNo reply.updateTime)

def extractAttrTypedValue (op : AttribOperation) : Except Raised (AttrType × String) :=
  match op.existing with
  | [found] => .ok found
  | _ => .error .valueError

def withData (op : AttribOperation) (field : AttrType) (data : String) : AttribOperation :=
  match field with
  | .raw => {op with raw := some data}
  | .enc => {op with enc := some data}
  | .hash => {op with hash := some data}

/-- An empty text counts as no data. -/
def prepareGetAttrForState (op : AttribOperation) (reply : AttrReply) :
    Except Raised (String × Option (List UInt8)) := do
  let (field,name) ← extractAttrTypedValue op
  if truthy reply.data then
    let (field,key,value) ← parseAttrTxn setup (withData op field (reply.data.getD ""))
    return (makeStatePathForAttr op.dest.val (attrNameHash setup field key),
      some (codec.encodeStateValue (.attrib (hashedValue setup value)) reply.lastSeqNo reply.updateTime))
  -- An encrypted name is hashed here and passed as a hash.
  let key := if field = .enc then setup.sha256 name else name
  return (makeStatePathForAttr op.dest.val (if field = .hash ∨ field = .enc then key else setup.sha256 key),none)

/-- The assertions on the definition of a registry are met by every definition. -/
def prepareGetRevocDefForState (reader : Option Did) (data : RevocDefOperation) : String :=
  makeStatePathForRevocDef (authorText reader) data.credDefId data.revocDefType data.tag

/-- Only accumulators stand where one is looked up. -/
def prepareGetRevocRegEntryAccumForState (reply : ReadReply ι) :
    Except Raised (String × List UInt8) :=
  match reply.data with
  | some (.registry (.accum accum)) =>
    if accum.revocRegDefId = "" ∨ reply.lastSeqNo.getD 0 = 0 ∨ reply.updateTime.getD 0 = 0 then
      .error .assertionError
    else .ok (Revocation.revocAccumPath accum.revocRegDefId,
      codec.encodeStateValue (.registry (.accum accum)) reply.lastSeqNo reply.updateTime)
  | _ => .error .attributeError

end Prepare

section Objects
variable {ι : Type} (codec : StateCodec ι)

/-- The list of attribute names has at least one, as the message schema demands. -/
def DomainTxn.Attributed (txn : DomainTxn ι) : Prop :=
  ∀ req op, txn = .schema req op → op.attrNames ≠ []

private theorem prepareGetSchema_of (origin : Did) (name version : String) (found : Option (Leaf ι))
    (schemas : ∀ leaf, found = some leaf → ∃ attrNames, leaf.value = .schema attrNames ∧ attrNames ≠ []) :
    prepareGetSchemaForState codec origin ⟨name,version,.of found⟩ =
      (makeStatePathForSchema origin.val name version,encoded codec found) := by
  cases found with
  | none => rfl
  | some leaf =>
    obtain ⟨attrNames,value,listed⟩ := schemas leaf rfl
    simp [prepareGetSchemaForState,getReplySchemaAttrNames,ReadReply.of,encoded,value,listed]

private theorem prepareGetClaimDef_of (op : GetClaimDefOperation) (found : Option (Leaf ι)) :
    prepareGetClaimDefForState codec op (.of found) =
      (makeStatePathForClaimDef op.origin.val op.ref op.signatureType (getReadClaimDefTag op),
        encoded codec found) := by
  cases found <;> rfl

private theorem prepareGetRevocReg_of (id : String) (entry : Revocation.Txn ι) (named : id ≠ "") :
    prepareGetRevocRegEntryAccumForState codec (.of (some (accumLeaf id entry))) =
      .ok (Revocation.revocAccumPath id,codec.encodeStateValue (accumLeaf id entry).value (some entry.seqNo)
        (some entry.txnTime)) := by
  have numbered : ¬(id = "" ∨ (some entry.seqNo).getD 0 = 0 ∨ (some entry.txnTime).getD 0 = 0) := by
    rintro (unnamed | zero | zero)
    · exact named unnamed
    · exact entry.numbered.ne' zero
    · exact entry.timed.ne' zero
  exact if_neg numbered

private theorem authorText_eq_iff (first second : Option Did) (shaped : ∀ did, first = some did → IsIdentifier did)
    (otherShaped : ∀ did, second = some did → IsIdentifier did) :
    authorText first = authorText second ↔ first = second := by
  constructor
  · intro same
    cases second with
    | some did => exact authorText_inj first did (otherShaped did rfl) same
    | none =>
      cases first with
      | none => rfl
      | some did => exact absurd same (identifier_ne_marker did (shaped did rfl) "None" (by decide))
  · exact congrArg authorText

private theorem prepareGetRevocDef_iff (reader author : Option Did) (op : RevocDefOperation)
    (shaped : ∀ did, reader = some did → IsIdentifier did)
    (otherShaped : ∀ did, author = some did → IsIdentifier did) :
    prepareGetRevocDefForState reader op = revocDefPath author op ↔ reader = author := by
  rw [← authorText_eq_iff reader author shaped otherShaped]
  constructor
  · intro same
    have mine : Under (authorText reader) "4" (prepareGetRevocDefForState reader op) := revocDefPath_under reader op
    have theirs := revocDefPath_under author op
    rw [← same] at theirs
    exact (under_inj _ "4" _ "4" _ (authorText_plain reader shaped).clean (authorText_plain author otherShaped).clean
      (by decide) (by decide) mine theirs).1
  · intro same
    rw [prepareGetRevocDefForState,same]
    rfl

variable [DecidableEq ι] [Revocation.PyStr ι] [PyHash ι] [LE ι] [DecidableLE ι]
  (setup : Setup) {start : Ledger ι} {batches : List (Batch ι)} {node : Committed ι}
  (empty : ∀ path, start.state path = none)
  (sorted : batches.Pairwise fun first second => first.time ≤ second.time)
  (committed : commitBatches setup (.genesis start) batches = .ok node)
  (identified : ∀ ordered ∈ batches.flatMap Batch.ordered, ordered.txn.Identified)

include empty sorted committed identified in
/-- From the replies to GET_NYM, GET_SCHEMA, GET_CLAIM_DEF and GET_REVOC_REG the key
that was read and the bytes under it are recomputed, or that there are none. A reply
without an accumulator raises. For a registry definition the key is the right one
exactly if the reader is its author. -/
theorem replies_recompute_leaves
    (attributed : ∀ ordered ∈ batches.flatMap Batch.ordered, ordered.txn.Attributed)
    (versioned : ∀ ordered ∈ batches.flatMap Batch.ordered, ordered.txn.Versioned) :
    (∀ req did, ∃ reply, getNymResult node req did none none = .ok reply ∧
      prepareGetNymForState codec reply = (did,(node.ledger.nyms.nyms did).map codec.encodeNym)) ∧
    (∀ op : GetSchemaOperation, IsIdentifier op.dest → IsVersion op.version →
      ∃ reply, getSchemaResult node op = .ok reply ∧ prepareGetSchemaForState codec op.dest reply =
        (makeStatePathForSchema op.dest.val op.name op.version,
          encoded codec (node.ledger.state (makeStatePathForSchema op.dest.val op.name op.version)))) ∧
    (∀ op : GetClaimDefOperation, prepareGetClaimDefForState codec op (getClaimDefResult node op) =
      (makeStatePathForClaimDef op.origin.val op.ref op.signatureType (getReadClaimDefTag op),
        encoded codec (node.ledger.state
          (makeStatePathForClaimDef op.origin.val op.ref op.signatureType (getReadClaimDefTag op))))) ∧
    (∀ id timestamp, id ≠ "" →
      let stored := encoded codec (readAtTime node (fun ledger =>
        ledger.state (Revocation.revocAccumPath id)) timestamp)
      prepareGetRevocRegEntryAccumForState codec (getRevocRegResult node id timestamp) =
        match stored with
        | none => .error .attributeError
        | some bytes => .ok (Revocation.revocAccumPath id,bytes)) ∧
    ∀ ordered ∈ batches.flatMap Batch.ordered, ∀ req op, ordered.txn = .revocDef req op →
      ∀ reader, (∀ did, reader = some did → IsIdentifier did) →
        (prepareGetRevocDefForState reader op = revocDefPath req.identifier op ↔ reader = req.identifier) := by
  have consistent := (Consistent.genesis setup start).commitBatches setup batches (by simp) sorted committed
  have run := consistent.run
  rw [List.nil_append] at run
  have held := run.objects setup identified empty
  refine ⟨?_,?_,?_,?_,?_⟩
  · intro req did
    refine ⟨_,rfl,?_⟩
    cases found : node.ledger.nyms.nyms did <;> simp [prepareGetNymForState,NymReply.of,NymReply.update,found]
  · intro op shaped version
    have last := (held "2" (by decide) _ (op.marked shaped)).trans
      (lastObject_schema _ _ identified versioned op shaped version)
    have schemas : ∀ leaf, node.ledger.state (makeStatePathForSchema op.dest.val op.name op.version) = some leaf →
        ∃ attrNames, leaf.value = .schema attrNames ∧ attrNames ≠ [] := by
      intro leaf found
      obtain ⟨ordered,member,req,written,shape,value⟩ := lastSchema_origin _ _ op leaf (last.symm.trans found)
      exact ⟨written.attrNames,value,attributed ordered member req written shape⟩
    refine ⟨⟨op.name,op.version,.of (node.ledger.state _)⟩,?_,prepareGetSchema_of codec op.dest op.name op.version _
      schemas⟩
    rw [getSchemaResult,getSchema]
    cases found : node.ledger.state (makeStatePathForSchema op.dest.val op.name op.version) with
    | none => rfl
    | some leaf =>
      obtain ⟨attrNames,value,_⟩ := schemas leaf found
      simp [ReadReply.of,value]
  · intro op
    exact prepareGetClaimDef_of codec op _
  · intro id timestamp named
    rw [getRevocRegResult,readAtTime_accum setup empty sorted committed identified id timestamp]
    cases (entriesOf id start.txnTypes.length (historyUpTo batches timestamp)).getLast? with
    | none => rfl
    | some entry => exact prepareGetRevocReg_of codec id entry named
  · intro ordered member req op shape reader shaped
    refine prepareGetRevocDef_iff reader req.identifier op shaped ?_
    intro did authored
    refine (identified ordered member).author did ?_
    rw [shape]
    exact authored

end Objects

section Attributes
variable {ι : Type} (codec : StateCodec ι) (setup : Setup)

private theorem extract_query (did : Did) (field : AttrType) (name : String) :
    extractAttrTypedValue (attrQuery did field name) = .ok (field,name) := by
  cases field <;> rfl

private theorem withData_query (did : Did) (field : AttrType) (name data : String) :
    withData (attrQuery did field name) field data = attrQuery did field data := by
  cases field <;> rfl

private theorem prepareGetAttr_absent (did : Did) (field : AttrType) (name : String) (reply : AttrReply)
    (absent : truthy reply.data = false) :
    prepareGetAttrForState codec setup (attrQuery did field name) reply =
      .ok (queryPath setup did field name,none) := by
  simp only [prepareGetAttrForState,extract_query,ok_bind,absent,Bool.false_eq_true,if_false]
  cases field <;> rfl

private theorem prepareGetAttr_present (did : Did) (field : AttrType) (name data key : String) (value : Option String)
    (seqNo time : Nat) (nonempty : data ≠ "")
    (parsed : parseAttrTxn setup (attrQuery did field data) = .ok (field,key,value)) :
    prepareGetAttrForState codec setup (attrQuery did field name) ⟨some data,some seqNo,some time⟩ =
      .ok (queryPath setup did field key,
        some (codec.encodeStateValue (.attrib (hashedValue setup value)) (some seqNo) (some time))) := by
  have given : truthy (some data) = true := by simpa [truthy] using nonempty
  simp only [prepareGetAttrForState,extract_query,ok_bind,given,if_true,withData_query,Option.getD_some,parsed]
  rfl

def DomainTxn.Reparsed (txn : DomainTxn ι) : Prop :=
  ∀ req op raw data, txn = .attrib req op → op.raw = some raw → setup.nym.loads raw = .ok data →
    setup.nym.loads (setup.dumps data) = .ok data

private theorem existing_raw (op : AttribOperation) (raw : String) (only : op.existing = [(.raw,raw)]) :
    op.raw = some raw := by
  obtain ⟨dest,given,enc,hash⟩ := op
  cases given with
  | none => cases enc <;> cases hash <;> simp [AttribOperation.existing,allAttrKeys,AttribOperation.get] at only
  | some text =>
    have first := congrArg List.head? only
    simpa [AttribOperation.existing,allAttrKeys,AttribOperation.get] using first

private theorem attributesOf_parsed {index : Nat} {history : List (Ordered ι)} {item : Attribute}
    (member : item ∈ attributesOf setup index history) :
    ∃ ordered ∈ history, ∃ req op, ordered.txn = .attrib req op ∧
      parseAttrTxn setup op = .ok (item.field,item.key,item.value) := by
  obtain ⟨place,listed,read⟩ := List.mem_filterMap.mp member
  rw [attributeTxn] at read
  split at read
  · rename_i req op shape
    split at read
    · rename_i field key value parsed
      obtain rfl := Option.some.inj read
      exact ⟨place.1,List.fst_mem_of_mem_zipIdx listed,req,op,shape,parsed⟩
    · cases read
  · cases read

private theorem attributesOf_raw (index : Nat) (history : List (Ordered ι))
    (reparsed : ∀ ordered ∈ history, ordered.txn.Reparsed setup) (item : Attribute)
    (member : item ∈ attributesOf setup index history) (raw : item.field = .raw) :
    ∃ data, item.value = some (setup.dumps data) ∧ poppedKey data = .ok item.key ∧
      setup.nym.loads (setup.dumps data) = .ok data := by
  obtain ⟨ordered,listed,req,op,shape,parsed⟩ := attributesOf_parsed setup member
  rw [parseAttrTxn,raw] at parsed
  split at parsed
  · rename_i text only
    obtain ⟨data,loaded,parsed⟩ := bind_success _ _ _ parsed
    obtain ⟨popped,first,parsed⟩ := bind_success _ _ _ parsed
    simp only [pure,Except.pure,Except.ok.injEq,Prod.mk.injEq] at parsed
    obtain ⟨-,key,value⟩ := parsed
    exact ⟨data,value.symm,key ▸ first,reparsed ordered listed req op text data shape (existing_raw op text only) loaded⟩
  all_goals simp at parsed

private theorem parse_reply {index : Nat} {history : List (Ordered ι)} (item : Attribute)
    (member : item ∈ attributesOf setup index history) (valued : item.Valued) (data : String)
    (returned : data = if item.field = .hash then item.key else item.value.getD "")
    (reparsed : ∀ ordered ∈ history, ordered.txn.Reparsed setup) :
    parseAttrTxn setup (attrQuery item.dest item.field data) = .ok (item.field,item.key,item.value) := by
  subst returned
  rw [Attribute.Valued] at valued
  cases field : item.field with
  | raw =>
    obtain ⟨json,value,popped,loaded⟩ := attributesOf_raw setup index history reparsed item member field
    simp [parseAttrTxn,attrQuery,AttribOperation.existing,allAttrKeys,AttribOperation.get,value,loaded,popped,pure,
      Except.pure]
  | enc =>
    rw [field] at valued
    simp [parseAttrTxn,attrQuery,AttribOperation.existing,allAttrKeys,AttribOperation.get,valued]
  | hash =>
    rw [field] at valued
    simp [parseAttrTxn,attrQuery,AttribOperation.existing,allAttrKeys,AttribOperation.get,valued]

private theorem attributesOf_worded (index : Nat) (history : List (Ordered ι))
    (worded : ∀ ordered ∈ history, ordered.txn.Worded setup) (item : Attribute)
    (member : item ∈ attributesOf setup index history) : item.value ≠ some "" := by
  intro empty
  obtain ⟨ordered,listed,req,op,shape,parsed⟩ := attributesOf_parsed setup member
  rw [empty] at parsed
  exact worded ordered listed req op item.field item.key shape parsed

def returnedData (item : Attribute) : String := if item.field = .hash then item.key else item.value.getD ""

private theorem replyFor_own (node : Committed ι) {attributes : List Attribute}
    (holds : Holds setup attributes node.ledger)
    (item : Attribute) (member : item ∈ attributes) :
    replyFor setup node item.field item.key (some item) =
      ⟨some (returnedData item),some item.seqNo,some item.time⟩ := by
  rw [replyFor,returnedData]
  by_cases hash : item.field = .hash
  · rw [if_pos hash,if_pos hash]
  · obtain ⟨text,value⟩ := (holds.valued item member).text hash
    rw [if_neg hash,if_neg hash,value,holds.store item member text value]
    rfl

variable [DecidableEq ι] [Revocation.PyStr ι] [PyHash ι] [LE ι] [DecidableLE ι]
  (collisionFree : Function.Injective setup.sha256) (digest : ∀ text, setup.sha256 text ≠ "")

include collisionFree digest in
/-- From the reply to a GET_ATTR the key that was asked for and the bytes under it are
recomputed if the last attribute there is of the kind asked for, or if there is none.
A hash is not, once an attribute of another kind has taken its place. -/
theorem attribute_reply_recomputes_leaf (start : Ledger ι) (history : List (Ordered ι)) (node : Committed ι)
    (empty : ∀ path, start.state path = none) (identified : ∀ ordered ∈ history, ordered.txn.Identified)
    (worded : ∀ ordered ∈ history, ordered.txn.Worded setup) (run : Run setup start history node.ledger)
    (reparsed : ∀ ordered ∈ history, ordered.txn.Reparsed setup)
    (did : Did) (shaped : IsIdentifier did) (field : AttrType) (name : String) (named : name ≠ "")
    (req : Request) :
    ∃ reply, getAttrResult setup node req (attrQuery did field name) none none = .ok reply ∧
      ((∀ last, latest (fun item => item.path setup = queryPath setup did field name)
          (attributesOf setup start.txnTypes.length history) = some last → last.field = field) →
        prepareGetAttrForState codec setup (attrQuery did field name) reply =
          .ok (queryPath setup did field name,
            encoded codec (node.ledger.state (queryPath setup did field name)))) ∧
      ∀ last, latest (fun item => item.path setup = queryPath setup did field name)
          (attributesOf setup start.txnTypes.length history) = some last → last.field ≠ .hash → field = .hash →
        Function.Injective (fun hashed => codec.encodeStateValue (.attrib hashed) (some last.seqNo) (some last.time)) →
        prepareGetAttrForState codec setup (attrQuery did field name) reply ≠
          .ok (queryPath setup did field name,
            encoded codec (node.ledger.state (queryPath setup did field name))) := by
  have holds := run.holds setup collisionFree digest identified empty
  have marked : Marked "1" (queryPath setup did field name) := ⟨did.val,shaped.plain,attrPath_under _ _⟩
  have answer : getAttrResult setup node req (attrQuery did field name) none none =
      .ok (replyFor setup node field name
        (latest (fun item => item.path setup = queryPath setup did field name)
          (attributesOf setup start.txnTypes.length history))) := by
    rw [getAttrResult_current,holds.state _ marked,attrResult_leaf]
  refine ⟨_,answer,?_,?_⟩
  · intro kinds
    rw [holds.state _ marked]
    cases found : latest (fun item => item.path setup = queryPath setup did field name)
        (attributesOf setup start.txnTypes.length history) with
    | none => exact prepareGetAttr_absent codec setup did field name _ rfl
    | some last =>
      obtain ⟨member,same⟩ := latest_some _ _ _ found
      obtain rfl := kinds last found
      obtain ⟨rfl,rfl⟩ := samePath_key setup collisionFree did shaped last.field name last
        (holds.shaped last member) rfl (of_decide_eq_true same)
      have nonempty : returnedData last ≠ "" := by
        rw [returnedData]
        by_cases hash : last.field = .hash
        · rwa [if_pos hash]
        · obtain ⟨text,value⟩ := (holds.valued last member).text hash
          rw [if_neg hash,value]
          exact fun blank => attributesOf_worded setup _ history worded last member (value.trans (congrArg some blank))
      rw [replyFor_own setup node holds last member]
      exact prepareGetAttr_present codec setup last.dest last.field last.key _ last.key last.value last.seqNo last.time
        nonempty (parse_reply setup last member (holds.valued last member) _ rfl reparsed)
  · rintro last found other rfl differ same
    obtain ⟨member,_⟩ := latest_some _ _ _ found
    obtain ⟨text,value⟩ := (holds.valued last member).text other
    have prepared := prepareGetAttr_present codec setup did .hash name name name none last.seqNo last.time named rfl
    rw [found,holds.state _ marked,found] at same
    have bytes := (Prod.mk.inj (Except.ok.inj (prepared.symm.trans same))).2
    have hashes : hashedValue setup none = hashedValue setup last.value := differ (Option.some.inj bytes)
    have blank : hashedValue setup none = "" := by simp [hashedValue,truthy]
    rw [blank,value,hashedValue] at hashes
    have filled : truthy (some text) = true := by
      have fine := attributesOf_worded setup _ history worded last member
      simpa [truthy,value] using fine
    rw [if_pos filled] at hashes
    exact digest _ hashes.symm

end Attributes

def plainCodec : StateCodec Nat := ⟨fun _ seqNo time => [.ofNat (seqNo.getD 0),.ofNat (time.getD 0)],fun _ => []⟩

private theorem sampleHistory_attributed : ∀ ordered ∈ sampleHistory, ordered.txn.Attributed := by
  intro ordered member req op shape
  simp only [sampleHistory,List.mem_cons,List.not_mem_nil,or_false] at member
  rcases member with rfl | rfl | rfl | rfl | rfl
  · obtain ⟨rfl,rfl⟩ := DomainTxn.schema.inj shape
    decide
  all_goals cases shape

theorem sample_accumulator_recomputed :
    prepareGetRevocRegEntryAccumForState plainCodec (getRevocRegResult afterSample registryId 25) =
      .ok (Revocation.revocAccumPath registryId,[5,20]) ∧
    prepareGetRevocRegEntryAccumForState plainCodec (getRevocRegResult afterSample registryId 15) =
      .error .attributeError := by
  obtain ⟨_,_,_,accums,_⟩ := replies_recompute_leaves plainCodec plainSetup (fun _ => rfl) (by decide)
    sampleBatches_committed sampleHistory_identified sampleHistory_attributed sampleBatches_versioned
  refine ⟨(accums registryId 25 (by decide)).trans rfl,(accums registryId 15 (by decide)).trans rfl⟩

theorem name_recomputed : ∃ reply,
    getAttrResult markSetup ⟨withName,fun _ => none,[]⟩ signedByOwner (attrQuery ownerDid .raw "name") none none =
      .ok reply ∧
    prepareGetAttrForState plainCodec markSetup (attrQuery ownerDid .raw "name") reply =
      .ok (makeStatePathForAttr ownerDid.val "#name",some [2,10]) := by
  have reparsed : ∀ ordered ∈ nameHistory.take 1, ordered.txn.Reparsed markSetup := by
    intro ordered member req op raw data shape given loaded
    obtain rfl := List.mem_singleton.mp member
    obtain ⟨rfl,rfl⟩ := DomainTxn.attrib.inj shape
    obtain rfl := Option.some.inj given
    exact loaded
  obtain ⟨reply,read,recomputed,_⟩ := attribute_reply_recomputes_leaf plainCodec markSetup markSetup_collisionFree
    markSetup_digest (ownerLedger .trustee) (nameHistory.take 1) ⟨withName,fun _ => none,[]⟩ (fun _ => rfl)
    (fun ordered member => nameHistory_identified ordered (List.mem_of_mem_take member))
    (fun ordered member => nameHistory_worded ordered (List.mem_of_mem_take member))
    (.step [] _ _ _ .start name_added) reparsed ownerDid (by decide) .raw "name" (by decide) signedByOwner
  refine ⟨reply,read,(recomputed ?_).trans rfl⟩
  intro last found
  have same : latest (fun item => item.path markSetup = queryPath markSetup ownerDid .raw "name")
      (attributesOf markSetup 1 (nameHistory.take 1)) = some ⟨ownerDid,.raw,"name",some (rawName "x"),2,10⟩ := by
    decide
  rw [← Option.some.inj (same.symm.trans found)]

end IndyNode.Domain

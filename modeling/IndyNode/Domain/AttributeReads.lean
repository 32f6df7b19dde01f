import IndyNode.Domain.AttributeHistory
import IndyNode.Domain.Versions

/-! `GetAttributeHandler`. Attributes of all three kinds share one space of names, in
which a later one takes the place of an earlier one of whatever kind. -/
namespace IndyNode.Domain
open Authorize Nym

structure AttrReply where
  data : Option String
  lastSeqNo : Option Nat
  updateTime : Option Nat
deriving DecidableEq

section Handler
variable {ι : Type} (setup : Setup)

/-- `_get_attr_type`. -/
def getAttrType (op : AttribOperation) : AttrType :=
  if op.raw.isSome then .raw else if op.enc.isSome then .enc else .hash

/-- The result made from what was found. A value that is missing from the attribute
store is reported as `None`. -/
def attrResult (node : Committed ι) (field : AttrType) (name : String) :
    Option (Leaf ι) → Except Raised AttrReply
  | none => .ok ⟨none,none,none⟩
  | some leaf =>
    if field = .hash then .ok ⟨some name,some leaf.seqNo,some leaf.updateTime⟩
    else
      match leaf.value with
      | .attrib storeKey =>
        .ok ⟨node.ledger.attributes storeKey,some leaf.seqNo,some leaf.updateTime⟩
      | _ => .error .typeError

/-- `GetAttributeHandler.get_result`. -/
def getAttrResult (node : Committed ι) (req : Request) (op : AttribOperation)
    (seqNo : Option Nat) (timestamp : Option Int) : Except Raised AttrReply := do
  checkVersion req seqNo timestamp
  raiseIf req (op.existing.length ≠ 1) "100 should have one and only one of raw, enc, hash"
  let field := getAttrType op
  match op.get field with
  | none => throw .keyError
  | some name =>
    let path := makeStatePathForAttr op.dest.val (attrNameHash setup field name)
    attrResult node field name (← lookupVersion node (fun ledger => ledger.state path) seqNo timestamp)

/-- A GET_ATTR of one kind. -/
def attrQuery (did : Did) (field : AttrType) (name : String) : AttribOperation :=
  ⟨did,if field = .raw then some name else none,if field = .enc then some name else none,
    if field = .hash then some name else none⟩

def queryPath (did : Did) (field : AttrType) (name : String) : String :=
  makeStatePathForAttr did.val (attrNameHash setup field name)

theorem getAttrResult_current (node : Committed ι) (req : Request) (did : Did) (field : AttrType)
    (name : String) : getAttrResult setup node req (attrQuery did field name) none none =
      attrResult node field name (node.ledger.state (queryPath setup did field name)) := by
  cases field <;> rfl

/-- The reply when an attribute is the latest under the path of the query. -/
def replyFor (node : Committed ι) (field : AttrType) (name : String) : Option Attribute → AttrReply
  | none => ⟨none,none,none⟩
  | some item => ⟨if field = .hash then some name else node.ledger.attributes (hashedValue setup item.value),
      some item.seqNo,some item.time⟩

theorem attrResult_leaf (node : Committed ι) (field : AttrType) (name : String) (found : Option Attribute) :
    attrResult node field name (found.map (Attribute.leaf setup)) = .ok (replyFor setup node field name found) := by
  cases found with
  | none => rfl
  | some item => cases field <;> rfl

end Handler

/-- What should be returned: the value of the latest RAW for the name, an ENC or HASH
that was ever written, and nothing otherwise, whatever there is of other kinds. -/
def expectedReply (did : Did) (field : AttrType) (name : String) (attributes : List Attribute) : AttrReply :=
  match latest (fun item => item.dest = did ∧ item.field = field ∧ item.key = name) attributes with
  | none => ⟨none,none,none⟩
  | some item => ⟨if field = .raw then item.value else some name,some item.seqNo,some item.time⟩

section Runs
variable {ι : Type} [DecidableEq ι] [Revocation.PyStr ι] [PyHash ι] [LE ι] [DecidableLE ι]
  (setup : Setup) (collisionFree : Function.Injective setup.sha256)
  (digest : ∀ text, setup.sha256 text ≠ "")

include collisionFree in
theorem samePath_key (did : Did) (shaped : IsIdentifier did) (field : AttrType) (name : String)
    (item : Attribute) (itemShaped : IsIdentifier item.dest) (kind : item.field = field)
    (same : item.path setup = queryPath setup did field name) : item.dest = did ∧ item.key = name := by
  obtain ⟨dest,hash⟩ := attrPath_inj item.dest did _ _ itemShaped.clean shaped.clean same
  refine ⟨dest,?_⟩
  rw [kind] at hash
  by_cases plain : field = .hash
  · simpa [attrNameHash,plain] using hash
  · exact collisionFree (by simpa [attrNameHash,plain] using hash)

omit [DecidableEq ι] [Revocation.PyStr ι] [PyHash ι] [LE ι] [DecidableLE ι] in
include collisionFree in
private theorem Holds.reply_of_kind {attributes : List Attribute} {node : Committed ι}
    (holds : Holds setup attributes node.ledger) (did : Did) (shaped : IsIdentifier did)
    (field : AttrType) (name : String) (last : Attribute)
    (found : latest (fun item => item.path setup = queryPath setup did field name) attributes = some last)
    (kind : last.field = field) :
    replyFor setup node field name (some last) = expectedReply did field name attributes := by
  obtain ⟨member,same⟩ := latest_some _ _ _ found
  obtain ⟨dest,key⟩ := samePath_key setup collisionFree did shaped field name last (holds.shaped last member)
    kind (of_decide_eq_true same)
  have narrowed : latest (fun item => item.dest = did ∧ item.field = field ∧ item.key = name) attributes =
      some last := by
    refine latest_narrow _ _ attributes last ?_ found (by simp [dest,kind,key])
    intro item own
    obtain ⟨rfl,rfl,rfl⟩ := of_decide_eq_true own
    exact decide_eq_true rfl
  have valued := holds.valued last member
  simp only [expectedReply,narrowed,replyFor]
  cases field with
  | hash => rfl
  | raw =>
    obtain ⟨text,value⟩ := valued.text (by simp [kind])
    simp [value,holds.store last member text value]
  | enc =>
    have value : last.value = some name := by simpa [Attribute.Valued,kind,key] using valued
    simp [value,holds.store last member name value]

omit [DecidableEq ι] [Revocation.PyStr ι] [PyHash ι] [LE ι] [DecidableLE ι] in
private theorem Holds.reply_of_other {attributes : List Attribute} {node : Committed ι}
    (holds : Holds setup attributes node.ledger) (did : Did) (field : AttrType) (name : String)
    (last : Attribute) (member : last ∈ attributes) (kind : last.field ≠ field) :
    replyFor setup node field name (some last) ≠ expectedReply did field name attributes := by
  intro same
  have numbers := congrArg AttrReply.lastSeqNo same
  simp only [expectedReply,replyFor] at numbers
  split at numbers
  · simp at numbers
  · rename_i other found
    obtain ⟨inside,own⟩ := latest_some _ _ _ found
    obtain rfl := holds.distinct last member other inside (Option.some.inj numbers)
    exact kind (of_decide_eq_true own).2.1

private theorem expectedReply_none (did : Did) (field : AttrType) (name : String) (attributes : List Attribute)
    (absent : latest (fun item => item.path setup = queryPath setup did field name) attributes = none) :
    expectedReply did field name attributes = ⟨none,none,none⟩ := by
  have none : latest (fun item => item.dest = did ∧ item.field = field ∧ item.key = name) attributes =
      none := by
    rw [latest_none] at absent ⊢
    intro item member
    refine decide_eq_false ?_
    rintro ⟨rfl,rfl,rfl⟩
    exact of_decide_eq_false (absent item member) rfl
  rw [expectedReply,none]

include collisionFree digest in
/-- GET_ATTR returns what was last written for the query exactly when the last
attribute under its path is of the kind asked for; a hash is always reported. -/
theorem getAttr_kind_iff (start : Ledger ι) (history : List (Ordered ι)) (node : Committed ι)
    (empty : ∀ path, start.state path = none) (identified : ∀ ordered ∈ history, ordered.txn.Identified)
    (run : Run setup start history node.ledger) (did : Did) (shaped : IsIdentifier did) (field : AttrType)
    (name : String) (req : Request) :
    (getAttrResult setup node req (attrQuery did field name) none none =
        .ok (expectedReply did field name (attributesOf setup start.txnTypes.length history)) ↔
      ∀ last, latest (fun item => item.path setup = queryPath setup did field name)
        (attributesOf setup start.txnTypes.length history) = some last → last.field = field) ∧
    ((∃ item ∈ attributesOf setup start.txnTypes.length history,
        item.dest = did ∧ item.field = .hash ∧ item.key = name) →
      ∃ reply, getAttrResult setup node req (attrQuery did .hash name) none none = .ok reply ∧
        reply.data = some name) := by
  have holds := run.holds setup collisionFree digest identified empty
  generalize attributesOf setup start.txnTypes.length history = attributes at holds
  have answer : ∀ field, getAttrResult setup node req (attrQuery did field name) none none =
      .ok (replyFor setup node field name
        (latest (fun item => item.path setup = queryPath setup did field name) attributes)) := by
    intro field
    have marked : Marked "1" (queryPath setup did field name) := ⟨did.val,shaped.plain,attrPath_under _ _⟩
    rw [getAttrResult_current,holds.state _ marked,attrResult_leaf]
  refine ⟨?_,?_⟩
  · rw [answer field,Except.ok.injEq]
    cases found : latest (fun item => item.path setup = queryPath setup did field name) attributes with
    | none => simp [replyFor,expectedReply_none setup did field name attributes found]
    | some last =>
      by_cases kind : last.field = field
      · refine iff_of_true (holds.reply_of_kind setup collisionFree did shaped field name last found kind) ?_
        intro other same
        rwa [← Option.some.inj same]
      · refine iff_of_false ?_ fun every => kind (every last rfl)
        exact holds.reply_of_other setup did field name last (latest_some _ _ _ found).1 kind
  · rintro ⟨item,member,rfl,kind,rfl⟩
    refine ⟨_,answer .hash,?_⟩
    cases found : latest (fun other => other.path setup = queryPath setup item.dest .hash item.key) attributes with
    | none =>
      rw [latest_none] at found
      have apart := of_decide_eq_false (found item member)
      exact absurd (by rw [Attribute.path,kind,queryPath]) apart
    | some last => rfl

end Runs

def secretOperation : AttribOperation := ⟨ownerDid,none,some "secret",none⟩

def withSecret : Ledger Nat :=
  {withName.append attribType (Function.update withName.state
    (makeStatePathForAttr ownerDid.val "#secret") (some ⟨.attrib "#secret",3,20⟩)) with
      attributes := Function.update withName.attributes "#secret" (some "secret")}

private theorem secret_added : applyTxn markSetup withName ⟨.attrib signedByOwner secretOperation,20,Nat.succ_pos _⟩ =
    .ok withSecret := by
  have told := attribDynamicValidation_told .configLedger (fun _ => "") markSetup withName
    signedByOwner secretOperation (ownerRecord .trustee).cacheEntry .enc "secret" "secret" none none
    rfl rfl rfl (by decide) (by decide) (by decide) (by decide)
    ((splitActionId_head_iff _ (Built.attrib .enc none none "secret" true).headClean).mpr
      ((attribAction_values .enc none none "secret" true).mpr (by decide)))
  exact applyTxn_attrib markSetup _ _ 20 _ _ .enc "secret" (some "secret") (by decide) told.2 (by decide)

theorem secret_timed : 0 < 20 := by decide

def secretHistory : List (Ordered Nat) :=
  nameHistory.take 1 ++ [⟨.attrib signedByOwner secretOperation,20,secret_timed⟩]

private theorem secretHistory_identified : ∀ ordered ∈ secretHistory, ordered.txn.Identified := by
  have shaped : IsIdentifier ownerDid := by decide
  intro ordered member
  rcases List.mem_append.mp member with earlier | last
  · exact nameHistory_identified ordered (List.mem_of_mem_take earlier)
  · rw [List.mem_singleton.mp last]
    refine ⟨fun author authored => Option.some.inj authored ▸ shaped,?_⟩
    rintro req other same
    cases same
    exact shaped

theorem name_and_secret_read :
    getAttrResult markSetup ⟨withSecret,fun _ => none,[]⟩ signedByOwner (attrQuery ownerDid .raw "name") none none =
      .ok ⟨some (rawName "x"),some 2,some 10⟩ ∧
    getAttrResult markSetup ⟨withSecret,fun _ => none,[]⟩ signedByOwner (attrQuery ownerDid .enc "secret") none none =
      .ok ⟨some "secret",some 3,some 20⟩ := by
  have reads := fun field name => getAttr_kind_iff markSetup markSetup_collisionFree markSetup_digest
    (ownerLedger .trustee) secretHistory ⟨withSecret,fun _ => none,[]⟩ (fun _ => rfl) secretHistory_identified
    (.step _ withName _ _ (.step [] _ _ _ .start name_added) secret_added) ownerDid (by decide) field name
    signedByOwner
  constructor
  · refine (reads .raw "name").1.mpr fun last found => ?_
    have same : latest (fun item => item.path markSetup = queryPath markSetup ownerDid .raw "name")
        (attributesOf markSetup 1 secretHistory) = some ⟨ownerDid,.raw,"name",some (rawName "x"),2,10⟩ := by
      decide
    rw [← Option.some.inj (same.symm.trans found)]
  · refine (reads .enc "secret").1.mpr fun last found => ?_
    have same : latest (fun item => item.path markSetup = queryPath markSetup ownerDid .enc "secret")
        (attributesOf markSetup 1 secretHistory) = some ⟨ownerDid,.enc,"secret",some "secret",3,20⟩ := by
      decide
    rw [← Option.some.inj (same.symm.trans found)]

/-- A hash that is the hash of the name hides the raw attribute of that name. -/
theorem name_hidden : Run markSetup (ownerLedger .trustee) nameHistory withHash ∧
    getAttrResult markSetup ⟨withHash,fun _ => none,[]⟩ signedByOwner (attrQuery ownerDid .raw "name") none none =
      .ok ⟨none,some 3,some 20⟩ ∧
    expectedReply ownerDid .raw "name" (attributesOf markSetup 1 nameHistory) =
      ⟨some (rawName "x"),some 2,some 10⟩ := by
  refine ⟨nameHistory_run,?_,?_⟩
  · decide
  · decide

end IndyNode.Domain

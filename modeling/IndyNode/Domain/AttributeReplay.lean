import IndyNode.Domain.AttributeHistory

/-! The ledger holds an attribute as its hash. Transactions that are restored from the
attribute store and applied again give the state they gave when they were ordered. -/
namespace IndyNode.Domain
open Authorize Nym

/-- An ATTRIB with its place and time, as ordered or as the ledger holds it. -/
structure AttribTxn where
  op : AttribOperation
  seqNo : Nat
  time : Nat
deriving DecidableEq

section Replay
variable {ι : Type} (setup : Setup)

def transformTxnForLedger (op : AttribOperation) : Except Raised AttribOperation := do
  let (field,_,value) ← parseAttrTxn setup op
  match field with
  | .raw => return {op with raw := some (hashedValue setup value)}
  | .enc => return {op with enc := some (hashedValue setup value)}
  | .hash => return op

/-- `attributeStore.get`. -/
def fetch (attributes : String → Option String) (hashed : String) : Except Raised String :=
  match attributes hashed with
  | none => .error .keyError
  | some value => .ok value

def updateTxnWithExtraData (attributes : String → Option String) (op : AttribOperation) :
    Except Raised AttribOperation :=
  match op.raw,op.enc with
  | some hashed,_ => do return {op with raw := some (← fetch attributes hashed)}
  | none,some hashed => do return {op with enc := some (← fetch attributes hashed)}
  | none,none => .ok op

def storedForms (txns : List AttribTxn) : Except Raised (List AttribTxn) :=
  txns.mapM fun txn => do return {txn with op := ← transformTxnForLedger setup txn.op}

/-- A transaction of the ledger is restored and applied, without any validation. -/
def replayTxn (ledger : Ledger ι) (txn : AttribTxn) : Except Raised (Ledger ι) := do
  let restored ← updateTxnWithExtraData ledger.attributes txn.op
  let written ← attribUpdateState setup restored ledger txn.seqNo txn.time
  return {ledger with state := written.1,attributes := written.2}

def attribTxn (ordered : Ordered ι) (index : Nat) : Option AttribTxn :=
  match ordered.txn with
  | .attrib _ op => some ⟨op,index + 1,ordered.time⟩
  | _ => none

/-- The ATTRIB transactions of a history that starts behind `index` transactions. -/
def attribTxns (index : Nat) (history : List (Ordered ι)) : List AttribTxn :=
  (history.zipIdx index).filterMap fun place => attribTxn place.1 place.2

/-- `ClientAttribOperation`: raw data is an object with one attribute. -/
def rawShaped (op : AttribOperation) : Bool :=
  match op.raw with
  | none => true
  | some raw =>
    match setup.nym.loads raw with
    | .ok (.obj [_]) => true
    | _ => false

/-- The serializer of raw attributes: what it writes is read with the same name and
written the same again. Inside the value the order of the keys may change. -/
def RoundTrips : Prop :=
  ∀ raw key value, setup.nym.loads raw = .ok (.obj [(key,value)]) →
    ∃ again, setup.nym.loads (setup.dumps (.obj [(key,value)])) = .ok (.obj [(key,again)]) ∧
      setup.dumps (.obj [(key,again)]) = setup.dumps (.obj [(key,value)])

end Replay

section Restored
variable (setup : Setup)

/-- What parsing has found in an operation. -/
inductive Parsed (op : AttribOperation) : AttrType → String → Option String → Prop where
  | raw (text : String) (data : Json) (key : String) (only : op = ⟨op.dest,some text,none,none⟩)
      (loaded : setup.nym.loads text = .ok data) (popped : poppedKey data = .ok key) :
      Parsed op .raw key (some (setup.dumps data))
  | enc (text : String) (only : op = ⟨op.dest,none,some text,none⟩) : Parsed op .enc text (some text)
  | hash (text : String) (only : op = ⟨op.dest,none,none,some text⟩) : Parsed op .hash text none

private theorem parseAttrTxn_parsed (op : AttribOperation) (field : AttrType) (key : String) (value : Option String)
    (ok : parseAttrTxn setup op = .ok (field,key,value)) : Parsed setup op field key value := by
  obtain ⟨dest,raw,enc,hash⟩ := op
  rw [parseAttrTxn] at ok
  rcases raw with _ | raw <;> rcases enc with _ | enc <;> rcases hash with _ | hash <;>
    simp only [AttribOperation.existing,allAttrKeys,AttribOperation.get,List.filterMap_cons,List.filterMap_nil,
      Option.map_none,Option.map_some] at ok <;> try (simp at ok; done)
  · obtain ⟨rfl,rfl,rfl⟩ := Except.ok.inj ok
    exact .hash _ rfl
  · obtain ⟨rfl,rfl,rfl⟩ := Except.ok.inj ok
    exact .enc _ rfl
  · obtain ⟨data,loaded,ok⟩ := bind_success _ _ _ ok
    obtain ⟨popped,found,ok⟩ := bind_success _ _ _ ok
    obtain ⟨rfl,rfl,rfl⟩ := Except.ok.inj ok
    exact .raw raw data _ rfl loaded found

/-- An attribute whose value is in the store comes back from the ledger with the same
name and value. -/
theorem restored_parses (trips : RoundTrips setup) (attributes : String → Option String)
    (op : AttribOperation) (shaped : rawShaped setup op = true) (field : AttrType) (key : String)
    (value : Option String) (ok : parseAttrTxn setup op = .ok (field,key,value))
    (kept : ∀ text, value = some text → attributes (hashedValue setup (some text)) = some text) :
    ∃ stored restored, transformTxnForLedger setup op = .ok stored ∧
      updateTxnWithExtraData attributes stored = .ok restored ∧ restored.dest = op.dest ∧
      parseAttrTxn setup restored = .ok (field,key,value) := by
  have parsed := parseAttrTxn_parsed setup op field key value ok
  cases parsed with
  | raw text data _ only loaded popped =>
    have found := kept (setup.dumps data) rfl
    obtain ⟨member,rfl⟩ : ∃ member, data = .obj [member] := by
      rw [only] at shaped
      simp only [rawShaped,loaded] at shaped
      split at shaped
      · rename_i member same
        exact ⟨member,Except.ok.inj same⟩
      · simp at shaped
    obtain ⟨name,inner⟩ := member
    obtain ⟨again,reloaded,same⟩ := trips text name inner loaded
    obtain rfl : name = key := Except.ok.inj popped
    refine ⟨{op with raw := some (hashedValue setup (some (setup.dumps (.obj [(name,inner)]))))},
      {op with raw := some (setup.dumps (.obj [(name,inner)]))},?_,?_,rfl,?_⟩
    · rw [transformTxnForLedger,ok]
      rfl
    · simp [updateTxnWithExtraData,fetch,found]
    · rw [only]
      simp [parseAttrTxn,AttribOperation.existing,allAttrKeys,AttribOperation.get,reloaded,poppedKey,same]
  | enc text only =>
    have found := kept key rfl
    refine ⟨{op with enc := some (hashedValue setup (some key))},op,?_,?_,rfl,ok⟩
    · rw [transformTxnForLedger,ok]
      rfl
    · rw [only]
      simp [updateTxnWithExtraData,fetch,found]
  | hash text only =>
    refine ⟨op,op,?_,?_,rfl,ok⟩
    · rw [transformTxnForLedger,ok]
      rfl
    · rw [only]
      rfl

end Restored

section Lists
variable {ι : Type} (setup : Setup)

def AttribTxn.read (txn : AttribTxn) : Option Attribute :=
  match parseAttrTxn setup txn.op with
  | .ok (field,key,value) => some ⟨txn.op.dest,field,key,value,txn.seqNo,txn.time⟩
  | .error _ => none

private theorem attributesOf_eq (index : Nat) (history : List (Ordered ι)) :
    attributesOf setup index history = (attribTxns index history).filterMap (AttribTxn.read setup) := by
  rw [attributesOf,attribTxns,List.filterMap_filterMap]
  congr 1
  funext place
  obtain ⟨⟨txn,time,timed⟩,index⟩ := place
  cases txn <;> rfl

/-- The state with the latest attribute under every path and nothing else. -/
def attributeState (attributes : List Attribute) : State ι :=
  fun path => (latest (fun item => item.path setup = path) attributes).map (Attribute.leaf setup)

private theorem attributeState_snoc (attributes : List Attribute) (item : Attribute) :
    (attributeState setup (attributes ++ [item]) : State ι) =
      Function.update (attributeState setup attributes) (item.path setup) (some (item.leaf setup)) := by
  funext path
  rw [attributeState,latest_snoc]
  by_cases same : item.path setup = path
  · simp [same]
  · rw [Function.update_of_ne (Ne.symm same)]
    simp [same,attributeState]

/-- What replay needs of a transaction: it can be parsed and its value was stored. -/
structure Replayable (attributes : String → Option String) (txn : AttribTxn) (item : Attribute) : Prop where
  shaped : rawShaped setup txn.op = true
  parsed : txn.read setup = some item
  kept : ∀ text, item.value = some text → attributes (hashedValue setup (some text)) = some text
  valued : item.Valued

variable (trips : RoundTrips setup)
include trips

private theorem replayTxn_state (ledger : Ledger ι) (txn : AttribTxn) (item : Attribute)
    (replayable : Replayable setup ledger.attributes txn item) :
    ∃ stored, transformTxnForLedger setup txn.op = .ok stored ∧
      replayTxn setup ledger {txn with op := stored} = .ok {ledger with
        state := Function.update ledger.state (item.path setup) (some (item.leaf setup))} := by
  have read := replayable.parsed
  rw [AttribTxn.read] at read
  split at read
  · rename_i field key value parsed
    obtain rfl := Option.some.inj read
    obtain ⟨stored,restored,transformed,fetched,dest,again⟩ := restored_parses setup trips ledger.attributes
      txn.op replayable.shaped field key value parsed replayable.kept
    refine ⟨stored,transformed,?_⟩
    have unchanged : (if field = .hash then ledger.attributes
        else Function.update ledger.attributes (hashedValue setup value) value) = ledger.attributes := by
      by_cases hash : field = .hash
      · rw [if_pos hash]
      · obtain ⟨text,rfl⟩ := replayable.valued.text hash
        rw [if_neg hash]
        exact Function.update_eq_self_iff.mpr (replayable.kept text rfl).symm
    simp only [replayTxn,fetched,attribUpdateState,again,ok_bind,unchanged,dest]
    rfl
  · simp at read

private theorem replay_state (ledger : Ledger ι) (txns : List AttribTxn) (done : List Attribute)
    (replayable : ∀ txn ∈ txns, ∃ item, Replayable setup ledger.attributes txn item)
    (state : ledger.state = attributeState setup done) :
    ∃ stored, storedForms setup txns = .ok stored ∧ stored.foldlM (replayTxn setup) ledger =
      .ok {ledger with state := attributeState setup (done ++ txns.filterMap (AttribTxn.read setup))} := by
  induction txns generalizing ledger done with
  | nil =>
    refine ⟨[],rfl,?_⟩
    simp [← state]
    rfl
  | cons txn txns ih =>
    obtain ⟨item,now⟩ := replayable txn (by simp)
    obtain ⟨stored,transformed,replayed⟩ := replayTxn_state setup trips ledger txn item now
    obtain ⟨rest,forms,final⟩ := ih {ledger with
      state := Function.update ledger.state (item.path setup) (some (item.leaf setup))} (done ++ [item])
      (fun other member => replayable other (List.mem_cons_of_mem _ member))
      (by rw [attributeState_snoc,state])
    refine ⟨{txn with op := stored} :: rest,?_,?_⟩
    · rw [storedForms,List.mapM_cons,transformed]
      rw [storedForms] at forms
      simp only [ok_bind,pure_bind,forms]
      rfl
    · rw [List.foldlM_cons,replayed,ok_bind,final]
      simp [now.parsed]

end Lists

/-- The attributes among the values of the domain state. -/
def Value.isAttrib {ι : Type} : Value ι → Bool
  | .attrib _ => true
  | _ => false

private theorem WellPlaced.attrib_marked {ι : Type} {path : String} {value : Value ι} (placed : WellPlaced path value)
    (attrib : value.isAttrib = true) : Marked "1" path := by
  cases value with
  | attrib hashed => exact placed
  | _ => simp [Value.isAttrib] at attrib

section Runs
variable {ι : Type} [DecidableEq ι] [Revocation.PyStr ι] [PyHash ι] [LE ι] [DecidableLE ι]
  (setup : Setup)

private theorem Run.parsed {start final : Ledger ι} {history : List (Ordered ι)}
    (run : Run setup start history final) : ∀ ordered ∈ history, ∀ req op, ordered.txn = .attrib req op →
      ∃ parsed, parseAttrTxn setup op = .ok parsed := by
  induction run with
  | start => simp
  | step history before after ordered _ ok ih =>
    refine List.forall_mem_append.mpr ⟨ih,List.forall_mem_singleton.mpr ?_⟩
    intro req op same
    have applied := applyTxn_applied setup before after ordered ok
    rw [same] at applied
    cases applied with
    | attrib _ _ field key value shaped allowed parsed => exact ⟨_,parsed⟩

private theorem Run.allAttrib {start final : Ledger ι} {history : List (Ordered ι)}
    (run : Run setup start history final) (empty : ∀ path, start.state path = none)
    (only : ∀ ordered ∈ history, ∃ req op, ordered.txn = .attrib req op) :
    ∀ path leaf, final.state path = some leaf → leaf.value.isAttrib = true := by
  induction run with
  | start =>
    intro path leaf stored
    simp [empty] at stored
  | step history before after ordered _ ok ih =>
    obtain ⟨req,op,same⟩ := only ordered (by simp)
    have applied := applyTxn_applied setup before after ordered ok
    rw [same] at applied
    cases applied with
    | attrib _ _ field key value shaped allowed parsed =>
      intro path leaf stored
      change Function.update before.state _ _ path = some leaf at stored
      by_cases here : path = makeStatePathForAttr op.dest.val (attrNameHash setup field key)
      · rw [here,Function.update_self] at stored
        rw [← Option.some.inj stored]
        rfl
      · rw [Function.update_of_ne here] at stored
        exact ih (fun other member => only other (List.mem_append_left _ member)) path leaf stored

private theorem attribTxns_replayable {start final : Ledger ι} {history : List (Ordered ι)}
    (run : Run setup start history final)
    (shaped : ∀ ordered ∈ history, ∀ req op, ordered.txn = .attrib req op → rawShaped setup op = true)
    (holds : Holds setup (attributesOf setup start.txnTypes.length history) final) :
    ∀ txn ∈ attribTxns start.txnTypes.length history,
      ∃ item, Replayable setup final.attributes txn item := by
  intro txn member
  obtain ⟨⟨ordered,index⟩,place,read⟩ := List.mem_filterMap.mp member
  have listed : ordered ∈ history := List.fst_mem_of_mem_zipIdx place
  obtain ⟨req,op,same,op_eq⟩ : ∃ req op, ordered.txn = .attrib req op ∧ txn.op = op := by
    obtain ⟨inner,time,timed⟩ := ordered
    cases inner with
    | attrib req op =>
      obtain rfl := Option.some.inj read
      exact ⟨req,op,rfl,rfl⟩
    | _ => simp [attribTxn] at read
  obtain ⟨⟨field,key,value⟩,parsed⟩ := run.parsed setup ordered listed req op same
  have readItem : txn.read setup = some ⟨txn.op.dest,field,key,value,txn.seqNo,txn.time⟩ := by
    rw [AttribTxn.read,op_eq,parsed]
  have inside : (⟨txn.op.dest,field,key,value,txn.seqNo,txn.time⟩ : Attribute) ∈
      attributesOf setup start.txnTypes.length history := by
    rw [attributesOf_eq]
    exact List.mem_filterMap.mpr ⟨txn,member,readItem⟩
  exact ⟨_,op_eq ▸ shaped ordered listed req op same,readItem,holds.store _ inside,holds.valued _ inside⟩

/-- Replaying the ledger form of the attributes of any history gives the attributes
of the live state at every path, and the whole state when nothing else was written. -/
theorem replay_restores_state (collisionFree : Function.Injective setup.sha256)
    (digest : ∀ text, setup.sha256 text ≠ "") (trips : RoundTrips setup) (start final : Ledger ι)
    (history : List (Ordered ι)) (empty : ∀ path, start.state path = none)
    (identified : ∀ ordered ∈ history, ordered.txn.Identified)
    (shaped : ∀ ordered ∈ history, ∀ req op, ordered.txn = .attrib req op → rawShaped setup op = true)
    (run : Run setup start history final) :
    ∃ stored replayed, storedForms setup (attribTxns start.txnTypes.length history) = .ok stored ∧
      stored.foldlM (replayTxn setup) {final with state := fun _ => none} = .ok replayed ∧
      (∀ path, replayed.state path = (final.state path).filter fun leaf => leaf.value.isAttrib) ∧
      ((∀ ordered ∈ history, ∃ req op, ordered.txn = .attrib req op) →
        ∀ path, replayed.state path = final.state path) := by
  have holds := run.holds setup collisionFree digest identified empty
  have typed := run.wellTyped setup identified (.empty start empty)
  have replayable := attribTxns_replayable setup run shaped holds
  obtain ⟨stored,forms,replayed⟩ := replay_state setup trips {final with state := fun _ => none}
    (attribTxns start.txnTypes.length history) [] replayable rfl
  rw [List.nil_append,← attributesOf_eq] at replayed
  have agrees : ∀ path, attributeState setup (attributesOf setup start.txnTypes.length history) path =
      (final.state path).filter fun leaf => leaf.value.isAttrib := by
    intro path
    by_cases marked : Marked "1" path
    · rw [holds.state path marked,attributeState]
      cases latest (fun item => item.path setup = path) (attributesOf setup start.txnTypes.length history) with
      | none => rfl
      | some item => rfl
    · have unread : latest (fun item => item.path setup = path)
          (attributesOf setup start.txnTypes.length history) = none := by
        rw [latest_none]
        intro item member
        refine decide_eq_false ?_
        rintro rfl
        exact marked ⟨_,(holds.shaped item member).plain,attrPath_under _ _⟩
      rw [attributeState,unread]
      cases found : final.state path with
      | none => rfl
      | some leaf =>
        have other : ¬leaf.value.isAttrib = true := fun attrib => marked ((typed path leaf found).attrib_marked attrib)
        simp [Option.filter,other]
  refine ⟨stored,_,forms,replayed,agrees,?_⟩
  intro only path
  refine (agrees path).trans ?_
  cases found : final.state path with
  | none => rfl
  | some leaf => simp [run.allAttrib setup empty only path leaf found]

end Runs

private theorem markSetup_roundTrips : RoundTrips markSetup := by
  intro raw key value loaded
  have only : raw = rawName "x" := by
    by_contra other
    simp [markSetup,nameSetup,other] at loaded
  have data : markSetup.nym.loads (rawName "x") = .ok (.obj [("name",.str "x")]) := rfl
  rw [only,data] at loaded
  cases Except.ok.inj loaded
  exact ⟨_,data,rfl⟩

theorem name_and_hash_replayed : ∃ stored replayed,
    storedForms markSetup (attribTxns 1 nameHistory) = .ok stored ∧
      stored.foldlM (replayTxn markSetup) {withHash with state := fun _ => none} = .ok replayed ∧
      ∀ path, replayed.state path = withHash.state path := by
  have shaped : ∀ ordered ∈ nameHistory, ∀ req op, ordered.txn = .attrib req op →
      rawShaped markSetup op = true := by
    intro ordered member req op same
    simp only [nameHistory,List.mem_cons,List.not_mem_nil,or_false] at member
    rcases member with rfl | rfl
    · cases same
      rfl
    · cases same
      rfl
  obtain ⟨stored,replayed,forms,ok,_,whole⟩ := replay_restores_state markSetup markSetup_collisionFree
    markSetup_digest markSetup_roundTrips (ownerLedger .trustee) withHash nameHistory (fun _ => rfl)
    nameHistory_identified shaped nameHistory_run
  refine ⟨stored,replayed,forms,ok,whole ?_⟩
  intro ordered member
  simp only [nameHistory,List.mem_cons,List.not_mem_nil,or_false] at member
  rcases member with rfl | rfl
  · exact ⟨_,_,rfl⟩
  · exact ⟨_,_,rfl⟩

end IndyNode.Domain

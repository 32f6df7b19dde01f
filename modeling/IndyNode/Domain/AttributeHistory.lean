import IndyNode.Domain.Registry
import IndyNode.Foundation.Latest

/-! The attributes of a history, and where they are found: the state has the hash of
the latest one under each path, the attribute store has every value there ever was. -/
namespace IndyNode.Domain
open Authorize Nym

/-- An ATTRIB as `parse_attr_txn` reads it, with its place in the ledger. -/
structure Attribute where
  dest : Did
  field : AttrType
  key : String
  value : Option String
  seqNo : Nat
  time : Nat
deriving DecidableEq

section Lists
variable {ι : Type} (setup : Setup)

def attributeTxn (ordered : Ordered ι) (index : Nat) : Option Attribute :=
  match ordered.txn with
  | .attrib _ op =>
    match parseAttrTxn setup op with
    | .ok (field,key,value) => some ⟨op.dest,field,key,value,index + 1,ordered.time⟩
    | .error _ => none
  | _ => none

/-- The attributes of a history that starts behind `index` transactions. -/
def attributesOf (index : Nat) (history : List (Ordered ι)) : List Attribute :=
  (history.zipIdx index).filterMap fun place => attributeTxn setup place.1 place.2

private theorem attributesOf_snoc (index : Nat) (history : List (Ordered ι)) (ordered : Ordered ι) :
    attributesOf setup index (history ++ [ordered]) =
      attributesOf setup index history ++ (attributeTxn setup ordered (index + history.length)).toList :=
  places_snoc _ index history ordered

def Attribute.path (item : Attribute) : String :=
  makeStatePathForAttr item.dest.val (attrNameHash setup item.field item.key)

def Attribute.leaf (item : Attribute) : Leaf ι :=
  ⟨.attrib (hashedValue setup item.value),item.seqNo,item.time⟩

end Lists

section Parsed
variable (setup : Setup)

/-- What kind of value a parsed attribute has. -/
def Attribute.Valued (item : Attribute) : Prop :=
  match item.field with
  | .raw => ∃ text, item.value = some text
  | .enc => item.value = some item.key
  | .hash => item.value = none

theorem parseAttrTxn_valued (op : AttribOperation) (field : AttrType) (key : String) (value : Option String)
    (parsed : parseAttrTxn setup op = .ok (field,key,value)) (seqNo time : Nat) :
    Attribute.Valued ⟨op.dest,field,key,value,seqNo,time⟩ := by
  rw [parseAttrTxn] at parsed
  split at parsed
  · obtain ⟨data,_,parsed⟩ := bind_success _ _ _ parsed
    obtain ⟨popped,_,parsed⟩ := bind_success _ _ _ parsed
    obtain ⟨rfl,rfl,rfl⟩ := Except.ok.inj parsed
    exact ⟨_,rfl⟩
  · obtain ⟨rfl,rfl,rfl⟩ := Except.ok.inj parsed
    rfl
  · obtain ⟨rfl,rfl,rfl⟩ := Except.ok.inj parsed
    rfl
  · simp at parsed

theorem Attribute.Valued.text {item : Attribute} (valued : item.Valued)
    (stored : item.field ≠ .hash) : ∃ text, item.value = some text := by
  rw [Attribute.Valued] at valued
  split at valued
  · exact valued
  · exact ⟨_,valued⟩
  · rename_i hash
    exact absurd hash stored

end Parsed

section Hash
variable (setup : Setup) (collisionFree : Function.Injective setup.sha256)
  (digest : ∀ text, setup.sha256 text ≠ "")
include collisionFree digest

private theorem hashedValue_inj (first second : String)
    (same : hashedValue setup (some first) = hashedValue setup (some second)) : first = second := by
  simp only [hashedValue,truthy,Option.getD_some,decide_eq_true_eq] at same
  split at same <;> split at same
  · exact collisionFree same
  · exact absurd same (digest first)
  · exact absurd same.symm (digest second)
  · rename_i blank other
    exact (not_not.mp blank).trans (not_not.mp other).symm

private theorem store_kept (attributes : String → Option String) (text written : String)
    (kept : attributes (hashedValue setup (some text)) = some text) :
    Function.update attributes (hashedValue setup (some written)) (some written)
      (hashedValue setup (some text)) = some text := by
  by_cases same : hashedValue setup (some text) = hashedValue setup (some written)
  · rw [hashedValue_inj setup collisionFree digest text written same,Function.update_self]
  · rw [Function.update_of_ne same]
    exact kept

end Hash

theorem attrPath_inj (first second : Did) (name other : String) (clean : ':' ∉ first.val.toList)
    (otherClean : ':' ∉ second.val.toList)
    (same : makeStatePathForAttr first.val name = makeStatePathForAttr second.val other) :
    first = second ∧ name = other := by
  have lists := congrArg String.toList same
  simp only [makeStatePathForAttr,String.toList_append,List.append_assoc] at lists
  have parts := Separated.joined_inj ':' (first.val.toList,'1' :: ':' :: name.toList)
    (second.val.toList,'1' :: ':' :: other.toList) clean otherClean lists
  obtain ⟨dids,names⟩ := Prod.mk.inj parts
  simp only [List.cons.injEq,true_and] at names
  exact ⟨Subtype.ext (String.toList_inj.mp dids),String.toList_inj.mp names⟩

private theorem paths_attrib {ι : Type} (setup : Setup) (txn : DomainTxn ι) (identified : txn.Identified)
    (path : String) (marked : Marked "1" path) (written : path ∈ txn.paths setup) :
    ∃ req op, txn = .attrib req op := by
  have author := authorText_plain txn.request.identifier identified.author
  have other : ∀ second, ':' ∉ second.toList → second ≠ "1" → ∀ first, Plain first →
      ¬Under first second path := by
    intro second clean differ first plain under
    exact differ (Marked.other ⟨first,plain,under⟩ marked clean (by decide))
  cases txn with
  | nym req => simp [DomainTxn.paths] at written
  | attrib req op => exact ⟨req,op,rfl⟩
  | schema req op =>
    obtain rfl := List.mem_singleton.mp written
    exact absurd (schemaPath_under _ op) (other "2" (by decide) (by decide) _ author)
  | claimDef req op =>
    obtain rfl := List.mem_singleton.mp written
    exact absurd (claimDefPath_under _ op) (other "3" (by decide) (by decide) _ author)
  | revocDef req op =>
    obtain rfl := List.mem_singleton.mp written
    exact absurd (revocDefPath_under _ op) (other "4" (by decide) (by decide) _ author)
  | revocEntry req op =>
    obtain ⟨first,plain,under⟩ := marked
    have apart := under.not_registry plain op.revocRegDefId
    simp only [DomainTxn.paths,List.mem_cons,List.not_mem_nil,or_false] at written
    rcases written with rfl | rfl
    · exact absurd rfl apart.1
    · exact absurd rfl apart.2

section Runs
variable {ι : Type} [DecidableEq ι] [Revocation.PyStr ι] [PyHash ι] [LE ι] [DecidableLE ι]
  (setup : Setup)

/-- What a ledger holds of the attributes written so far. -/
structure Holds (attributes : List Attribute) (ledger : Ledger ι) : Prop where
  state : ∀ path, Marked "1" path → ledger.state path =
    (latest (fun item => item.path setup = path) attributes).map (Attribute.leaf setup)
  store : ∀ item ∈ attributes, ∀ text, item.value = some text →
    ledger.attributes (hashedValue setup (some text)) = some text
  valued : ∀ item ∈ attributes, item.Valued
  shaped : ∀ item ∈ attributes, IsIdentifier item.dest
  placed : ∀ item ∈ attributes, item.seqNo ≤ ledger.txnTypes.length
  distinct : ∀ item ∈ attributes, ∀ other ∈ attributes, item.seqNo = other.seqNo → item = other

omit [DecidableEq ι] [Revocation.PyStr ι] [PyHash ι] [LE ι] [DecidableLE ι] in
private theorem Holds.empty (ledger : Ledger ι) (empty : ∀ path, ledger.state path = none) :
    Holds setup [] ledger := by
  refine ⟨?_,by simp,by simp,by simp,by simp,by simp⟩
  intro path _
  simp [empty,latest]

omit [DecidableEq ι] [Revocation.PyStr ι] [PyHash ι] [LE ι] [DecidableLE ι] in
private theorem Holds.snoc {attributes : List Attribute} {ledger next : Ledger ι}
    (holds : Holds setup attributes ledger) (item : Attribute)
    (state : next.state = Function.update ledger.state (item.path setup) (some (item.leaf setup)))
    (store : ∀ text, (item.value = some text ∨
      ledger.attributes (hashedValue setup (some text)) = some text) →
        next.attributes (hashedValue setup (some text)) = some text)
    (valued : item.Valued) (shaped : IsIdentifier item.dest) (place : item.seqNo = nextSeqNo ledger)
    (length : next.txnTypes.length = ledger.txnTypes.length + 1) :
    Holds setup (attributes ++ [item]) next := by
  have earlier : ∀ old ∈ attributes, old.seqNo ≠ item.seqNo := by
    intro old member
    have bound := holds.placed old member
    rw [place,nextSeqNo]
    omega
  refine ⟨?_,?_,?_,?_,?_,?_⟩
  · intro path marked
    rw [latest_snoc,state]
    by_cases same : item.path setup = path
    · simp [same]
    · rw [Function.update_of_ne (Ne.symm same)]
      simp [same,holds.state path marked]
  · intro old member text value
    rcases List.mem_append.mp member with inside | new
    · exact store text (.inr (holds.store old inside text value))
    · rw [List.mem_singleton.mp new] at value
      exact store text (.inl value)
  · exact List.forall_mem_append.mpr ⟨holds.valued,List.forall_mem_singleton.mpr valued⟩
  · exact List.forall_mem_append.mpr ⟨holds.shaped,List.forall_mem_singleton.mpr shaped⟩
  · intro old member
    rcases List.mem_append.mp member with inside | new
    · have bound := holds.placed old inside
      omega
    · rw [List.mem_singleton.mp new,place,nextSeqNo]
      omega
  · intro first member second other same
    rcases List.mem_append.mp member with inside | new <;> rcases List.mem_append.mp other with old | last
    · exact holds.distinct first inside second old same
    · rw [List.mem_singleton.mp last] at same
      exact absurd same (earlier first inside)
    · rw [List.mem_singleton.mp new] at same
      exact absurd same.symm (earlier second old)
    · rw [List.mem_singleton.mp new,List.mem_singleton.mp last]

omit [DecidableEq ι] [Revocation.PyStr ι] [PyHash ι] [LE ι] [DecidableLE ι] in
private theorem Holds.kept {attributes : List Attribute} {ledger next : Ledger ι}
    (holds : Holds setup attributes ledger)
    (state : ∀ path, Marked "1" path → next.state path = ledger.state path)
    (store : next.attributes = ledger.attributes)
    (length : next.txnTypes.length = ledger.txnTypes.length + 1) : Holds setup attributes next where
  state path marked := (state path marked).trans (holds.state path marked)
  store := store ▸ holds.store
  valued := holds.valued
  shaped := holds.shaped
  placed item member := by
    have bound := holds.placed item member
    omega
  distinct := holds.distinct

omit [Revocation.PyStr ι] [PyHash ι] [LE ι] [DecidableLE ι] [DecidableEq ι] in
private theorem attributeTxn_other (ordered : Ordered ι) (index : Nat)
    (other : ∀ req op, ordered.txn ≠ .attrib req op) : attributeTxn setup ordered index = none := by
  obtain ⟨txn,time,timed⟩ := ordered
  cases txn with
  | attrib req op => exact absurd rfl (other req op)
  | _ => rfl

private theorem Applied.attributes_other {ledger next : Ledger ι} {time : Nat} {txn : DomainTxn ι}
    (applied : Applied setup ledger time txn next) (other : ∀ req op, txn ≠ .attrib req op) :
    next.attributes = ledger.attributes := by
  cases applied with
  | attrib req op => exact absurd rfl (other req op)
  | _ => rfl

section Hash
variable (collisionFree : Function.Injective setup.sha256) (digest : ∀ text, setup.sha256 text ≠ "")
include collisionFree digest

theorem Holds.step {index : Nat} {history : List (Ordered ι)} {before after : Ledger ι}
    (holds : Holds setup (attributesOf setup index history) before) (ordered : Ordered ι)
    (identified : ordered.txn.Identified) (length : before.txnTypes.length = index + history.length)
    (applied : Applied setup before ordered.time ordered.txn after) :
    Holds setup (attributesOf setup index (history ++ [ordered])) after := by
  rw [attributesOf_snoc]
  by_cases other : ∀ req op, ordered.txn ≠ .attrib req op
  · rw [attributeTxn_other setup ordered _ other,Option.toList_none,List.append_nil]
    refine holds.kept setup ?_ (applied.attributes_other setup other) (applied.length setup)
    intro path marked
    apply applied.other setup path
    intro written
    obtain ⟨req,op,same⟩ := paths_attrib setup ordered.txn identified path marked written
    exact other req op same
  · obtain ⟨txn,time,timed⟩ := ordered
    simp only [ne_eq,not_forall,not_not] at other
    obtain ⟨req,op,rfl⟩ := other
    cases applied with
    | attrib _ _ field key value shaped allowed parsed =>
      have read : attributeTxn setup (⟨.attrib req op,time,timed⟩ : Ordered ι) (index + history.length) =
          some ⟨op.dest,field,key,value,nextSeqNo before,time⟩ := by
        simp [attributeTxn,parsed,nextSeqNo,length]
      have valued := parseAttrTxn_valued setup op field key value parsed (nextSeqNo before) time
      rw [read]
      refine holds.snoc setup _ rfl ?_ valued (identified.dest req op rfl) rfl (by simp [Ledger.append])
      intro text either
      by_cases hash : field = .hash
      · subst hash
        rcases either with mine | old
        · simp [show value = none from valued] at mine
        · exact old
      · obtain ⟨written,rfl⟩ := valued.text hash
        simp only [if_neg hash]
        rcases either with mine | old
        · obtain rfl := Option.some.inj mine
          exact Function.update_self ..
        · exact store_kept setup collisionFree digest before.attributes text written old

theorem Run.holds {start final : Ledger ι} {history : List (Ordered ι)}
    (run : Run setup start history final) (identified : ∀ ordered ∈ history, ordered.txn.Identified)
    (empty : ∀ path, start.state path = none) :
    Holds setup (attributesOf setup start.txnTypes.length history) final := by
  refine run.invariant setup (fun history ledger => Holds setup
    (attributesOf setup start.txnTypes.length history) ledger) (.empty setup start empty) ?_ identified
  intro history before after ordered earlier holds now applied
  exact holds.step setup collisionFree digest ordered now (earlier.length setup) applied

end Hash

end Runs

/-- One raw attribute can be read and written; hashes are the text behind a mark. -/
def markSetup : Setup where
  nym := (nameSetup "x").nym
  sha256 text := "#" ++ text
  dumps _ := rawName "x"
  sortLegacy _ := false

theorem markSetup_collisionFree : Function.Injective markSetup.sha256 := by
  intro first second same
  have lists := congrArg String.toList same
  simp only [markSetup,String.toList_append] at lists
  exact String.toList_inj.mp (List.append_cancel_left lists)

theorem markSetup_digest (text : String) : markSetup.sha256 text ≠ "" := by
  intro blank
  have lists := congrArg String.toList blank
  simp [markSetup] at lists

def hashOperation : AttribOperation := ⟨ownerDid,none,none,some "#name"⟩

def withName : Ledger Nat :=
  {(ownerLedger .trustee).append attribType (Function.update (fun _ => none)
    (makeStatePathForAttr ownerDid.val "#name") (some ⟨.attrib ("#" ++ rawName "x"),2,10⟩)) with
      attributes := Function.update (fun _ => none) ("#" ++ rawName "x") (some (rawName "x"))}

def withHash : Ledger Nat :=
  {withName.append attribType (Function.update withName.state
    (makeStatePathForAttr ownerDid.val "#name") (some ⟨.attrib "",3,20⟩)) with
      attributes := withName.attributes}

theorem name_added : applyTxn markSetup (ownerLedger .trustee)
    ⟨.attrib signedByOwner (nameOperation "x"),10,by decide⟩ = .ok withName := by
  have told := attribDynamicValidation_told .configLedger (fun _ => "") markSetup (ownerLedger .trustee)
    signedByOwner (nameOperation "x") (ownerRecord .trustee).cacheEntry .raw (rawName "x") "name" none none
    rfl rfl rfl (by decide) rfl (by decide) (by decide)
    ((splitActionId_head_iff _ (Built.attrib .raw none none (rawName "x") true).headClean).mpr
      ((attribAction_values .raw none none (rawName "x") true).mpr (by decide)))
  exact applyTxn_attrib markSetup _ _ 10 _ _ .raw "name" (some (rawName "x")) (by decide) told.2 (by decide)

theorem hash_added : applyTxn markSetup withName ⟨.attrib signedByOwner hashOperation,20,by decide⟩ =
    .ok withHash := by
  have told := attribDynamicValidation_told .configLedger (fun _ => "") markSetup withName
    signedByOwner hashOperation (ownerRecord .trustee).cacheEntry .hash "#name" "#name" (some (rawName "x")) (some 2)
    rfl rfl rfl (by decide) (by decide) (by decide) (by decide)
    ((splitActionId_head_iff _ (Built.attrib .hash (some 2) (some (rawName "x")) "#name" true).headClean).mpr
      ((attribAction_values .hash (some 2) (some (rawName "x")) "#name" true).mpr (by decide)))
  exact applyTxn_attrib markSetup _ _ 20 _ _ .hash "#name" none (by decide) told.2 (by decide)

def nameHistory : List (Ordered Nat) :=
  [⟨.attrib signedByOwner (nameOperation "x"),10,Nat.succ_pos _⟩,
    ⟨.attrib signedByOwner hashOperation,20,Nat.succ_pos _⟩]

theorem nameHistory_identified : ∀ ordered ∈ nameHistory, ordered.txn.Identified := by
  have shaped : IsIdentifier ownerDid := by decide
  have each : ∀ op : AttribOperation, op.dest = ownerDid →
      (DomainTxn.attrib signedByOwner op : DomainTxn Nat).Identified := by
    intro op dest
    refine ⟨fun author authored => Option.some.inj authored ▸ shaped,?_⟩
    rintro req other same
    cases same
    exact dest ▸ shaped
  intro ordered member
  simp only [nameHistory,List.mem_cons,List.not_mem_nil,or_false] at member
  rcases member with rfl | rfl
  · exact each (nameOperation "x") rfl
  · exact each hashOperation rfl

theorem nameHistory_run : Run markSetup (ownerLedger .trustee) nameHistory withHash :=
  .step (nameHistory.take 1) withName _ _ (.step [] _ _ _ .start name_added) hash_added

end IndyNode.Domain

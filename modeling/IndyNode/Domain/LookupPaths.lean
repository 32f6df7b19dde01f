import IndyNode.Domain.Registry

/-! Two computations of a path. Dynamic validation takes it from the request, to choose
between the rules for adding and for editing; the update takes it from the transaction,
which has been built of the same operation by then. -/
namespace IndyNode.Domain
open Authorize Nym

def claimDefCl : String := "CL"
def claimDefTagDefault : String := "tag"

structure ClaimDefSubmit where
  ref : Nat
  signatureType : Option String
  tag : Option String
  publicKeys : List (String × Json)

inductive WriteOperation (ι : Type) where
  | attrib (op : AttribOperation)
  | schema (op : SchemaOperation)
  | claimDef (op : ClaimDefSubmit)
  | revocDef (op : RevocDefOperation)
  | revocEntry (op : RevocEntryOperation ι)

/-- A transaction, of which paths are made from the author and the payload alone. -/
structure WriteTxn (ι : Type) where
  sender : Option Did
  data : WriteOperation ι

def reqToTxn {ι : Type} (req : Request) (op : WriteOperation ι) : WriteTxn ι := ⟨req.identifier,op⟩

section Requests

def getWriteClaimDefSignatureType (operation : ClaimDefSubmit) : String :=
  operation.signatureType.getD claimDefCl

def getWriteClaimDefTag (operation : ClaimDefSubmit) : String :=
  operation.tag.getD claimDefTagDefault

variable {ι : Type} (setup : Setup)

/-- What `get_from_state` is asked for by the dynamic validation of a request. -/
def lookupPath (identifier : Option Did) : WriteOperation ι → Except Raised String
  | .attrib op =>
    match op.existing with
    | [] => .error .assertionError
    | (field,value)::_ => do
      return makeStatePathForAttr op.dest.val (attrNameHash setup field (← attribKey setup field value))
  | .schema op => .ok (makeStatePathForSchema (authorText identifier) op.name op.version)
  | .claimDef op => .ok (makeStatePathForClaimDef (authorText identifier) op.ref
      (getWriteClaimDefSignatureType op) (getWriteClaimDefTag op))
  | .revocDef op => .ok (makeStatePathForRevocDef (authorText identifier) op.credDefId op.revocDefType op.tag)
  | .revocEntry op => .ok (Revocation.revocEntryPath op.revocRegDefId)

/-- The value and the sequence number of the attribute under a path. -/
def attrAt (ledger : Ledger ι) (path : String) : Except Raised (Option String × Option Nat) :=
  match ledger.state path with
  | none => .ok (none,none)
  | some ⟨.attrib hashedValue,seqNo,_⟩ =>
    if hashedValue = "" then .ok (some hashedValue,some seqNo)
    else
      match ledger.attributes hashedValue with
      | none => .error .keyError
      | some value => .ok (some value,some seqNo)
  | some _ => .error .typeError

/-- The action on which the rules are asked, by what is found under the path. -/
def askedAction (ledger : Ledger ι) (req : Request) (op : WriteOperation ι) :
    Except Raised AuthAction := do
  let path ← lookupPath setup req.identifier op
  match op with
  | .attrib op =>
    match ledger.nyms.cache op.dest, op.existing with
    | some entry, (field,value)::_ =>
      let found ← attrAt ledger path
      return attribAction field found.2 found.1 value (getOwnerFor op.dest entry = req.identifier)
    | _, _ => throw (invalid req "dest should be added before adding attribute for it")
  | .schema _ => return objectAction schemaType (holdsTrue ledger.state path) true
  | .claimDef _ => return objectAction claimDefType (holdsTrue ledger.state path) true
  | .revocDef _ => return objectAction revocRegDefType (ledger.state path).isSome true
  | .revocEntry op => return objectAction revocRegEntryType (holdsTrue ledger.state path) (ownsRegistry req op)

end Requests

section Transactions

def getTxnClaimDefSignatureType (data : ClaimDefSubmit) : String :=
  data.signatureType.getD claimDefCl

def getTxnClaimDefTag (data : ClaimDefSubmit) : String :=
  data.tag.getD claimDefTagDefault

/-- `domain.make_state_path_for_revoc_reg_entry`, a copy of the handler's. -/
def makeStatePathForRevocRegEntry (revocRegDefId : String) : String := "5" ++ ":" ++ revocRegDefId

def makeStatePathForRevocRegEntryAccum (revocRegDefId : String) : String := "6" ++ ":" ++ revocRegDefId

variable {ι : Type} (setup : Setup)

/-- The paths that `update_state` sets. -/
def writtenPaths (txn : WriteTxn ι) : Except Raised (List String) :=
  match txn.data with
  | .attrib op => do
    let (field,key,_) ← parseAttrTxn setup op
    return [makeStatePathForAttr op.dest.val (attrNameHash setup field key)]
  | .schema op => .ok [makeStatePathForSchema (authorText txn.sender) op.name op.version]
  | .claimDef op => .ok [makeStatePathForClaimDef (authorText txn.sender) op.ref
      (getTxnClaimDefSignatureType op) (getTxnClaimDefTag op)]
  | .revocDef op =>
    if txn.sender = none ∨ op.credDefId = "" ∨ op.revocDefType = "" ∨ op.tag = "" then
      .error .assertionError
    else .ok [makeStatePathForRevocDef (authorText txn.sender) op.credDefId op.revocDefType op.tag]
  | .revocEntry op =>
    if txn.sender = none then .error .assertionError
    else .ok [makeStatePathForRevocRegEntry op.revocRegDefId,
      makeStatePathForRevocRegEntryAccum op.revocRegDefId]

/-- The transaction that is applied. -/
def WriteOperation.ordered (req : Request) : WriteOperation ι → DomainTxn ι
  | .attrib op => .attrib req op
  | .schema op => .schema req op
  | .claimDef op => .claimDef req
      ⟨op.ref,getTxnClaimDefSignatureType op,getTxnClaimDefTag op,op.publicKeys⟩
  | .revocDef op => .revocDef req op
  | .revocEntry op => .revocEntry req op

end Transactions

/-- What the message schemas make sure of and the paths depend on. A raw attribute is
an object with one member. -/
def WriteOperation.Admitted {ι : Type} (setup : Setup) : WriteOperation ι → Prop
  | .attrib op => IsIdentifier op.dest ∧ op.existing.length = 1 ∧
      ∀ raw, op.raw = some raw → ∃ key value, setup.nym.loads raw = .ok (.obj [(key,value)])
  | .claimDef op => (op.publicKeys.lookup "primary").isSome
  | .revocDef op => op.credDefId ≠ "" ∧ op.revocDefType ≠ "" ∧ op.tag ≠ ""
  | _ => True

/-- The records written besides the one that was looked up. -/
def WriteOperation.companions {ι : Type} : WriteOperation ι → List String
  | .revocEntry op => [Revocation.revocAccumPath op.revocRegDefId]
  | _ => []

def editing : AuthAction → Bool
  | .edit _ _ _ _ _ => true
  | .add _ _ _ _ => false

section Agreement
variable {ι : Type} (setup : Setup)

private theorem single_attribute (op : AttribOperation) (one : op.existing.length = 1) :
    ∃ field value, op.existing = [(field,value)] ∧ op.get field = some value := by
  obtain ⟨⟨field,value⟩,single⟩ := List.length_eq_one_iff.mp one
  refine ⟨field,value,single,?_⟩
  have member : (field,value) ∈ op.existing := by simp [single]
  obtain ⟨key,_,found⟩ := List.mem_filterMap.mp member
  obtain ⟨text,known,same⟩ := Option.map_eq_some_iff.mp found
  obtain ⟨rfl,rfl⟩ := Prod.mk.inj same
  exact known

/-- The first key of the request is the one popped from the transaction, since there is
only one. -/
theorem attribute_key_agrees (op : AttribOperation) (one : op.existing.length = 1)
    (object : ∀ raw, op.raw = some raw → ∃ key value, setup.nym.loads raw = .ok (.obj [(key,value)])) :
    ∃ field value key stored, op.existing = [(field,value)] ∧ attribKey setup field value = .ok key ∧
      parseAttrTxn setup op = .ok (field,key,stored) := by
  obtain ⟨field,value,single,known⟩ := single_attribute op one
  cases field with
  | raw =>
    obtain ⟨key,content,parsed⟩ := object value known
    refine ⟨.raw,value,key,some (setup.dumps (.obj [(key,content)])),single,?_,?_⟩
    · rw [attribKey,parsed,ok_bind,firstKey]
    · rw [parseAttrTxn,single]
      simp only [parsed,ok_bind]
      rfl
  | enc => exact ⟨.enc,value,value,some value,single,rfl,by rw [parseAttrTxn,single]⟩
  | hash => exact ⟨.hash,value,value,none,single,rfl,by rw [parseAttrTxn,single]⟩

private theorem lookup_path_written (req : Request) (op : WriteOperation ι) (admitted : op.Admitted setup) :
    ∃ path, lookupPath setup req.identifier op = .ok path ∧
      (∀ paths, writtenPaths setup (reqToTxn req op) = .ok paths → paths = path :: op.companions) ∧
      (req.identifier ≠ none → writtenPaths setup (reqToTxn req op) = .ok (path :: op.companions)) ∧
      (op.ordered req).paths setup = path :: op.companions := by
  cases op with
  | attrib op =>
    obtain ⟨field,value,key,stored,single,looked,parsed⟩ :=
      attribute_key_agrees setup op admitted.2.1 admitted.2.2
    have written : writtenPaths setup (reqToTxn req (.attrib op : WriteOperation ι)) =
        .ok [makeStatePathForAttr op.dest.val (attrNameHash setup field key)] := by
      simp only [writtenPaths,reqToTxn,parsed,ok_bind]
      rfl
    refine ⟨_,?_,fun paths same => (Except.ok.inj (written.symm.trans same)).symm,fun _ => written,?_⟩
    · simp only [lookupPath,single,looked,ok_bind]
      rfl
    · simp [WriteOperation.ordered,DomainTxn.paths,parsed,WriteOperation.companions]
  | schema op => exact ⟨_,rfl,fun paths same => (Except.ok.inj same).symm,fun _ => rfl,rfl⟩
  | claimDef op => exact ⟨_,rfl,fun paths same => (Except.ok.inj same).symm,fun _ => rfl,rfl⟩
  | revocDef op =>
    have written : writtenPaths setup (reqToTxn req (.revocDef op : WriteOperation ι)) =
        if req.identifier = none ∨ op.credDefId = "" ∨ op.revocDefType = "" ∨ op.tag = "" then
          .error .assertionError
        else .ok [revocDefPath req.identifier op] := rfl
    refine ⟨_,rfl,fun paths same => (unless_ok (written.symm.trans same)).2.symm,fun authored => ?_,rfl⟩
    obtain ⟨credDef,revocType,tag⟩ := admitted
    rw [written,if_neg (by simp [authored,credDef,revocType,tag])]
    rfl
  | revocEntry op =>
    have written : writtenPaths setup (reqToTxn req (.revocEntry op : WriteOperation ι)) =
        if req.identifier = none then .error .assertionError
        else .ok [Revocation.revocEntryPath op.revocRegDefId,Revocation.revocAccumPath op.revocRegDefId] := rfl
    refine ⟨_,rfl,fun paths same => (unless_ok (written.symm.trans same)).2.symm,fun authored => ?_,rfl⟩
    rw [written,if_neg authored]
    rfl

end Agreement

section Found
variable {ι : Type}

/-- Stored claim definitions have keys, so that finding one counts as true. -/
def Keyed (ledger : Ledger ι) : Prop :=
  ∀ path leaf keys, ledger.state path = some leaf → leaf.value = .claimDef keys → keys ≠ []

/-- An entry of a registry and its accumulator are written together. -/
def Paired (ledger : Ledger ι) : Prop :=
  ∀ id, (ledger.state (Revocation.revocEntryPath id)).isSome =
    (ledger.state (Revocation.revocAccumPath id)).isSome

private theorem holdsTrue_iff_stored {ledger : Ledger ι} (typed : WellTyped ledger) (keyed : Keyed ledger)
    (path : String) (noAttribute : ¬Marked "1" path) :
    holdsTrue ledger.state path = (ledger.state path).isSome := by
  rw [holdsTrue]
  cases stored : ledger.state path with
  | none => rfl
  | some leaf =>
    have placed := typed path leaf stored
    cases value : leaf.value with
    | attrib hashed =>
      rw [value] at placed
      exact absurd placed noAttribute
    | claimDef keys =>
      have some := keyed path leaf keys stored value
      simp [value,Value.truth,some]
    | schema names => simp [value,Value.truth]
    | registry record => simp [value,Value.truth]

private theorem registry_not_attribute (id : String) : ¬Marked "1" (Revocation.revocEntryPath id) := by
  rintro ⟨first,plain,under⟩
  exact (under.not_registry plain id).1 rfl

private theorem marked_not_attribute {first marker path : String} (plain : Plain first)
    (under : Under first marker path) (clean : ':' ∉ marker.toList) (other : marker ≠ "1") :
    ¬Marked "1" path :=
  fun marked => other (Marked.other ⟨first,plain,under⟩ marked clean (by decide))

private theorem editing_objectAction (txnType : String) (existing isOwner : Bool) :
    editing (objectAction txnType existing isOwner) = existing := by
  cases existing <;> rfl

private theorem attrAt_found {ledger : Ledger ι} {path : String} {found : Option String × Option Nat}
    (ok : attrAt ledger path = .ok found) : found.2.isSome = (ledger.state path).isSome := by
  rw [attrAt] at ok
  split at ok
  · rename_i absent
    rw [← Except.ok.inj ok,absent]
    rfl
  · rename_i hashed seqNo time stored
    rw [stored]
    split at ok
    · rw [← Except.ok.inj ok]
      rfl
    · split at ok
      · simp at ok
      · rw [← Except.ok.inj ok]
        rfl
  · simp at ok

variable (setup : Setup)

private theorem asked_action_editing {ledger : Ledger ι} (typed : WellTyped ledger) (keyed : Keyed ledger)
    (req : Request) (shaped : ∀ author, req.identifier = some author → IsIdentifier author)
    (op : WriteOperation ι) (path : String) (looked : lookupPath setup req.identifier op = .ok path)
    (action : AuthAction) (asked : askedAction setup ledger req op = .ok action) :
    editing action = (ledger.state path).isSome := by
  have author := authorText_plain req.identifier shaped
  rw [askedAction,looked,ok_bind] at asked
  cases op with
  | attrib op =>
    simp only at asked
    split at asked
    · obtain ⟨found,read,asked⟩ := bind_success _ _ _ asked
      rw [← Except.ok.inj asked,← attrAt_found read]
      cases found.2 <;> rfl
    · simp [throw_eq] at asked
  | schema op =>
    obtain rfl := Except.ok.inj looked
    rw [← Except.ok.inj asked,editing_objectAction]
    exact holdsTrue_iff_stored typed keyed _
      (marked_not_attribute author (schemaPath_under _ op) (by decide) (by decide))
  | claimDef op =>
    obtain rfl := Except.ok.inj looked
    rw [← Except.ok.inj asked,editing_objectAction]
    exact holdsTrue_iff_stored typed keyed _ (marked_not_attribute author (claimDefPath_under req.identifier
      ⟨op.ref,getWriteClaimDefSignatureType op,getWriteClaimDefTag op,[]⟩) (by decide) (by decide))
  | revocDef op => rw [← Except.ok.inj asked,editing_objectAction]
  | revocEntry op =>
    obtain rfl := Except.ok.inj looked
    rw [← Except.ok.inj asked,editing_objectAction]
    exact holdsTrue_iff_stored typed keyed _ (registry_not_attribute _)

end Found

section Runs
variable {ι : Type} [DecidableEq ι] [Revocation.PyStr ι] [PyHash ι] [LE ι] [DecidableLE ι]
  (setup : Setup)

/-- A transaction whose request has passed its message schema. -/
structure DomainTxn.Admitted (txn : DomainTxn ι) : Prop where
  identified : txn.Identified
  keyed : ∀ req op, txn = .claimDef req op → (op.publicKeys.lookup "primary").isSome

private theorem Applied.keyed {ledger next : Ledger ι} {time : Nat} {txn : DomainTxn ι}
    (applied : Applied setup ledger time txn next)
    (primary : ∀ req op, txn = .claimDef req op → (op.publicKeys.lookup "primary").isSome)
    (keyed : Keyed ledger) : Keyed next := by
  intro path leaf keys stored value
  by_cases written : path ∈ txn.paths setup
  · -- Among the values written, only that of a claim definition has keys.
    have same {new : Leaf ι} (now : next.state path = some new) : new.value = .claimDef keys :=
      (Option.some.inj (now.symm.trans stored)) ▸ value
    cases applied with
    | nym req nyms applied => simp [DomainTxn.paths] at written
    | attrib req op field key text shaped allowed parsed =>
      simp only [DomainTxn.paths,parsed,List.mem_singleton] at written
      subst written
      cases same (Function.update_self ..)
    | schema req op allowed =>
      obtain rfl := List.mem_singleton.mp written
      cases same (Function.update_self ..)
    | claimDef req op allowed =>
      obtain rfl := List.mem_singleton.mp written
      obtain rfl := Value.claimDef.inj (same (Function.update_self ..))
      intro empty
      have has := primary req op rfl
      rw [empty] at has
      simp at has
    | revocDef req op state shaped allowed updated =>
      obtain rfl := List.mem_singleton.mp written
      rw [(revocDefUpdateState_eq ledger req op _ _ state updated).2] at same
      cases same (Function.update_self ..)
    | revocEntry req op current kind text accepted =>
      simp only [DomainTxn.paths,List.mem_cons,List.not_mem_nil,or_false] at written
      rcases written with rfl | rfl
      · cases same (setToState_entry ledger op text _ time)
      · cases same (setToState_accum ledger op text _ time)
  · rw [applied.other setup path written] at stored
    exact keyed path leaf keys stored value

private theorem Applied.paired {ledger next : Ledger ι} {time : Nat} {txn : DomainTxn ι}
    (applied : Applied setup ledger time txn next) (identified : txn.Identified)
    (paired : Paired ledger) : Paired next := by
  intro id
  by_cases foreign : Foreign id txn
  · obtain ⟨entry,accum⟩ := registry_unwritten setup txn identified id foreign
    rw [applied.other setup _ entry,applied.other setup _ accum]
    exact paired id
  · simp only [Foreign,not_forall,not_not] at foreign
    obtain ⟨req,op,rfl,rfl⟩ := foreign
    obtain ⟨entry,stored,_⟩ := applied.wellPlaced setup identified
      (Revocation.revocEntryPath op.revocRegDefId) (by simp [DomainTxn.paths])
    obtain ⟨accum,kept,_⟩ := applied.wellPlaced setup identified
      (Revocation.revocAccumPath op.revocRegDefId) (by simp [DomainTxn.paths])
    rw [stored,kept]
    rfl

private theorem Run.keyed_paired {start final : Ledger ι} {history : List (Ordered ι)}
    (run : Run setup start history final) (admitted : ∀ ordered ∈ history, ordered.txn.Admitted)
    (empty : ∀ path, start.state path = none) : Keyed final ∧ Paired final := by
  refine run.invariant setup (fun history ledger => (∀ ordered ∈ history, ordered.txn.Admitted) →
    Keyed ledger ∧ Paired ledger) (fun _ => ⟨?_,?_⟩) ?_ (fun ordered member =>
      (admitted ordered member).identified) admitted
  · intro path leaf keys stored
    simp [empty] at stored
  · intro id
    rw [empty,empty]
  · intro history before after ordered _ holds identified applied all
    have earlier := holds fun other member => all other (List.mem_append_left _ member)
    exact ⟨applied.keyed setup (all ordered (by simp)).keyed earlier.1,
      applied.paired setup identified earlier.2⟩

/-- What has been asked for is what the accepted transaction was validated for. -/
theorem asked_action_validated {ledger next : Ledger ι} {time : Nat} (req : Request)
    (op : WriteOperation ι) (admitted : op.Admitted setup)
    (applied : Applied setup ledger time (op.ordered req) next) :
    ∃ action, askedAction setup ledger req op = .ok action ∧ setup.validate ledger req action = .ok () := by
  cases op with
  | attrib op =>
    obtain ⟨field,value,key,stored,single,looked,_⟩ :=
      attribute_key_agrees setup op admitted.2.1 admitted.2.2
    cases applied with
    | attrib _ _ _ _ _ shaped allowed parsed =>
      rw [attribDynamicValidation] at allowed
      cases known : ledger.nyms.cache op.dest with
      | none => simp [known] at allowed
      | some entry =>
        simp only [known] at allowed
        obtain ⟨action,lookup,valid⟩ := bind_success _ _ _ allowed
        refine ⟨action,?_,valid⟩
        rw [← lookup]
        simp only [askedAction,lookupPath,attribLookup,single,looked,ok_bind,known]
        rfl
  | schema op =>
    cases applied with
    | schema _ _ allowed => exact ⟨_,rfl,allowed⟩
  | claimDef op =>
    cases applied with
    | claimDef _ _ allowed =>
      exact ⟨_,rfl,((claimDefDynamicValidation_iff setup ledger req _).mp allowed).2⟩
  | revocDef op =>
    cases applied with
    | revocDef _ _ state shaped allowed written =>
      exact ⟨_,rfl,((revocDefDynamicValidation_iff setup ledger req op).mp allowed).2.1⟩
  | revocEntry op =>
    cases applied with
    | revocEntry _ _ current kind value accepted =>
      refine ⟨_,rfl,?_⟩
      rw [currentEntry_true accepted.entry]
      exact accepted.allowed

private theorem Applied.written {ledger next : Ledger ι} {time : Nat} (req : Request) (op : WriteOperation ι)
    (admitted : op.Admitted setup) (applied : Applied setup ledger time (op.ordered req) next) :
    ∃ paths, writtenPaths setup (reqToTxn req op) = .ok paths := by
  obtain ⟨path,_,_,authored,_⟩ := lookup_path_written setup req op admitted
  cases op with
  | attrib op =>
    cases applied with
    | attrib _ _ field key value _ _ parsed =>
      simp only [writtenPaths,reqToTxn,parsed,ok_bind]
      exact ⟨_,rfl⟩
  | schema op => exact ⟨_,rfl⟩
  | claimDef op => exact ⟨_,rfl⟩
  | revocDef op =>
    cases applied with
    | revocDef _ _ state _ _ written =>
      exact ⟨_,authored (revocDefUpdateState_eq ledger req op _ _ state written).1⟩
  | revocEntry op =>
    cases applied with
    | revocEntry _ _ current kind value accepted => exact ⟨_,authored accepted.authored⟩

/-- Path by path: what is written is what was looked up, together with the accumulator
of an entry, and the rule that was asked is the rule for what was there. -/
theorem writes_follow_lookup {start ledger : Ledger ι} {history : List (Ordered ι)}
    (empty : ∀ path, start.state path = none) (run : Run setup start history ledger)
    (admitted : ∀ ordered ∈ history, ordered.txn.Admitted) (req : Request)
    (author : ∀ author, req.identifier = some author → IsIdentifier author)
    (op : WriteOperation ι) (accepted : op.Admitted setup) :
    ∃ path, lookupPath setup req.identifier op = .ok path ∧
      (req.identifier ≠ none → writtenPaths setup (reqToTxn req op) = .ok (path :: op.companions)) ∧
      ∀ time timed next, applyTxn setup ledger ⟨op.ordered req,time,timed⟩ = .ok next →
        writtenPaths setup (reqToTxn req op) = .ok (path :: op.companions) ∧
        (∀ other, other ∉ path :: op.companions → next.state other = ledger.state other) ∧
        ∃ action, askedAction setup ledger req op = .ok action ∧
          setup.validate ledger req action = .ok () ∧
          ∀ other ∈ path :: op.companions, (next.state other).isSome ∧
            editing action = (ledger.state other).isSome := by
  obtain ⟨path,looked,all,authored,paths⟩ := lookup_path_written setup req op accepted
  refine ⟨path,looked,authored,fun time timed next ok => ?_⟩
  have applied := applyTxn_applied setup ledger next _ ok
  have identified : (op.ordered req).Identified := by
    cases op with
    | attrib op => exact ⟨author,fun _ _ same => (DomainTxn.attrib.inj same).2 ▸ accepted.1⟩
    | schema op => exact ⟨author,fun _ _ same => by cases same⟩
    | claimDef op => exact ⟨author,fun _ _ same => by cases same⟩
    | revocDef op => exact ⟨author,fun _ _ same => by cases same⟩
    | revocEntry op => exact ⟨author,fun _ _ same => by cases same⟩
  have typed := run.wellTyped setup (fun ordered member => (admitted ordered member).identified)
    (.empty start empty)
  obtain ⟨keyed,paired⟩ := run.keyed_paired setup admitted empty
  obtain ⟨_,written⟩ := applied.written setup req op accepted
  obtain rfl := all _ written
  obtain ⟨action,asked,valid⟩ := asked_action_validated setup req op accepted applied
  have edits := asked_action_editing setup typed keyed req author op path looked action asked
  refine ⟨written,?_,action,asked,valid,?_⟩
  · intro other unwritten
    exact applied.other setup other (paths ▸ unwritten)
  · intro other member
    obtain ⟨leaf,now,_⟩ := applied.wellPlaced setup identified other (paths ▸ member)
    refine ⟨by simp [now],?_⟩
    rcases List.mem_cons.mp member with rfl | companion
    · exact edits
    · -- Only an entry has one: its accumulator, there exactly when the entry is.
      cases op with
      | revocEntry op =>
        obtain rfl := Except.ok.inj looked
        obtain rfl := List.mem_singleton.mp companion
        rw [edits]
        exact paired op.revocRegDefId
      | _ => simp [WriteOperation.companions] at companion

end Runs

private theorem sampleHistory_admitted : ∀ ordered ∈ sampleHistory, ordered.txn.Admitted := by
  intro ordered member
  refine ⟨sampleHistory_identified ordered member,fun req op shape => ?_⟩
  simp only [sampleHistory,List.mem_cons,List.not_mem_nil,or_false] at member
  rcases member with rfl | rfl | rfl | rfl | rfl
  · cases shape
  · obtain ⟨rfl,rfl⟩ := DomainTxn.claimDef.inj shape
    rfl
  all_goals cases shape

/-- The second entry of a registry is asked for by the rule for editing. -/
theorem second_entry_follows_lookup :
    ∃ path, lookupPath plainSetup signedByOwner.identifier (.revocEntry (sampleEntry revokeOne)) = .ok path ∧
      writtenPaths plainSetup (reqToTxn signedByOwner (.revocEntry (sampleEntry revokeOne))) =
        .ok [path,Revocation.revocAccumPath registryId] ∧
      ∃ action, plainSetup.validate withEntry signedByOwner action = .ok () ∧
        editing action = (withEntry.state path).isSome := by
  obtain ⟨path,looked,_,follows⟩ := writes_follow_lookup plainSetup (fun _ => rfl)
    (.step (sampleHistory.take 3) withRegistry _ _ (.step (sampleHistory.take 2) withClaimDef _ _
      (.step (sampleHistory.take 1) withSchema _ _ (.step [] _ _ _ .start schema_added) claimDef_added)
        registry_added) entry_added)
    (fun ordered member => sampleHistory_admitted ordered (List.mem_of_mem_take (i := 4) member))
    signedByOwner (fun author authored => Option.some.inj authored ▸ by decide)
    (.revocEntry (sampleEntry revokeOne)) trivial
  obtain ⟨written,_,action,_,valid,found⟩ := follows 30 (by decide) _ entry_revoked
  exact ⟨path,looked,written,action,valid,(found path (by simp)).2⟩

end IndyNode.Domain

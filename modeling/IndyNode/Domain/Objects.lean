import IndyNode.Domain.State

/-! The handlers of SCHEMA, CLAIM_DEF, REVOC_REG_DEF and REVOC_REG_ENTRY: which
object is looked up, which rule is asked, and what is written. -/
namespace IndyNode.Domain
open Authorize Nym

structure SchemaOperation where
  name : String
  version : String
  attrNames : List String
deriving DecidableEq, Repr

structure ClaimDefOperation where
  ref : Nat
  signatureType : String
  tag : String
  publicKeys : List (String × Json)
deriving Repr

inductive IssuanceType where
  | byDefault
  | onDemand
deriving DecidableEq, Repr

def IssuanceType.text : IssuanceType → String
  | .byDefault => "ISSUANCE_BY_DEFAULT"
  | .onDemand => "ISSUANCE_ON_DEMAND"

structure RevocDefOperation where
  credDefId : String
  revocDefType : String
  tag : String
  issuanceType : IssuanceType
deriving DecidableEq, Repr

structure RevocEntryOperation (ι : Type) where
  revocRegDefId : String
  revocDefType : String
  value : Revocation.EntryValue ι
  named : revocRegDefId ≠ ""

def schemaType : String := "101"
def claimDefType : String := "102"
def revocRegDefType : String := "113"
def revocRegEntryType : String := "114"

/-- The action on an object without further detail. -/
def objectAction (txnType : String) (existing isOwner : Bool) : AuthAction :=
  if existing then .edit txnType "*" "*" "*" isOwner else .add txnType "*" "*" isOwner

section Paths

def schemaPath (author : Option Did) (op : SchemaOperation) : String :=
  makeStatePathForSchema (authorText author) op.name op.version

def claimDefPath (author : Option Did) (op : ClaimDefOperation) : String :=
  makeStatePathForClaimDef (authorText author) op.ref op.signatureType op.tag

def revocDefPath (author : Option Did) (op : RevocDefOperation) : String :=
  makeStatePathForRevocDef (authorText author) op.credDefId op.revocDefType op.tag

end Paths

section Handlers
variable {ι : Type} (setup : Setup) (ledger : Ledger ι) (req : Request)

def holdsTrue (state : State ι) (path : String) : Bool :=
  match state path with
  | none => false
  | some leaf => leaf.value.truth

def schemaDynamicValidation (op : SchemaOperation) : Except Raised Unit :=
  setup.validate ledger req
    (objectAction schemaType (holdsTrue ledger.state (schemaPath req.identifier op)) true)

def schemaUpdateState (op : SchemaOperation) (seqNo txnTime : Nat) : State ι :=
  Function.update ledger.state (schemaPath req.identifier op)
    (some ⟨.schema op.attrNames,seqNo,txnTime⟩)

/-- `ledger.get_by_seq_no_uncommitted`, of which only the type is read. -/
def txnTypeAt (seqNo : Nat) : Option String :=
  if seqNo = 0 then none else ledger.txnTypes[seqNo - 1]?

def claimDefDynamicValidation (op : ClaimDefOperation) : Except Raised Unit := do
  match txnTypeAt ledger op.ref with
  | none => throw (invalid req ("Mentioned seqNo (" ++ toString op.ref ++ ") doesn't exist."))
  | some found =>
    if found ≠ schemaType then
      throw (invalid req ("Mentioned seqNo (" ++ toString op.ref ++ ") isn't seqNo of the schema."))
    setup.validate ledger req
      (objectAction claimDefType (holdsTrue ledger.state (claimDefPath req.identifier op)) true)

theorem claimDefDynamicValidation_iff (op : ClaimDefOperation) :
    claimDefDynamicValidation setup ledger req op = .ok () ↔ txnTypeAt ledger op.ref = some schemaType ∧
      setup.validate ledger req
        (objectAction claimDefType (holdsTrue ledger.state (claimDefPath req.identifier op)) true) = .ok () := by
  rw [claimDefDynamicValidation]
  cases found : txnTypeAt ledger op.ref with
  | none => simp [throw_eq]
  | some other =>
    by_cases schema : other = schemaType
    · simp [schema]
    · simp [schema,throw_eq]

def claimDefUpdateState (op : ClaimDefOperation) (seqNo txnTime : Nat) : State ι :=
  Function.update ledger.state (claimDefPath req.identifier op)
    (some ⟨.claimDef op.publicKeys,seqNo,txnTime⟩)

theorem claimDefUpdateState_self (op : ClaimDefOperation) (seqNo txnTime : Nat) :
    claimDefUpdateState ledger req op seqNo txnTime (claimDefPath req.identifier op) =
      some ⟨.claimDef op.publicKeys,seqNo,txnTime⟩ :=
  Function.update_self ..

def revocDefStaticValidation (op : RevocDefOperation) : Except Raised Unit :=
  let tags := (op.credDefId.toList.splitOn ':').length
  raiseIf req (tags ≠ 4 ∧ tags ≠ 5) ("Format of credDefId field is not acceptable. " ++
    "Expected: 'did:marker:signature_type:schema_ref' or 'did:marker:signature_type:schema_ref:tag'")

def revocDefDynamicValidation (op : RevocDefOperation) : Except Raised Unit := do
  if op.credDefId = "" ∨ op.tag = "" ∨ op.revocDefType = "" then throw .assertionError
  setup.validate ledger req
    (objectAction revocRegDefType (ledger.state (revocDefPath req.identifier op)).isSome true)
  raiseIf req (ledger.state op.credDefId).isNone ("There is no any CRED_DEF by path: " ++ op.credDefId)

theorem revocDefDynamicValidation_iff (op : RevocDefOperation) :
    revocDefDynamicValidation setup ledger req op = .ok () ↔
      ¬(op.credDefId = "" ∨ op.tag = "" ∨ op.revocDefType = "") ∧
        setup.validate ledger req (objectAction revocRegDefType
          (ledger.state (revocDefPath req.identifier op)).isSome true) = .ok () ∧
        (ledger.state op.credDefId).isSome := by
  rw [revocDefDynamicValidation]
  by_cases incomplete : op.credDefId = "" ∨ op.tag = "" ∨ op.revocDefType = ""
  · rw [if_pos incomplete]
    refine iff_of_false ?_ fun valid => valid.1 incomplete
    simp [throw_eq]
  · rw [if_neg incomplete]
    cases setup.validate ledger req (objectAction revocRegDefType
      (ledger.state (revocDefPath req.identifier op)).isSome true) with
    | error raised => simp
    | ok _ => cases ledger.state op.credDefId <;> simp [raiseIf,incomplete]

/-- The whole operation is stored; of its value entries read the issuance type. -/
def revocDefUpdateState (op : RevocDefOperation) (seqNo txnTime : Nat) : Except Raised (State ι) :=
  match req.identifier with
  | none => .error .assertionError
  | some _ => .ok (Function.update ledger.state (revocDefPath req.identifier op)
      (some ⟨.registry (.definition ⟨op.revocDefType,op.issuanceType.text⟩),seqNo,txnTime⟩))

theorem revocDefUpdateState_eq (op : RevocDefOperation)
    (seqNo time : Nat) (state : State ι)
    (written : revocDefUpdateState ledger req op seqNo time = .ok state) :
    req.identifier ≠ none ∧ state = Function.update ledger.state (revocDefPath req.identifier op)
      (some ⟨.registry (.definition ⟨op.revocDefType,op.issuanceType.text⟩),seqNo,time⟩) := by
  rw [revocDefUpdateState] at written
  split at written
  · simp at written
  · rename_i author authored
    exact ⟨by simp [authored],(Except.ok.inj written).symm⟩

/-- The entry in force; nothing but entries is stored under the marker. -/
def currentEntry (id : String) : Except Raised (Option (Revocation.EntryRecord ι)) :=
  match ledger.state (Revocation.revocEntryPath id) with
  | none => .ok none
  | some ⟨.registry (.entry entry),_,_⟩ => .ok (some entry)
  | some _ => .error .typeError

variable {ledger} in
theorem currentEntry_true {id : String} {current : Option (Revocation.EntryRecord ι)}
    (read : currentEntry ledger id = .ok current) :
    holdsTrue ledger.state (Revocation.revocEntryPath id) = current.isSome := by
  rw [currentEntry] at read
  rw [holdsTrue]
  split at read
  · rename_i absent
    rw [← Except.ok.inj read,absent]
    rfl
  · rename_i stored
    rw [← Except.ok.inj read,stored]
    rfl
  · cases read

def currentEntryAndDef (id : String) :
    Except Raised (Option (Revocation.EntryRecord ι) × Value ι) := do
  let current ← currentEntry ledger id
  match ledger.state id with
  | none => throw (invalid req ("There is no any REVOC_REG_DEF by path: " ++ id))
  | some leaf => return (current,leaf.value)

theorem currentEntryAndDef_missing {ledger : Ledger ι} {id : String} {current : Option (Revocation.EntryRecord ι)}
    (entry : currentEntry ledger id = .ok current) (missing : ledger.state id = none) (req : Request) :
    currentEntryAndDef ledger req id = .error (invalid req ("There is no any REVOC_REG_DEF by path: " ++ id)) := by
  rw [currentEntryAndDef,entry,ok_bind,missing]
  rfl

theorem currentEntryAndDef_stored {ledger : Ledger ι} {id : String} {current : Option (Revocation.EntryRecord ι)}
    {leaf : Leaf ι} (entry : currentEntry ledger id = .ok current) (stored : ledger.state id = some leaf)
    (req : Request) : currentEntryAndDef ledger req id = .ok (current,leaf.value) := by
  rw [currentEntryAndDef,entry,ok_bind,stored]
  rfl

theorem currentEntryAndDef_found (ledger : Ledger ι) (req : Request) (id : String)
    (found : Option (Revocation.EntryRecord ι) × Value ι)
    (ok : currentEntryAndDef ledger req id = .ok found) :
    currentEntry ledger id = .ok found.1 ∧ ∃ leaf, ledger.state id = some leaf ∧ leaf.value = found.2 := by
  obtain ⟨current,entry,rest⟩ := bind_success _ _ _ ok
  cases known : ledger.state id with
  | none =>
    rw [known] at rest
    simp [throw_eq] at rest
  | some leaf =>
    rw [known] at rest
    rw [← Except.ok.inj rest]
    exact ⟨entry,leaf,rfl,rfl⟩

def entryRequest (op : RevocEntryOperation ι) : Revocation.Request ι where
  identifier := authorText req.identifier
  reqId := req.reqId
  revocRegDefId := op.revocRegDefId
  revocDefType := op.revocDefType
  value := op.value
  signed := by
    rw [authorText]
    cases req.identifier with
    | none => decide
    | some author => exact author.property
  named := op.named

/-- `rev_reg_tags.split(":", 1)[0] == author_did`. -/
def ownsRegistry (op : RevocEntryOperation ι) : Bool :=
  req.identifier.map (·.val.toList) = some (Separated.head ':' op.revocRegDefId.toList)

variable [DecidableEq ι]

def entryDynamicValidation [Revocation.PyStr ι] (op : RevocEntryOperation ι) : Except Raised Unit := do
  let found ← currentEntryAndDef ledger req op.revocRegDefId
  setup.validate ledger req (objectAction revocRegEntryType found.1.isSome (ownsRegistry req op))
  let kind ← found.2.strategy
  kind.validate found.1 (entryRequest req op)

/-- The two records of `set_to_state`: the entry, then its accumulator. -/
def setToState (op : RevocEntryOperation ι) (value : Revocation.EntryValue ι) (seqNo txnTime : Nat) :
    State ι :=
  let id := op.revocRegDefId
  Function.update
    (Function.update ledger.state (Revocation.revocEntryPath id)
      (some ⟨.registry (.entry ⟨id,op.revocDefType,value,seqNo,txnTime⟩),seqNo,txnTime⟩))
    (Revocation.revocAccumPath id)
    (some ⟨.registry (.accum ⟨id,op.revocDefType,value.accum,seqNo,txnTime⟩),seqNo,txnTime⟩)

omit [DecidableEq ι] in
theorem setToState_entry (op : RevocEntryOperation ι) (value : Revocation.EntryValue ι)
    (seqNo txnTime : Nat) : setToState ledger op value seqNo txnTime
      (Revocation.revocEntryPath op.revocRegDefId) = some ⟨.registry (.entry
        ⟨op.revocRegDefId,op.revocDefType,value,seqNo,txnTime⟩),seqNo,txnTime⟩ := by
  rw [setToState,Function.update_of_ne (Revocation.revocEntryPath_ne_accumPath _ _),Function.update_self]

omit [DecidableEq ι] in
theorem setToState_accum (op : RevocEntryOperation ι) (value : Revocation.EntryValue ι)
    (seqNo txnTime : Nat) : setToState ledger op value seqNo txnTime
      (Revocation.revocAccumPath op.revocRegDefId) = some ⟨.registry (.accum
        ⟨op.revocRegDefId,op.revocDefType,value.accum,seqNo,txnTime⟩),seqNo,txnTime⟩ := by
  rw [setToState,Function.update_self]

def entryUpdateState [PyHash ι] [LE ι] [DecidableLE ι] (op : RevocEntryOperation ι)
    (seqNo txnTime : Nat) : Except Raised (State ι) := do
  let found ← currentEntryAndDef ledger req op.revocRegDefId
  let kind ← found.2.strategy
  let value ← kind.writtenValue (setup.sortLegacy txnTime) found.1 op.value
  if req.identifier = none then throw .assertionError
  return setToState ledger op value seqNo txnTime

end Handlers
end IndyNode.Domain

import IndyNode.Revocation.Strategy

/-! `RevocRegEntryHandler`: the domain state as far as revocation uses it, the
dynamic validation of an entry and the update it makes. A state value is kept
decoded, together with the sequence number and the time stored next to it. -/
namespace IndyNode.Revocation

/-- The fields of a REVOC_REG_DEF that entries and replies read. -/
structure RevocRegDef where
  revocDefType : String
  issuanceType : String
deriving DecidableEq, Repr

inductive Record (ι : Type) where
  | definition (revocDef : RevocRegDef)
  | entry (entry : EntryRecord ι)
  | accum (accum : AccumRecord)
deriving DecidableEq, Repr

structure Leaf (ι : Type) where
  record : Record ι
  seqNo : Nat
  updateTime : Nat
deriving DecidableEq, Repr

abbrev DomainState (ι : Type) := String → Option (Leaf ι)

def revocEntryPath (revocRegDefId : String) : String := "5:" ++ revocRegDefId

def revocAccumPath (revocRegDefId : String) : String := "6:" ++ revocRegDefId

section Paths

private theorem marked_ne (marker : Char) (id : String) : String.ofList [marker,':'] ++ id ≠ id := by
  intro same
  have lengths := congrArg String.length same
  simp at lengths

@[simp] theorem revocEntryPath_ne_self (id : String) : revocEntryPath id ≠ id := marked_ne '5' id

@[simp] theorem revocAccumPath_ne_self (id : String) : revocAccumPath id ≠ id := marked_ne '6' id

@[simp] theorem revocEntryPath_ne_accumPath (id other : String) : revocEntryPath id ≠ revocAccumPath other := by
  intro same
  have lists := congrArg String.toList same
  simp [revocEntryPath,revocAccumPath] at lists

end Paths

section Handler
variable {ι : Type}

/-- `revoc_def[VALUE][ISSUANCE_TYPE]`: only a definition has that field. -/
def issuanceType : Record ι → Except Raised String
  | .definition revocDef => .ok revocDef.issuanceType
  | _ => .error .keyError

/-- Paths under the entry marker hold entries only. -/
def currentEntry (state : DomainState ι) (revocRegDefId : String) :
    Except Raised (Option (EntryRecord ι)) :=
  match state (revocEntryPath revocRegDefId) with
  | none => .ok none
  | some ⟨.entry entry,_,_⟩ => .ok (some entry)
  | some _ => .error .typeError

def getCurrentRevocEntryAndRevocDef (state : DomainState ι) (req : Request ι) :
    Except Raised (Option (EntryRecord ι) × Record ι) := do
  let current ← currentEntry state req.revocRegDefId
  match state req.revocRegDefId with
  | none => throw (.invalidClientRequest (some req.identifier) req.reqId
      ("There is no any REVOC_REG_DEF by path: " ++ req.revocRegDefId))
  | some leaf => return (current,leaf.record)

/-- An unknown issuance type gives `None`, which cannot be called. -/
def strategyOf (revocDef : Record ι) : Except Raised Kind := do
  match getRevocationStrategy (← issuanceType revocDef) with
  | none => throw .typeError
  | some kind => return kind

/-- `rev_reg_tags.split(":", 1)[0] == author_did`. -/
def isOwner (req : Request ι) : Bool :=
  req.revocRegDefId.toList.takeWhile (· ≠ ':') = req.identifier.toList

variable [DecidableEq ι]

/-- `authorize` is the check of the write-request validator for an edit or an
add of an entry, by the owner of the registry or by somebody else. -/
def dynamicValidation [PyStr ι] (authorize : (edit owner : Bool) → Except Raised Unit)
    (state : DomainState ι) (req : Request ι) : Except Raised Unit := do
  let (current,revocDef) ← getCurrentRevocEntryAndRevocDef state req
  authorize current.isSome (isOwner req)
  (← strategyOf revocDef).validate current req

/-- The two records of `set_to_state`: the entry, then its accumulator. -/
def setToState (state : DomainState ι) (txn : Txn ι) (value : EntryValue ι) : DomainState ι :=
  let id := txn.request.revocRegDefId
  let entry := EntryRecord.mk id txn.request.revocDefType value txn.seqNo txn.txnTime
  let accum := AccumRecord.mk id txn.request.revocDefType value.accum txn.seqNo txn.txnTime
  Function.update (Function.update state (revocEntryPath id) (some ⟨.entry entry,txn.seqNo,txn.txnTime⟩))
    (revocAccumPath id) (some ⟨.accum accum,txn.seqNo,txn.txnTime⟩)

def updateState [PyHash ι] [LE ι] [DecidableLE ι] (sortLegacy : Bool) (state : DomainState ι)
    (txn : Txn ι) : Except Raised (DomainState ι) := do
  let (current,revocDef) ← getCurrentRevocEntryAndRevocDef state txn.request
  let kind ← strategyOf revocDef
  return setToState state txn (← kind.writtenValue sortLegacy current txn.request.value)

end Handler
end IndyNode.Revocation

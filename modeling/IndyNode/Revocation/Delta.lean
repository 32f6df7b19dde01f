import IndyNode.Revocation.Handler

/-! `GetRevocRegDeltaHandler`: the reply to GET_REVOC_REG_DELTA, computed from
the committed states of two timestamps. A root hash is represented by the state
it belongs to, a state proof by the root and the path it is made for. -/
namespace IndyNode.Revocation
open Semantics.Registry

structure Batch (ι : Type) where
  time : Nat
  state : DomainState ι

structure StateProof (ι : Type) where
  root : DomainState ι
  path : String

structure StateValue (ι : Type) where
  rootHash : Option (DomainState ι)
  value : Option (Record ι)
  seqNo : Option Nat
  updateTime : Option Nat
  proof : Option (StateProof ι)

structure DeltaRequest where
  identifier : String
  reqId : Nat
  revocRegDefId : String
  source : Option Nat
  target : Nat

/-- STATE_PROOF_FROM and ACCUM_FROM. -/
structure SourcePart (ι : Type) where
  proof : Option (StateProof ι)
  accum : Option (Record ι)

/-- The `data` of a reply. Without an entry at `to` it has no lists and its
ACCUM_TO is `None`. -/
inductive DeltaData (ι : Type) where
  | delta (revocRegDefId revocType : String) (accumTo : Option (Record ι)) (change : Change ι)
      (source : Option (SourcePart ι))
  | bare (source : SourcePart ι)

structure DeltaResult (ι : Type) where
  data : Option (DeltaData ι)
  lastSeqNo : Option Nat
  updateTime : Option Nat
  proof : Option (StateProof ι)

/-- The accumulator inside a record. -/
def Record.accumulator {ι : Type} : Record ι → Option String
  | .definition _ => none
  | .entry held => some held.value.accum
  | .accum held => some held.accum

namespace DeltaResult
variable {ι : Type}

def change? (result : DeltaResult ι) : Option (Change ι) :=
  match result.data with
  | some (.delta _ _ _ change _) => some change
  | _ => none

def accumTo? (result : DeltaResult ι) : Option (Record ι) :=
  match result.data with
  | some (.delta _ _ accumTo _ _) => accumTo
  | _ => none

def source? (result : DeltaResult ι) : Option (SourcePart ι) :=
  match result.data with
  | some (.delta _ _ _ _ source) => source
  | some (.bare source) => some source
  | none => none

end DeltaResult

section Handler
variable {ι : Type}

/-- `ts_store.get_equal_or_prev`: the root after the last batch not later than
the timestamp. -/
def getEqualOrPrev (batches : List (Batch ι)) (timestamp : Nat) : Option (DomainState ι) :=
  ((batches.filter (·.time ≤ timestamp)).getLast?).map Batch.state

/-- `_get_reg_entry_by_timestamp` and `_get_reg_entry_accum_by_timestamp`, which
differ in the path they are given. -/
def valueByTimestamp (batches : List (Batch ι)) (timestamp : Nat) (path : String) : StateValue ι :=
  match getEqualOrPrev batches timestamp with
  | none => ⟨none,none,none,none,none⟩
  | some root =>
    match root path with
    | none => ⟨some root,none,none,none,some ⟨root,path⟩⟩
    | some leaf => ⟨some root,some leaf.record,some leaf.seqNo,some leaf.updateTime,some ⟨root,path⟩⟩

def StateValue.empty : StateValue ι := ⟨none,none,none,none,none⟩

/-- `value[VALUE].get(ISSUED, [])` and `value[VALUE].get(REVOKED, [])`. -/
def recordChange : Record ι → Except Raised (Change ι)
  | .entry entry => .ok entry.value.change
  | _ => .error .keyError

def staticValidation (req : DeltaRequest) : Except Raised Unit := do
  if req.target = 0 then throw .assertionError
  match req.source with
  | none => return ()
  | some source =>
    if source ≠ 0 ∧ source > req.target then
      throw (.invalidClientRequest (some req.identifier) req.reqId
        ("Timestamp FROM more then TO: " ++ toString source ++ " > " ++ toString req.target))

/-- A timestamp zero counts as absent here. -/
def givenSource (req : DeltaRequest) : Option Nat := req.source.filter (· ≠ 0)

/-- The class attribute `get_delta` of `None` does not exist. -/
def deltaStrategy (revocDef : Record ι) : Except Raised Kind := do
  match getRevocationStrategy (← issuanceType revocDef) with
  | none => throw .attributeError
  | some kind => return kind

def revocType : Record ι → String
  | .definition revocDef => revocDef.revocDefType
  | .entry entry => entry.revocDefType
  | .accum accum => accum.revocDefType

variable [DecidableEq ι]

/-- The reply when both records exist at `to`; `None` without a definition. -/
def deltaData (req : DeltaRequest) (entryTo accumTo entryFrom accumFrom : StateValue ι) :
    Except Raised (Option (DeltaData ι)) := do
  match accumTo.value,entryTo.value,entryTo.rootHash with
  | some accum,some entry,some root =>
    match root req.revocRegDefId with
    | none => return none
    | some leaf =>
      let kind ← deltaStrategy leaf.record
      let target ← recordChange entry
      let source ← match entryFrom.value,accumFrom.value with
        | some entry,some _ => do pure (some (← recordChange entry))
        | _,_ => pure none
      return some (.delta req.revocRegDefId (revocType leaf.record)
        (some (if entryFrom.value.isSome then accum else entry)) (kind.getDelta target source)
        ((givenSource req).map fun _ => ⟨accumFrom.proof,accumFrom.value⟩))
  | _,_,_ => return none

def getResult (batches : List (Batch ι)) (req : DeltaRequest) : Except Raised (DeltaResult ι) := do
  let entryTo := valueByTimestamp batches req.target (revocEntryPath req.revocRegDefId)
  let accumTo := valueByTimestamp batches req.target (revocAccumPath req.revocRegDefId)
  -- The records at `from` are only read when those at `to` and the definition exist.
  let known := accumTo.value.isSome && entryTo.value.isSome &&
    (entryTo.rootHash.bind fun root => root req.revocRegDefId).isSome
  let sourceValue (path : String) := match givenSource req with
    | some source => if known then valueByTimestamp batches source path else .empty
    | none => .empty
  let entryFrom := sourceValue (revocEntryPath req.revocRegDefId)
  let accumFrom := sourceValue (revocAccumPath req.revocRegDefId)
  let reply ← deltaData req entryTo accumTo entryFrom accumFrom
  let data := match reply,req.source with
    | none,some source =>
      let accumFrom := valueByTimestamp batches source (revocAccumPath req.revocRegDefId)
      some (.bare ⟨accumFrom.proof,accumFrom.value⟩)
    | _,_ => reply
  let decisive := if entryFrom.value.isSome then accumTo else entryTo
  return ⟨data,decisive.seqNo,decisive.updateTime,decisive.proof⟩

end Handler
end IndyNode.Revocation

import IndyNode.CompatSet
import IndyNode.Semantics.Registry
import Mathlib.Data.List.Sort
import Mathlib.Data.List.Dedup

/-! `indy_node/server/revocation_strategy.py`: how a registry entry is checked
against the entry in force, which index list is stored for it, and the
difference of two stored lists. Both strategies are one definition that keeps
the list of one status in the state. -/
namespace IndyNode.Revocation
open Semantics.Registry

/-- How a value appears inside an error text. -/
class PyStr (ι : Type) where
  str : ι → String

instance : PyStr Nat := ⟨toString⟩
instance : PyStr Int := ⟨toString⟩

def strList {ι : Type} [PyStr ι] (items : List ι) : String :=
  "[" ++ ", ".intercalate (items.map PyStr.str) ++ "]"

def strSet {ι : Type} [PyStr ι] (items : List ι) : String :=
  "\x7b" ++ ", ".intercalate (items.map PyStr.str) ++ "\x7d"

def strOption : Option String → String
  | none => "None"
  | some text => text

/-- The `value` of a REVOC_REG_ENTRY. The accumulator is mandatory in the
client schema, everything else may be missing. -/
structure EntryValue (ι : Type) where
  prevAccum : Option String
  accum : String
  issued : Option (List ι)
  revoked : Option (List ι)
deriving DecidableEq, Repr

/-- `value.get(ISSUED, [])` and `value.get(REVOKED, [])`. -/
def EntryValue.change {ι : Type} (value : EntryValue ι) : Change ι :=
  ⟨value.issued.getD [],value.revoked.getD []⟩

structure Request (ι : Type) where
  identifier : String
  reqId : Nat
  revocRegDefId : String
  revocDefType : String
  value : EntryValue ι
  signed : identifier ≠ ""
  named : revocRegDefId ≠ ""

/-- A transaction carries its request together with its place in the ledger. -/
structure Txn (ι : Type) where
  request : Request ι
  seqNo : Nat
  txnTime : Nat
  numbered : 0 < seqNo
  timed : 0 < txnTime

/-- The REVOC_REG_ENTRY record of the domain state. -/
structure EntryRecord (ι : Type) where
  revocRegDefId : String
  revocDefType : String
  value : EntryValue ι
  seqNo : Nat
  txnTime : Nat
deriving DecidableEq, Repr

/-- The record with the accumulator alone. -/
structure AccumRecord where
  revocRegDefId : String
  revocDefType : String
  accum : String
  seqNo : Nat
  txnTime : Nat
deriving DecidableEq, Repr

/-- `if wrong: raise InvalidClientRequest(...)`. -/
def refuse {ι : Type} (wrong : Prop) [Decidable wrong] (req : Request ι) (reason : String) :
    Except Raised Unit :=
  if wrong then .error (.invalidClientRequest (some req.identifier) req.reqId reason) else .ok ()

section Indices
variable {ι : Type} [DecidableEq ι]

def intersection (items others : List ι) : List ι := items.dedup.filter (· ∈ others)

def setDifference (items others : List ι) : List ι := items.dedup.filter (· ∉ others)

/-- `list(CompatSet(indices).difference(removed))` with `added` put in. -/
def legacyIndices [PyHash ι] (indices removed added : List ι) : Except Raised (List ι) := do
  let result ← CompatSet.init indices
  let result ← CompatSet.difference result [.list removed]
  let result ← CompatSet.updateAll result [.list added]
  result.iterate

def sortedIndices [LE ι] [DecidableLE ι] (indices removed added : List ι) : List ι :=
  (setDifference indices removed ++ added).dedup.insertionSort (· ≤ ·)

end Indices

/-- What tells the two subclasses apart: the status whose indices are stored,
and the words of its error texts. -/
structure Kind where
  kept : Status
  absentText : String × String
  presentText : String × String
deriving DecidableEq, Repr

def revokedStrategy : Kind where
  kept := .revoked
  absentText := ("Issued indices from txn: "," are not present in the current revoked list from state: ")
  presentText := ("Revoked indices from txn: "," are already revoked in current state: ")

def issuedStrategy : Kind where
  kept := .issued
  absentText := ("Revoked indices from txn: "," are not present in the current issued list from state: ")
  presentText := ("Issued indices from txn: "," are already issued in current state: ")

/-- The strategy classes, by `ISSUANCE_TYPE`. -/
def getRevocationStrategy (issuanceType : String) : Option Kind :=
  if issuanceType = "ISSUANCE_BY_DEFAULT" then some revokedStrategy
  else if issuanceType = "ISSUANCE_ON_DEMAND" then some issuedStrategy
  else none

namespace Kind
variable {ι : Type} [DecidableEq ι]

def specificValidation [PyStr ι] (kind : Kind) (current : EntryRecord ι) (req : Request ι) :
    Except Raised Unit := do
  let indices := current.value.change.listed kind.kept
  let difference := setDifference (req.value.change.listed kind.kept.opposite) indices
  refuse (difference.length > 0) req
    (kind.absentText.1 ++ strSet difference ++ kind.absentText.2 ++ strList indices)
  let common := intersection indices (req.value.change.listed kind.kept)
  refuse (common.length > 0) req
    (kind.presentText.1 ++ strSet common ++ kind.presentText.2 ++ strList indices)

def validate [PyStr ι] (kind : Kind) (current : Option (EntryRecord ι)) (req : Request ι) :
    Except Raised Unit := do
  let issued := req.value.change.issued
  let revoked := req.value.change.revoked
  refuse ((intersection issued revoked).length > 0) req
    "Can not have an index in both 'issued' and 'revoked' lists"
  match current with
  | none =>
    refuse (req.value.prevAccum ≠ none) req ("Got 'prevAccum': " ++ strOption req.value.prevAccum ++
      " but there is no previous REVOC_REG_ENTRY")
  | some entry =>
    -- The second value of the text is read from the state, not from the request.
    refuse (some entry.value.accum ≠ req.value.prevAccum) req
      ("The current accumulator value: " ++ entry.value.accum ++
        " must be equal to the last accumulator value: " ++ strOption entry.value.prevAccum ++
        " in transaction")
    refuse (issued.length = 0 ∧ revoked.length = 0) req
      "Got 'prevAccum' and 'accum' but 'issued' and 'revoked' lists are empty"
    refuse (req.value.prevAccum = some req.value.accum ∧ (issued.length > 0 ∨ revoked.length > 0)) req
      "Got equal accum and prev_accum but issued and revoked indices are not empty"
    kind.specificValidation entry req

/-- The index list of an entry that follows another one. -/
def resultIndices [PyHash ι] [LE ι] [DecidableLE ι] (kind : Kind) (sortLegacy : Bool)
    (current : EntryRecord ι) (value : EntryValue ι) : Except Raised (List ι) :=
  let indices := current.value.change.listed kind.kept
  let removed := value.change.listed kind.kept.opposite
  let added := value.change.listed kind.kept
  if sortLegacy then legacyIndices indices removed added
  else .ok (sortedIndices indices removed added)

def withIndices (kind : Kind) (value : EntryValue ι) (indices : List ι) : EntryValue ι :=
  match kind.kept with
  | .revoked => {value with issued := some [],revoked := some indices}
  | .issued => {value with revoked := some [],issued := some indices}

/-- The value `write` puts into the state: the first one as it came. -/
def writtenValue [PyHash ι] [LE ι] [DecidableLE ι] (kind : Kind) (sortLegacy : Bool)
    (current : Option (EntryRecord ι)) (value : EntryValue ι) : Except Raised (EntryValue ι) :=
  match current with
  | none => .ok value
  | some entry => do return kind.withIndices value (← kind.resultIndices sortLegacy entry value)

/-- The two lists of a reply, from the stored lists at `to` and at `from`. -/
def getDelta (kind : Kind) (target : Change ι) : Option (Change ι) → Change ι
  | none => target
  | some source =>
    let arrived := setDifference (target.listed kind.kept) (source.listed kind.kept)
    let left := setDifference (source.listed kind.kept) (target.listed kind.kept)
    match kind.kept with
    | .revoked => ⟨left,arrived⟩
    | .issued => ⟨arrived,left⟩

end Kind
end IndyNode.Revocation

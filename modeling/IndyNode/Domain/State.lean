import IndyNode.Nym.Handler
import IndyNode.Revocation.Handler
import IndyNode.Foundation.Separated

/-! The domain ledger as its handlers see it: the paths of `state/domain.py`, the
values stored under them, the attribute store and the types of the transactions.
Nyms live under hashes of DIDs and are kept apart. -/
namespace IndyNode.Domain
open Authorize Nym

def makeStatePathForAttr (did nameHash : String) : String := did ++ ":1:" ++ nameHash

def makeStatePathForSchema (authorsDid schemaName schemaVersion : String) : String :=
  authorsDid ++ ":2:" ++ schemaName ++ ":" ++ schemaVersion

def makeStatePathForClaimDef (authorsDid : String) (schemaSeqNo : Nat) (signatureType tag : String) :
    String :=
  authorsDid ++ ":3:" ++ signatureType ++ ":" ++ toString schemaSeqNo ++ ":" ++ tag

def makeStatePathForRevocDef (authorsDid credDefId revocDefType revocDefTag : String) : String :=
  authorsDid ++ ":4:" ++ credDefId ++ ":" ++ revocDefType ++ ":" ++ revocDefTag

/-- `IdentifierField`: base58 of 16 or 32 bytes. Only the alphabet and the length
of the text matter to the handlers. -/
def IsIdentifier (did : Did) : Prop :=
  16 ≤ did.val.length ∧
    ∀ c ∈ did.val.toList, c ∈ "123456789ABCDEFGHJKLMNPQRSTUVWXYZabcdefghijkmnopqrstuvwxyz".toList

instance : DecidablePred IsIdentifier := fun _ =>
  @instDecidableAnd _ _ (Nat.decLe _ _) (List.decidableBAll _ _)

theorem IsIdentifier.clean {did : Did} (shaped : IsIdentifier did) : ':' ∉ did.val.toList :=
  fun member => absurd (shaped.2 ':' member) (by decide)

/-- `"{DID}".format(DID=identifier)`. -/
def authorText (identifier : Option Did) : String := (identifier.map Subtype.val).getD "None"

/-- A value of the domain state. The public keys of a claim definition are a JSON
object with any keys. -/
inductive Value (ι : Type) where
  | attrib (hashedValue : String)
  | schema (attrNames : List String)
  | claimDef (publicKeys : List (String × Json))
  | registry (record : Revocation.Record ι)
deriving Repr

structure Leaf (ι : Type) where
  value : Value ι
  seqNo : Nat
  updateTime : Nat

abbrev State (ι : Type) := String → Option (Leaf ι)

/-- `if value:` of a value that was found. -/
def Value.truth {ι : Type} : Value ι → Bool
  | .attrib hashedValue => hashedValue ≠ ""
  | .claimDef publicKeys => !publicKeys.isEmpty
  | _ => true

/-- `json[key]`. -/
def subscript (key : String) : Json → Except Raised Json
  | .obj fields =>
    match fields.lookup key with
    | none => .error .keyError
    | some value => .ok value
  | _ => .error .typeError

/-- `revoc_def[VALUE][ISSUANCE_TYPE]`. A claim definition may happen to have the key. -/
def Value.issuanceType {ι : Type} : Value ι → Except Raised Json
  | .attrib _ => .error .typeError
  | .schema _ => .error .keyError
  | .claimDef publicKeys => do subscript "issuanceType" (← subscript "value" (.obj publicKeys))
  | .registry record => do return .str (← Revocation.issuanceType record)

/-- `get_revocation_strategy`, called. Lists and objects cannot be looked up, and of
an unknown type the result is `None`. -/
def Value.strategy {ι : Type} (value : Value ι) : Except Raised Revocation.Kind := do
  match ← value.issuanceType with
  | .str text =>
    match Revocation.getRevocationStrategy text with
    | none => throw .typeError
    | some kind => return kind
  | _ => throw .typeError

/-- The uncommitted ledger with everything derived from it. `txnTypes` has the type
of every transaction, in order. -/
structure Ledger (ι : Type) where
  nyms : NymState
  state : State ι
  attributes : String → Option String
  txnTypes : List String

/-- What the handlers are built with. `sha256` is the hexadecimal digest of the
encoded text, `dumps` the serializer of raw attributes and `sortLegacy` tells how
entries of a given time are sorted. -/
structure Setup where
  nym : NymSetup
  sha256 : String → String
  dumps : Json → String
  sortLegacy : Nat → Bool

def Setup.validate (setup : Setup) {ι : Type} (ledger : Ledger ι) (req : Request) (action : AuthAction) :
    Except Raised Unit :=
  Authorize.validate setup.nym.config ledger.nyms.cache req [action]

def nextSeqNo {ι : Type} (ledger : Ledger ι) : Nat := ledger.txnTypes.length + 1

end IndyNode.Domain

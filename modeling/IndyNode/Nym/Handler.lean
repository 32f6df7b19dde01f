import IndyNode.Nym.Operation
import IndyNode.Authorize.RequestValidator

/-! `NymHandler` and `IdrCacheNymHandler`: validation of a NYM against the cache
and the update of the domain state and of the cache. -/
namespace IndyNode.Nym
open Authorize

/-- The value of a nym in the domain state. -/
structure NymRecord where
  identifier : Option Did
  role : Role
  verkey : Option String
  diddocContent : Field String
  version : Field Int
  seqNo : Nat
  txnTime : Option Nat
deriving DecidableEq, Repr

/-- `decodeVerkey(encodeVerkey(verkey))`: a dash stands for an unset key. -/
def storedVerkey : Option String → Option String
  | some "-" => none
  | verkey => verkey

def NymRecord.cacheEntry (record : NymRecord) : CacheEntry :=
  ⟨record.seqNo,record.txnTime,record.identifier,record.role,storedVerkey record.verkey⟩

/-- The uncommitted domain state and the cache, which mirrors it. -/
structure NymState where
  nyms : Did → Option NymRecord
  cache : IdrCache
  agrees : ∀ did, cache did = (nyms did).map NymRecord.cacheEntry

/-- `base58` and `sha256`. Decoding may fail, in particular on `None`. -/
structure KeyCodec where
  b58encode : List UInt8 → String
  b58decode : Option String → Except Raised (List UInt8)
  sha256 : List UInt8 → List UInt8

def legacyConventionValidation (codec : KeyCodec) (identifier : Did) (verkey : Option String) :
    Except Raised Bool := do
  let bytes ← codec.b58decode verkey
  return identifier.val = codec.b58encode (bytes.take 16)

def isSelfCertifying (codec : KeyCodec) (identifier : Did) (verkey : Option String) :
    Except Raised Bool := do
  let bytes ← codec.b58decode verkey
  return identifier.val = codec.b58encode ((codec.sha256 bytes).take 16)

/-- `idr_cache.getOwnerFor` for a DID in the cache: its creator until it has a key. -/
def getOwnerFor (dest : Did) (entry : CacheEntry) : Option Did :=
  if truthy entry.verkey then some dest else entry.ta

/-- What the validation of a NYM depends on apart from the ledger. -/
structure NymSetup where
  config : ValidatorConfig
  codec : KeyCodec
  loads : String → Except Raised Json

section
variable (setup : NymSetup) (cache : IdrCache) (req : Request) (op : NymOperation)

def raiseIf (wrong : Bool) (reason : String) : Except Raised Unit :=
  if wrong then .error (invalid req reason) else .ok ()

/-- The author is unknown and creates itself. -/
def validateNonLedgerNym : Except Raised Unit := do
  raiseIf req (req.identifier ≠ some op.dest) ("DID which is not stored on ledger can " ++
    "send nym txn only if appropriate auth_rules set " ++
    "and sender did equal to destination nym")
  raiseIf req (!truthy op.verkey.get) "Non-ledger nym txn must contain verkey for new did"

def validateVersion : Except Raised Unit :=
  if op.version.get = some 1 then do
    let valid ← legacyConventionValidation setup.codec op.dest op.verkey.get
    raiseIf req (!valid) "Identifier with version 1 must be first 16 bytes of verkey"
  else if op.version.get = some 2 then do
    let valid ← isSelfCertifying setup.codec op.dest op.verkey.get
    raiseIf req (!valid) "Identifier with version 2 must be first 16 bytes of SHA256 of verkey"
  else .ok ()

/-- `getNym(None)` fails on `None.encode()`. -/
def validateAuthor : Except Raised Unit :=
  match req.identifier with
  | none => .error .attributeError
  | some author => if (cache author).isNone then validateNonLedgerNym req op else .ok ()

def validateNewNym : Except Raised Unit := do
  validateAuthor cache req op
  validateVersion setup req op
  let action : AuthAction := .add nymType "role" (op.role.getD .identityOwner).code true
  validate setup.config cache req [action]

/-- One turn of the loop over `[ROLE, VERKEY]`; a missing key is skipped. -/
def validateUpdate (field oldValue : String) (newValue : Option String) (isOwner : Bool) :
    Except Raised Unit :=
  match newValue with
  | none => .ok ()
  | some value => validate setup.config cache req [.edit nymType field oldValue value isOwner]

def validateUpdates (entry : CacheEntry) (isOwner : Bool) : Except Raised Unit := do
  validateUpdate setup cache req "role" entry.role.code (op.role.map Role.code) isOwner
  validateUpdate setup cache req "verkey" (entry.verkey.getD "")
    (op.verkey.map fun verkey => verkey.getD "") isOwner

def validateExistingNym (entry : CacheEntry) : Except Raised Unit := do
  let isOwner : Bool := req.identifier = getOwnerFor op.dest entry
  raiseIf req op.version.isSome "Cannot set version on existing nym"
  validateUpdates setup cache req op entry isOwner
  -- This exception carries no reason.
  raiseIf req (!(isOwner || op.role.isSome || op.verkey.isSome)) ""

def additionalDynamicValidation : Except Raised Unit :=
  match cache op.dest with
  | some entry => validateExistingNym setup cache req op entry
  | none => validateNewNym setup cache req op

end

/-- The value `NymHandler.update_state` writes and returns. -/
def updatedRecord (existing : Option NymRecord) (author : Option Did) (op : NymOperation)
    (seqNo : Nat) (txnTime : Option Nat) : NymRecord :=
  match existing with
  | none => ⟨author,op.role.getD .identityOwner,op.verkey.get,op.diddocContent,op.version,
      seqNo,txnTime⟩
  | some record => ⟨record.identifier,op.role.getD record.role,op.verkey.getD record.verkey,
      op.diddocContent.or record.diddocContent,op.version.or record.version,seqNo,txnTime⟩

/-- Both handlers of a NYM: the state first, then the cache from its result. -/
def NymState.update (state : NymState) (author : Option Did) (op : NymOperation) (seqNo : Nat)
    (txnTime : Option Nat) : NymState :=
  let record := updatedRecord (state.nyms op.dest) author op seqNo txnTime
  { nyms := fun did => if did = op.dest then some record else state.nyms did
    cache := fun did => if did = op.dest then some record.cacheEntry else state.cache did
    agrees := by
      intro did
      by_cases same : did = op.dest
      · simp [same]
      · simp [same,state.agrees did] }

/-- A request with the position and time it is ordered at. -/
structure Submission where
  req : ClientRequest
  seqNo : Nat
  txnTime : Option Nat

def applyNym (setup : NymSetup) (state : NymState) (sub : Submission) : Except Raised NymState := do
  let op ← staticValidation setup.loads sub.req
  additionalDynamicValidation setup state.cache sub.req.toRequest op
  return state.update sub.req.identifier op sub.seqNo sub.txnTime

/-- A refused request leaves the state as it is. -/
def stepNym (setup : NymSetup) (state : NymState) (sub : Submission) : NymState :=
  match applyNym setup state sub with
  | .ok next => next
  | .error _ => state

def runNyms (setup : NymSetup) (start : NymState) (subs : List Submission) : NymState :=
  subs.foldl (stepNym setup) start

end IndyNode.Nym

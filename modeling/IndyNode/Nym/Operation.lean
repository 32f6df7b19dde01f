import IndyNode.Authorize.Authorizer

/-! Client requests with their operation, and `NymHandler.static_validation`: what
a NYM operation must look like before the ledger is consulted. -/
namespace IndyNode.Nym
open Authorize

/-- A key of an operation may be missing, null or hold a value. -/
abbrev Field (α : Type) := Option (Option α)

def Field.get {α : Type} (field : Field α) : Option α := field.join

/-- The keys of an operation that the NYM code reads. -/
structure Operation where
  txnType : String
  dest : Option String
  role : Field String
  verkey : Field String
  diddocContent : Field String
  version : Field Int
deriving DecidableEq, Repr

structure ClientRequest extends Request where
  operation : Operation

def nymType : String := "1"

/-- A value of `json.loads`. Of a number only whether it is zero matters. -/
inductive Json where
  | null
  | bool (value : Bool)
  | num (isZero : Bool)
  | str (text : String)
  | arr (items : List Json)
  | obj (fields : List (String × Json))
deriving Repr

def Json.truth : Json → Bool
  | .null => false
  | .bool value => value
  | .num isZero => !isZero
  | .str text => text ≠ ""
  | .arr items => !items.isEmpty
  | .obj fields => !fields.isEmpty

/-- `text.partition("#")[2]`. -/
def fragment (text : String) : String :=
  .ofList ((text.toList.dropWhile fun c => c ≠ '#').drop 1)

def hasSameIdFragment (item : Json) (wanted : String) : Except Raised Bool :=
  match item with
  | .obj fields =>
    match fields.lookup "id" with
    | none => .ok false
    | some (.str text) => .ok (fragment text = wanted)
    | some _ => .error .attributeError
  | _ => .ok false

/-- One pass over the items of a list; the first hit ends it. -/
def anySameIdFragment (wanted : String) : List Json → Except Raised Bool
  | [] => .ok false
  | item::items => do
    if ← hasSameIdFragment item wanted then return true
    anySameIdFragment wanted items

def anyListHolds (wanted : String) : List Json → Except Raised Bool
  | [] => .ok false
  | .arr items::values => do
    if ← anySameIdFragment wanted items then return true
    anyListHolds wanted values
  | _::values => anyListHolds wanted values

/-- The reason of the `InvalidDIDDocException`, if there is one. -/
def validateDiddocContent (diddoc : Json) : Except Raised (Option String) :=
  match diddoc with
  | .obj fields => do
    if ((fields.lookup "id").map Json.truth).getD false then
      return some "diddocContent must not have \x60id\x60 at root"
    if ← anyListHolds "verkey" (fields.map Prod.snd) then
      return some ("diddocContent must not have object with \x60id\x60 " ++
        "containing fragment \x60verkey\x60")
    return none
  | _ => .error .attributeError

/-- The characters `str.strip` removes. -/
def isSpace (c : Char) : Bool :=
  let code := c.toNat
  (9 ≤ code && code ≤ 13) || (28 ≤ code && code ≤ 32) || code = 0x85 || code = 0xA0 ||
    code = 0x1680 || (0x2000 ≤ code && code ≤ 0x200A) || code = 0x2028 || code = 0x2029 ||
    code = 0x202F || code = 0x205F || code = 0x3000

/-- `Authoriser.ValidRoles`; null is the identity owner. -/
def validRole : Option String → Option Role
  | none => some .identityOwner
  | some "0" => some .trustee
  | some "2" => some .steward
  | some "101" => some .endorser
  | some "201" => some .networkMonitor
  | some _ => none

structure NymOperation where
  dest : Did
  role : Option Role
  verkey : Field String
  diddocContent : Field String
  version : Field Int
deriving DecidableEq, Repr

def identifierText (req : Request) : Option String := req.identifier.map Subtype.val

def invalid (req : Request) (reason : String) : Raised :=
  .invalidClientRequest (identifierText req) req.reqId reason

def validDest (req : ClientRequest) : Except Raised Did :=
  match req.operation.dest with
  | none => .error (invalid req.toRequest "dest needs to be present")
  | some text =>
    if blank : text.toList.all isSpace = true then
      .error (invalid req.toRequest "dest needs to be present")
    else .ok ⟨text,fun empty => blank (by simp [empty])⟩

/-- `None` for a missing role; an unknown role is refused. -/
def checkRole (req : ClientRequest) : Except Raised (Option Role) :=
  match req.operation.role with
  | none => .ok none
  | some value =>
    match validRole value with
    | some role => .ok (some role)
    | none => .error (invalid req.toRequest (value.getD "None" ++ " not a valid role"))

def checkDiddoc (loads : String → Except Raised Json) (req : ClientRequest) : Except Raised Unit :=
  match req.operation.diddocContent.get with
  | none => .ok ()
  | some text =>
    if text = "" then .ok ()
    else do
      match ← validateDiddocContent (← loads text) with
      | none => return
      | some reason => throw (invalid req.toRequest reason)

def checkVersion (req : ClientRequest) : Except Raised Unit :=
  match req.operation.version.get with
  | none => .ok ()
  | some version =>
    if version = 0 ∨ version = 1 ∨ version = 2 then .ok ()
    else .error (invalid req.toRequest
      ("Version must be one of \x7b0, 1, 2\x7d, received " ++ toString version))

/-- `loads` is `json.loads`. -/
def staticValidation (loads : String → Except Raised Json) (req : ClientRequest) :
    Except Raised NymOperation := do
  let dest ← validDest req
  let role ← checkRole req
  checkDiddoc loads req
  checkVersion req
  return ⟨dest,role,req.operation.verkey,req.operation.diddocContent,req.operation.version⟩

end IndyNode.Nym

import IndyNode.Config.AuthRules
import IndyNode.Foundation.Separated
import IndyNode.Nym.Steps
import IndyNode.Upgrade.Upgrader
import Mathlib.Data.List.DropRight
import Mathlib.Data.List.Infix

/-! `PoolUpgradeHandler`: who may plan an upgrade, and which package is looked up before
it is planned. -/
namespace IndyNode.Upgrade
open Authorize
open Nym (isSpace raiseIf raiseIf_ok)

section Texts

/-- Where `str.splitlines` breaks a text. -/
def isLineBreak (c : Char) : Bool :=
  let code := c.toNat
  (10 ≤ code && code ≤ 13) || (28 ≤ code && code ≤ 30) || code = 0x85 || code = 0x2028 || code = 0x2029

def firstLine : List Char → List Char := Separated.before fun rest => rest.head?.any isLineBreak

/-- One of the single marks, or `&&`. -/
def atMark (marks : Char → Bool) (rest : List Char) : Bool :=
  rest.head?.any marks || ['&','&'].isPrefixOf rest

/-- `re.split(marks, text.splitlines()[0], 1)[0].rstrip()`. -/
def firstPiece (marks : Char → Bool) (text : String) : String :=
  String.ofList ((Separated.before (atMark marks) (firstLine text.toList)).rdropWhile isSpace)

def packageMarks (c : Char) : Bool := isSpace c || c = ';' || c = '|'

/-- Only allow processing of a single package. -/
def singlePackage : String → String := firstPiece packageMarks

def composeCmd (cmd : List String) : String := firstPiece (fun c => c = ';') (" ".intercalate cmd)

end Texts

/-- The machine a node runs on. `readInfo` reads the output of the package manager with
a version class, `full` is the text of a version and `newer` their order. -/
structure PackageSystem (V : Type) where
  shell : String → String
  readInfo : (String → Option V) → String → Option V × List String
  newer : V → V → Bool
  full : V → String

section Checks
variable {V : Type} [DecidableEq V] (setup : UpgradeSetup V) (system : PackageSystem V)

def selectionsCmd : String :=
  composeCmd ["dpkg","--get-selections","|","grep","-v","deinstall","|","cut","-f1"]

def packageExists (package : String) : Bool :=
  package.toList ∈ (system.shell selectionsCmd).toList.splitOn '\n'

/-- The first line of an empty text is what `splitlines()[0]` fails on. -/
def getCurrInfo (package : String) : Except String String :=
  if package = "" then .error "list index out of range"
  else if packageExists system (singlePackage package) then
    .ok (system.shell (composeCmd ["dpkg","-s",singlePackage package]))
  else .ok ""

def currPkgInfo (pkgName : String) : Except String (Option V × List String) := do
  let info ← getCurrInfo system pkgName
  return system.readInfo (setup.srcVersionCls pkgName) info

def mentionsApp (text : String) : Bool := "indy-node".toList <:+: text.toList

def isVersionUpgradable (old new : V) (reinstall : Bool) : Bool :=
  system.newer new old || (new = old && reinstall)

def versionClassText (pkgName : String) : String :=
  if pkgName = "indy-node" then "<class 'indy_common.node_version.NodeVersion'>"
  else "<class 'indy_common.version.TopPkgDefVersion'>"

def packageReason (pkgName : String) (target : V) (reinstall : Bool) (info : Option V × List String) :
    Option String :=
  match info.1 with
  | none => some ("package " ++ pkgName ++ " is not installed and cannot be upgraded")
  | some version =>
    if ¬mentionsApp pkgName ∧ info.2.all (fun dep => !mentionsApp dep) then
      some ("Package " ++ pkgName ++ " doesn't belong to pool")
    else if ¬isVersionUpgradable system version target reinstall then
      some ("Version " ++ system.full target ++ " is not upgradable")
    else none

/-- The reason why a package cannot be upgraded, if there is one. -/
def checkUpgradePossible (pkgName targetVer : String) (reinstall : Bool) : Except String (Option String) :=
  match setup.srcVersionCls pkgName targetVer with
  | none => .ok (some ("invalid target version " ++ targetVer ++ " for version class " ++
      versionClassText pkgName ++ ": "))
  | some target => (currPkgInfo setup system pkgName).map (packageReason system pkgName target reinstall)

end Checks

structure UpgradeOperation where
  name : String
  action : UpgradeAction
  version : String
  schedule : List (String × String)
  package : Option String
  timeout : Option Nat
  force : Bool
  reinstall : Bool

/-- What validation reads of a transaction of the config ledger. -/
structure ConfigPayload where
  name : Option String
  version : Option String
  action : Option String

section Handler

def UpgradeAction.text : UpgradeAction → String
  | .start => "start"
  | .cancel => "cancel"

/-- The action last recorded for the name and version, `*` if there is none. -/
def upgradeStatus (payloads : List ConfigPayload) (op : UpgradeOperation) : String :=
  match payloads.reverse.find? fun payload => payload.name = some op.name ∧ payload.version = some op.version with
  | none => "*"
  | some payload => payload.action.getD "*"

def upgradeAuthAction (status : String) (op : UpgradeOperation) : AuthAction :=
  if status = "*" then .add "109" "action" op.action.text true
  else .edit "109" "action" status op.action.text true

variable {V : Type} [DecidableEq V] (auth : ValidatorConfig) (cache : IdrCache)
  (payloads : List ConfigPayload) (setup : UpgradeSetup V) (system : PackageSystem V)

def UpgradeOperation.packageText (op : UpgradeOperation) : String := op.package.getD setup.upgradeEntry

/-- What is wrong with the package, empty if nothing is. An exception is a reason too. -/
def refusal (op : UpgradeOperation) : String :=
  match checkUpgradePossible setup system (singlePackage (op.packageText setup)) op.version op.reinstall with
  | .error text => text
  | .ok reason => reason.getD ""

def additionalDynamicValidation (req : Request) (op : UpgradeOperation) : Except Raised Unit := do
  let status := upgradeStatus payloads op
  raiseIf req (status = "start" ∧ op.action = .start) ("Upgrade '" ++ op.name ++ "' is already scheduled")
  validate auth cache req [upgradeAuthAction status op]
  raiseIf req (op.packageText setup = "") "Upgrade package name is empty"
  raiseIf req (refusal setup system op ≠ "") (refusal setup system op)

/-- `_req_to_txn`, as far as the upgrader reads the transaction. -/
def reqToTxn (req : Request) (op : UpgradeOperation) : PoolUpgrade :=
  ⟨op.action,op.version,op.schedule,op.package,op.timeout,op.force,req.reqId⟩

end Handler

section Accepted
variable {V : Type} [DecidableEq V] (setup : UpgradeSetup V) (system : PackageSystem V)

omit [DecidableEq V] in
private theorem currPkgInfo_error (pkgName reason : String)
    (failed : currPkgInfo setup system pkgName = .error reason) :
    reason ≠ "" := by
  rw [currPkgInfo,getCurrInfo] at failed
  split at failed
  · rw [← Except.error.inj failed]
    simp
  · split at failed <;> simp at failed

private theorem packageReason_text (pkgName : String) (target : V) (reinstall : Bool) (info : Option V × List String)
    (reason : String) (refused : packageReason system pkgName target reinstall info = some reason) :
    reason ≠ "" := by
  rw [packageReason] at refused
  split at refused
  · rw [← Option.some.inj refused]
    simp
  · split at refused
    · rw [← Option.some.inj refused]
      simp
    · split at refused
      · rw [← Option.some.inj refused]
        simp
      · simp at refused

private theorem checkUpgradePossible_reason (pkgName targetVer : String) (reinstall : Bool) (reason : String)
    (result : checkUpgradePossible setup system pkgName targetVer reinstall = .error reason ∨
      checkUpgradePossible setup system pkgName targetVer reinstall = .ok (some reason)) : reason ≠ "" := by
  rw [checkUpgradePossible] at result
  cases parsed : setup.srcVersionCls pkgName targetVer with
  | none =>
    simp only [parsed,Except.ok.injEq,Option.some.injEq,reduceCtorEq,false_or] at result
    rw [← result]
    simp
  | some target =>
    rw [parsed] at result
    cases info : currPkgInfo setup system pkgName with
    | error text =>
      simp only [info,Except.map,Except.error.injEq,reduceCtorEq,or_false] at result
      rw [← result]
      exact currPkgInfo_error setup system pkgName text info
    | ok found =>
      simp only [info,Except.map,Except.ok.injEq,reduceCtorEq,false_or] at result
      exact packageReason_text system pkgName target reinstall found reason result

/-- A request passes only if nothing is said against its first package. -/
theorem accepted_checked (auth : ValidatorConfig) (cache : IdrCache) (payloads : List ConfigPayload)
    (req : Request) (op : UpgradeOperation)
    (accepted : additionalDynamicValidation auth cache payloads setup system req op = .ok ()) :
    checkUpgradePossible setup system (singlePackage (op.packageText setup)) op.version op.reinstall = .ok none := by
  have reasons := checkUpgradePossible_reason setup system (singlePackage (op.packageText setup)) op.version
    op.reinstall
  obtain ⟨_,_,rest⟩ := bind_success _ _ _ accepted
  obtain ⟨_,_,rest⟩ := bind_success _ _ _ rest
  obtain ⟨_,_,rest⟩ := bind_success _ _ _ rest
  have silent : refusal setup system op = "" := by
    simpa using raiseIf_ok req _ _ rest
  rw [refusal] at silent
  cases result : checkUpgradePossible setup system (singlePackage (op.packageText setup)) op.version
      op.reinstall with
  | error text =>
    rw [result] at silent
    exact absurd silent (reasons text (.inl result))
  | ok reason =>
    rw [result] at silent
    cases reason with
    | none => rfl
    | some text => exact absurd silent (reasons text (.inr result))

end Accepted
end IndyNode.Upgrade

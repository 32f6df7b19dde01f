import IndyNode.Config.AuthRuleRuns
import IndyNode.Revocation.Flag

/-! The config state that auth rules, flags and author agreements share. Rules have a
marker of their own; flags and agreements have the same one, and a flag may have any
name. -/
namespace IndyNode.Config
open Authorize Revocation
open Nym (Json invalid)

inductive ConfigValue where
  | rule (dict : ConstraintDict)
  | flag (state : FlagState)
  | digest (digest : String)
  | agreement (text : Option String) (version : String) (seqNo time : Nat)

abbrev ConfigTrie := String → Option ConfigValue

structure FlagOperation where
  name : Json
  value : Json

structure AgreementOperation where
  text : Option String
  version : String

/-- `taaDigest` is the digest of an agreement's text and version. -/
structure ConfigSetup extends Setup where
  taaDigest : Option String → String → String

inductive ConfigTxn where
  | rules (req : RuleRequest)
  | flag (req : Request) (op : FlagOperation)
  | agreement (req : Request) (op : AgreementOperation)

section Views

def ConfigValue.rule? : ConfigValue → Option ConstraintDict
  | .rule dict => some dict
  | _ => none

def ConfigValue.flag? : ConfigValue → Option FlagState
  | .flag state => some state
  | _ => none

def ConfigValue.agreement? : ConfigValue → Option ConfigValue
  | .digest hash => some (.digest hash)
  | .agreement text version seqNo time => some (.agreement text version seqNo time)
  | _ => none

variable (trie : ConfigTrie)

def ConfigTrie.rules : RuleState := fun path => (trie path).bind ConfigValue.rule?

def ConfigTrie.flag (name : String) : Option FlagState := (trie (flagPath name)).bind ConfigValue.flag?

def ConfigTrie.agreement (path : String) : Option ConfigValue := (trie path).bind ConfigValue.agreement?

end Views

section Handlers
variable (setup : ConfigSetup) (cache : IdrCache) (trie : ConfigTrie)

def setRule (rule : Rule) : Except Raised ConfigTrie := do
  let constraint ← deserialize rule.constraint
  let authKey ← getAuthKey rule.ruleName
  return Function.update trie (makeStatePathForAuthRule authKey) (some (.rule (Constraint.asDict constraint)))

/-- `FlagRequestHandler.static_validation`, with the name and value it admits. -/
def flagStaticValidation (req : Request) (op : FlagOperation) : Except Raised (String × Option String) :=
  if !op.name.truth then .error (invalid req "Flag name is required")
  else
    match op.name with
    | .str name =>
      match op.value with
      | .str value => .ok (name,some value)
      | .null => .ok (name,none)
      | _ => .error (invalid req "Flag value must be of type string or None")
    | _ => .error (invalid req "Flag name must be of type string")

/-- No part of the action is given, so every one is an empty text. -/
def flagAction : AuthAction := .edit "130" "" "" "" true

def updateFlag (name : String) (value : Option String) (seqNo time : Nat) : ConfigTrie :=
  Function.update trie (flagPath name) (some (.flag ⟨value,seqNo,time⟩))

def statePathTaaLatest : String := "2:latest"

def statePathTaaVersion (version : String) : String := "2:v:" ++ version

def statePathTaaDigest (digest : String) : String := "2:d:" ++ digest

def agreementAction (op : AgreementOperation) : AuthAction :=
  if (trie (statePathTaaVersion op.version)).isNone then .add "4" "*" "*" true
  else .edit "4" "*" "*" "*" true

def updateTxnAuthorAgreement (op : AgreementOperation) (seqNo time : Nat) : ConfigTrie :=
  let digest := setup.taaDigest op.text op.version
  let stored := Function.update trie (statePathTaaDigest digest)
    (some (.agreement op.text op.version seqNo time))
  let latest := Function.update stored statePathTaaLatest (some (.digest digest))
  Function.update latest (statePathTaaVersion op.version) (some (.digest digest))

def applyConfig (seqNo time : Nat) : ConfigTxn → Except Raised ConfigTrie
  | .rules req => do
    staticValidation setup.toSetup req
    dynamicValidation setup.toSetup cache trie.rules req
    req.operation.rules.foldlM setRule trie
  | .flag req op => do
    let (name,value) ← flagStaticValidation req op
    validate (setup.validator trie.rules) cache req [flagAction]
    return updateFlag trie name value seqNo time
  | .agreement req op => do
    validate (setup.validator trie.rules) cache req [agreementAction trie op]
    return updateTxnAuthorAgreement setup trie op seqNo time

/-- The config states reached by accepted transactions. -/
inductive ConfigHistory (start : ConfigTrie) : List ConfigTxn → ConfigTrie → Prop where
  | start : ConfigHistory start [] start
  | step (history : List ConfigTxn) (before after : ConfigTrie) (txn : ConfigTxn) (cache : IdrCache)
      (seqNo time : Nat) (earlier : ConfigHistory start history before)
      (applied : applyConfig setup cache before seqNo time txn = .ok after) :
      ConfigHistory start (history ++ [txn]) after

end Handlers

section Refinement
variable (trie next : ConfigTrie)

private theorem setRule_rules (rule : Rule) (ok : setRule trie rule = .ok next) :
    updateRule trie.rules rule = .ok next.rules := by
  obtain ⟨constraint,created,ok⟩ := bind_success _ _ _ ok
  obtain ⟨key,built,ok⟩ := bind_success _ _ _ ok
  obtain rfl := Except.ok.inj ok
  simp only [updateRule,created,built,ok_bind,updateAuthConstraint]
  refine congrArg Except.ok (funext fun path => ?_)
  by_cases here : path = makeStatePathForAuthRule key
  · simp [here,ConfigTrie.rules,ConfigValue.rule?]
  · simp [ConfigTrie.rules,Function.update_of_ne here]

private theorem setRules_rules (rules : List Rule) (ok : rules.foldlM setRule trie = .ok next) :
    rules.foldlM updateRule trie.rules = .ok next.rules := by
  induction rules generalizing trie with
  | nil =>
    obtain rfl := Except.ok.inj ok
    rfl
  | cons rule rules ih =>
    rw [List.foldlM_cons] at ok ⊢
    obtain ⟨middle,first,rest⟩ := bind_success _ _ _ ok
    rw [setRule_rules trie middle rule first,ok_bind]
    exact ih middle rest

end Refinement

section Paths

private theorem rulePath_ne_flagPath (key name : String) : makeStatePathForAuthRule key ≠ flagPath name := by
  intro same
  have lists := congrArg String.toList same
  simp [makeStatePathForAuthRule,flagPath] at lists

private theorem flagPath_inj (first second : String) (same : flagPath first = flagPath second) : first = second := by
  have lists := congrArg String.toList same
  exact String.toList_inj.mp (by simpa [flagPath] using lists)

/-- The names of flags that stand where agreements are stored. -/
def Reserved (name : String) : Prop :=
  name = "latest" ∨ (∃ version, name = "v:" ++ version) ∨ ∃ digest, name = "d:" ++ digest

def AgreementOperation.paths (setup : ConfigSetup) (op : AgreementOperation) : List String :=
  [statePathTaaDigest (setup.taaDigest op.text op.version),statePathTaaLatest,statePathTaaVersion op.version]

/-- The keys of the three kinds, by the paths their handlers make. -/
def RuleKey (path : String) : Prop := ∃ key, path = makeStatePathForAuthRule key

def FlagKey (path : String) : Prop := ∃ name, ¬Reserved name ∧ path = flagPath name

def AgreementKey (path : String) : Prop := ∃ name, Reserved name ∧ path = flagPath name

private theorem agreementKey_of_path (setup : ConfigSetup) (op : AgreementOperation) (path : String)
    (member : path ∈ op.paths setup) : AgreementKey path := by
  simp only [AgreementOperation.paths,List.mem_cons,List.not_mem_nil,or_false] at member
  rcases member with rfl | rfl | rfl
  · refine ⟨"d:" ++ setup.taaDigest op.text op.version,.inr (.inr ⟨_,rfl⟩),String.toList_inj.mp ?_⟩
    simp [statePathTaaDigest,flagPath]
  · exact ⟨"latest",.inl rfl,rfl⟩
  · refine ⟨"v:" ++ op.version,.inr (.inl ⟨_,rfl⟩),String.toList_inj.mp ?_⟩
    simp [statePathTaaVersion,flagPath]

private theorem AgreementKey.reserved {name : String} (taken : AgreementKey (flagPath name)) : Reserved name := by
  obtain ⟨other,reserved,same⟩ := taken
  exact flagPath_inj _ _ same ▸ reserved

private theorem ruleKey_not_agreement {path : String} (rule : RuleKey path) : ¬AgreementKey path := by
  obtain ⟨key,rfl⟩ := rule
  rintro ⟨name,_,same⟩
  exact rulePath_ne_flagPath key name same

private theorem flagKey_not_agreement {path : String} (flag : FlagKey path) : ¬AgreementKey path := by
  obtain ⟨name,free,rfl⟩ := flag
  exact fun taken => free taken.reserved

end Paths

section Effects
variable (setup : ConfigSetup) (trie : ConfigTrie) (seqNo time : Nat)

private theorem updateAgreement_other (op : AgreementOperation) (path : String) (other : path ∉ op.paths setup) :
    updateTxnAuthorAgreement setup trie op seqNo time path = trie path := by
  simp only [AgreementOperation.paths,List.mem_cons,List.not_mem_nil,or_false,not_or] at other
  rw [updateTxnAuthorAgreement,Function.update_of_ne other.2.2,Function.update_of_ne other.2.1,
    Function.update_of_ne other.1]

private theorem updateAgreement_written (op : AgreementOperation) (path : String) (written : path ∈ op.paths setup) :
    ∃ value, updateTxnAuthorAgreement setup trie op seqNo time path = some value ∧ value.flag? = none := by
  simp only [updateTxnAuthorAgreement]
  by_cases version : path = statePathTaaVersion op.version
  · rw [version,Function.update_self]
    exact ⟨_,rfl,rfl⟩
  rw [Function.update_of_ne version]
  by_cases latest : path = statePathTaaLatest
  · rw [latest,Function.update_self]
    exact ⟨_,rfl,rfl⟩
  rw [Function.update_of_ne latest]
  simp only [AgreementOperation.paths,List.mem_cons,List.not_mem_nil,or_false] at written
  obtain rfl := written.resolve_right (by simp [version,latest])
  rw [Function.update_self]
  exact ⟨_,rfl,rfl⟩

private theorem updateFlag_agreements (name : String) (value : Option String) :
    (∀ path, (updateFlag trie name value seqNo time).agreement path = trie.agreement path) ↔
      trie.agreement (flagPath name) = none := by
  have written : (updateFlag trie name value seqNo time).agreement (flagPath name) = none := by
    rw [ConfigTrie.agreement,updateFlag,Function.update_self]
    rfl
  constructor
  · intro kept
    rw [← kept,written]
  · intro free path
    by_cases here : path = flagPath name
    · rw [here,written,free]
    · rw [ConfigTrie.agreement,updateFlag,Function.update_of_ne here]
      rfl

private theorem updateFlag_rules (name : String) (value : Option String) (key : String) :
    (updateFlag trie name value seqNo time).rules (makeStatePathForAuthRule key) =
      trie.rules (makeStatePathForAuthRule key) := by
  rw [ConfigTrie.rules,updateFlag,Function.update_of_ne (rulePath_ne_flagPath key name)]
  rfl

private theorem updateAgreement_flags (op : AgreementOperation) :
    (∀ name, (updateTxnAuthorAgreement setup trie op seqNo time).flag name = trie.flag name) ↔
      ∀ name, flagPath name ∈ op.paths setup → trie.flag name = none := by
  have written : ∀ name, flagPath name ∈ op.paths setup →
      (updateTxnAuthorAgreement setup trie op seqNo time).flag name = none := by
    intro name member
    obtain ⟨value,stored,kind⟩ := updateAgreement_written setup trie seqNo time op _ member
    rw [ConfigTrie.flag,stored]
    exact kind
  constructor
  · intro kept name member
    rw [← kept,written name member]
  · intro free name
    by_cases member : flagPath name ∈ op.paths setup
    · rw [written name member,free name member]
    · rw [ConfigTrie.flag,updateAgreement_other setup trie seqNo time op _ member]
      rfl

private theorem setRules_flags (next : ConfigTrie) (rules : List Rule) (ok : rules.foldlM setRule trie = .ok next)
    (name : String) : next (flagPath name) = trie (flagPath name) := by
  induction rules generalizing trie with
  | nil =>
    obtain rfl := Except.ok.inj ok
    rfl
  | cons rule rules ih =>
    rw [List.foldlM_cons] at ok
    obtain ⟨middle,first,rest⟩ := bind_success _ _ _ ok
    obtain ⟨constraint,_,first⟩ := bind_success _ _ _ first
    obtain ⟨key,_,first⟩ := bind_success _ _ _ first
    obtain rfl := Except.ok.inj first
    rw [ih _ rest]
    exact Function.update_of_ne (rulePath_ne_flagPath key name).symm ..

private theorem updateFlag_keys (name : String) (value : Option String) (free : ¬Reserved name) (path : String)
    (other : RuleKey path ∨ AgreementKey path) : updateFlag trie name value seqNo time path = trie path := by
  obtain ⟨key,rfl⟩ | taken := other
  · exact Function.update_of_ne (rulePath_ne_flagPath key name) ..
  · exact Function.update_of_ne (fun same => free (same ▸ taken).reserved) ..

private theorem setRules_keys (next : ConfigTrie) (rules : List Rule) (ok : rules.foldlM setRule trie = .ok next)
    (path : String) (other : FlagKey path ∨ AgreementKey path) : next path = trie path := by
  obtain ⟨name,_,rfl⟩ | ⟨name,_,rfl⟩ := other
  · exact setRules_flags trie next rules ok name
  · exact setRules_flags trie next rules ok name

private theorem updateAgreement_keys (op : AgreementOperation) (path : String)
    (other : RuleKey path ∨ FlagKey path) :
    updateTxnAuthorAgreement setup trie op seqNo time path = trie path := by
  refine updateAgreement_other setup trie seqNo time op path fun member => ?_
  have own := agreementKey_of_path setup op path member
  rcases other with rule | flag
  · exact ruleKey_not_agreement rule own
  · exact flagKey_not_agreement flag own

end Effects

section Runs
variable (setup : ConfigSetup)

/-- Everything an accepted transaction can have changed. -/
inductive ConfigEffect (trie : ConfigTrie) (seqNo time : Nat) : ConfigTxn → ConfigTrie → Prop where
  | rules (req : RuleRequest) (next : ConfigTrie) (written : req.operation.rules.foldlM setRule trie = .ok next) :
      ConfigEffect trie seqNo time (.rules req) next
  | flag (req : Request) (op : FlagOperation) (name : String) (value : Option String)
      (named : op.name = .str name) :
      ConfigEffect trie seqNo time (.flag req op) (updateFlag trie name value seqNo time)
  | agreement (req : Request) (op : AgreementOperation) :
      ConfigEffect trie seqNo time (.agreement req op) (updateTxnAuthorAgreement setup trie op seqNo time)

private theorem flagStaticValidation_named (req : Request) (op : FlagOperation) (name : String)
    (value : Option String) (ok : flagStaticValidation req op = .ok (name,value)) : op.name = .str name := by
  rw [flagStaticValidation] at ok
  split at ok
  · simp at ok
  · split at ok
    · rename_i text named
      split at ok <;> simp_all
    · simp at ok

private theorem applyConfig_effect (cache : IdrCache) (trie next : ConfigTrie) (seqNo time : Nat) (txn : ConfigTxn)
    (ok : applyConfig setup cache trie seqNo time txn = .ok next) :
    ConfigEffect setup trie seqNo time txn next := by
  cases txn with
  | rules req =>
    obtain ⟨_,_,ok⟩ := bind_success _ _ _ ok
    obtain ⟨_,_,ok⟩ := bind_success _ _ _ ok
    exact .rules req next ok
  | flag req op =>
    obtain ⟨⟨name,value⟩,shaped,ok⟩ := bind_success _ _ _ ok
    obtain ⟨_,_,ok⟩ := bind_success _ _ _ ok
    obtain rfl := Except.ok.inj ok
    exact .flag req op name value (flagStaticValidation_named req op name value shaped)
  | agreement req op =>
    obtain ⟨_,_,ok⟩ := bind_success _ _ _ ok
    obtain rfl := Except.ok.inj ok
    exact .agreement req op

/-- Not a flag with the name of an agreement's key. -/
def Unreserved (txn : ConfigTxn) : Prop :=
  ∀ req op name, txn = .flag req op → op.name = .str name → ¬Reserved name

/-- Agreements stand under reserved names only, and no flag does. -/
structure Apart (trie : ConfigTrie) : Prop where
  agreements : ∀ name, ¬Reserved name → trie.agreement (flagPath name) = none
  flags : ∀ name, Reserved name → trie.flag name = none

private theorem Apart.step {trie next : ConfigTrie} {seqNo time : Nat} {txn : ConfigTxn} (apart : Apart trie)
    (unreserved : Unreserved txn) (effect : ConfigEffect setup trie seqNo time txn next) : Apart next := by
  cases effect with
  | rules req next written =>
    have same := setRules_flags trie next req.operation.rules written
    refine ⟨fun name free => ?_,fun name taken => ?_⟩
    · rw [ConfigTrie.agreement,same]
      exact apart.agreements name free
    · rw [ConfigTrie.flag,same]
      exact apart.flags name taken
  | flag req op name value named =>
    have free := unreserved req op name rfl named
    have kept := (updateFlag_agreements trie seqNo time name value).mpr (apart.agreements name free)
    refine ⟨fun other unclaimed => (kept _).trans (apart.agreements other unclaimed),fun other taken => ?_⟩
    have differ : flagPath other ≠ flagPath name := by
      intro same
      exact free (flagPath_inj _ _ same ▸ taken)
    rw [ConfigTrie.flag,updateFlag,Function.update_of_ne differ]
    exact apart.flags other taken
  | agreement req op =>
    have reserved := fun name member => (agreementKey_of_path setup op (flagPath name) member).reserved
    have kept := (updateAgreement_flags setup trie seqNo time op).mpr
      fun name member => apart.flags name (reserved name member)
    refine ⟨fun other free => ?_,fun other taken => (kept other).trans (apart.flags other taken)⟩
    rw [ConfigTrie.agreement,updateAgreement_other setup trie seqNo time op _ fun member => free (reserved other member)]
    exact apart.agreements other free

private theorem ConfigHistory.apart {start trie : ConfigTrie} {history : List ConfigTxn}
    (run : ConfigHistory setup start history trie) (empty : ∀ path, start path = none)
    (unreserved : ∀ txn ∈ history, Unreserved txn) : Apart trie := by
  induction run with
  | start => exact ⟨fun name _ => by simp [ConfigTrie.agreement,empty],fun name _ => by simp [ConfigTrie.flag,empty]⟩
  | step history before after txn cache seqNo time _ applied ih =>
    have earlier := ih fun other member => unreserved other (List.mem_append_left _ member)
    exact earlier.step setup (unreserved txn (by simp)) (applyConfig_effect setup cache before after seqNo time txn applied)

/-- Rules and flags never change each other. A flag leaves the agreements exactly when
none is stored under its path, an agreement the flags exactly when none is stored
under its three; both are so in runs without flags of reserved names, where every kind
writes under keys of its own. -/
theorem config_kinds_frame (start trie next : ConfigTrie) (history : List ConfigTxn) (txn : ConfigTxn)
    (cache : IdrCache) (seqNo time : Nat) (empty : ∀ path, start path = none)
    (run : ConfigHistory setup start history trie)
    (ok : applyConfig setup cache trie seqNo time txn = .ok next) :
    (∀ req op, txn = .flag req op →
      (∀ key, next.rules (makeStatePathForAuthRule key) = trie.rules (makeStatePathForAuthRule key)) ∧
      ((∀ path, next.agreement path = trie.agreement path) ↔
        ∀ name, op.name = .str name → trie.agreement (flagPath name) = none)) ∧
    (∀ req, txn = .rules req → updateState trie.rules req.operation = .ok next.rules ∧
      ∀ name, next.flag name = trie.flag name) ∧
    (∀ req op, txn = .agreement req op →
      ((∀ name, next.flag name = trie.flag name) ↔
        ∀ name, flagPath name ∈ op.paths setup → trie.flag name = none)) ∧
    ((∀ other ∈ history ++ [txn], Unreserved other) →
      (∀ req op, txn = .flag req op → (∀ path, next.agreement path = trie.agreement path) ∧
        ∀ path, RuleKey path ∨ AgreementKey path → next path = trie path) ∧
      (∀ req, txn = .rules req → ∀ path, FlagKey path ∨ AgreementKey path → next path = trie path) ∧
      ∀ req op, txn = .agreement req op → (∀ name, next.flag name = trie.flag name) ∧
        ∀ path, RuleKey path ∨ FlagKey path → next path = trie path) := by
  have effect := applyConfig_effect setup cache trie next seqNo time txn ok
  refine ⟨?_,?_,?_,?_⟩
  · rintro req op rfl
    cases effect with
    | flag _ _ name value named =>
      refine ⟨updateFlag_rules trie seqNo time name value,?_⟩
      rw [updateFlag_agreements]
      refine ⟨fun free other same => ?_,fun free => free name named⟩
      cases named.symm.trans same
      exact free
  · rintro req rfl
    cases effect with
    | rules _ _ written =>
      refine ⟨setRules_rules trie next req.operation.rules written,fun name => ?_⟩
      rw [ConfigTrie.flag,setRules_flags trie next req.operation.rules written]
      rfl
  · rintro req op rfl
    cases effect with
    | agreement => exact updateAgreement_flags setup trie seqNo time op
  · intro unreserved
    have apart := run.apart setup empty fun other member => unreserved other (List.mem_append_left _ member)
    refine ⟨?_,?_,?_⟩
    · rintro req op rfl
      cases effect with
      | flag _ _ name value named =>
        have free := unreserved (.flag req op) (by simp) req op name rfl named
        exact ⟨(updateFlag_agreements trie seqNo time name value).mpr (apart.agreements name free),
          updateFlag_keys trie seqNo time name value free⟩
    · rintro req rfl
      cases effect with
      | rules _ _ written => exact setRules_keys trie next req.operation.rules written
    · rintro req op rfl
      cases effect with
      | agreement =>
        refine ⟨(updateAgreement_flags setup trie seqNo time op).mpr fun name member => ?_,
          updateAgreement_keys setup trie seqNo time op⟩
        exact apart.flags name (agreementKey_of_path setup op _ member).reserved

end Runs

def sampleSetup : ConfigSetup := ⟨trusteesDecide,fun _ version => version⟩

def firstAgreement : ConfigTxn := .agreement Nym.signedByA ⟨some "text","1"⟩

def flagNamed (name : String) : ConfigTxn := .flag Nym.signedByA ⟨.str name,.str "on"⟩

def withAgreement : ConfigTrie :=
  updateTxnAuthorAgreement sampleSetup (fun _ => none) ⟨some "text","1"⟩ 1 10

/-- Without rules on the ledger a trustee may do what a rule of the map allows. -/
theorem trustee_allowed (trie : ConfigTrie) (unset : ∀ key, trie.rules (makeStatePathForAuthRule key) = none)
    (rule : AuthAction × Constraint) (listed : rule ∈ authRules) (action : AuthAction)
    (clean : action.actionDef.Clean) (accepts : rule.1.actionDef.accepts action.actionDef = true)
    (holds : oneTrusteeConstraint.eval (leafHolds Nym.ledgerOfTrustee.cache Nym.signedByA action) = true) :
    validate (sampleSetup.validator trie.rules) Nym.ledgerOfTrustee.cache Nym.signedByA [action] = .ok () := by
  refine (validate_iff _ _ _ _ _).mpr ⟨oneTrusteeConstraint,?_,holds⟩
  refine getAuthConstraint_inForce _ _ rule listed trie.rules _ (.inl ⟨rfl,unset _⟩) _ ?_
  rw [AuthAction.actionId,AuthAction.actionId,isAcceptedActionId_split _ _ (authRules_clean rule listed) _
    (splitActionId_compile _ clean),accepts]

private theorem withAgreement_rules (key : String) : withAgreement.rules (makeStatePathForAuthRule key) = none := by
  have elsewhere : makeStatePathForAuthRule key ∉ AgreementOperation.paths sampleSetup ⟨some "text","1"⟩ :=
    fun member => ruleKey_not_agreement ⟨key,rfl⟩ (agreementKey_of_path sampleSetup _ _ member)
  rw [ConfigTrie.rules,withAgreement,updateAgreement_other _ _ _ _ _ _ elsewhere]
  rfl

private theorem agreement_added : applyConfig sampleSetup Nym.ledgerOfTrustee.cache
    (fun _ => none) 1 10 firstAgreement =
    .ok withAgreement := by
  have allowed := trustee_allowed (fun _ => none) (fun _ => rfl) (txnAuthorAgreement,_)
    (List.mem_of_getElem? (i := 6) rfl) (agreementAction (fun _ => none) ⟨some "text","1"⟩) (by decide) (by decide)
    (by decide)
  simp only [applyConfig,firstAgreement,allowed,ok_bind]
  rfl

private theorem flag_added (name : String) (named : name ≠ "") :
    applyConfig sampleSetup Nym.ledgerOfTrustee.cache withAgreement 2 20 (flagNamed name) =
      .ok (updateFlag withAgreement name (some "on") 2 20) := by
  have allowed := trustee_allowed withAgreement withAgreement_rules (editConfigFlag,_)
    (List.mem_of_getElem? (i := 49) rfl) flagAction (by decide) (by decide) (by decide)
  have shaped : flagStaticValidation Nym.signedByA ⟨.str name,.str "on"⟩ = .ok (name,some "on") := by
    simp [flagStaticValidation,Json.truth,named]
  simp only [applyConfig,flagNamed,shaped,allowed,ok_bind]
  rfl

private theorem agreement_history : ConfigHistory sampleSetup (fun _ => none) [firstAgreement] withAgreement :=
  .step [] _ _ firstAgreement Nym.ledgerOfTrustee.cache 1 10 .start agreement_added

private theorem ordering_unreserved : ¬Reserved "ordering" := by
  rintro (latest | ⟨version,same⟩ | ⟨digest,same⟩)
  · exact absurd latest (by decide)
  · simpa using congrArg String.toList same
  · simpa using congrArg String.toList same

theorem plain_flag_keeps_agreement :
    (∀ path, (updateFlag withAgreement "ordering" (some "on") 2 20).agreement path = withAgreement.agreement path) ∧
      (∀ path, RuleKey path ∨ AgreementKey path →
        updateFlag withAgreement "ordering" (some "on") 2 20 path = withAgreement path) ∧
      withAgreement.agreement statePathTaaLatest ≠ none := by
  obtain ⟨_,_,_,frame⟩ := config_kinds_frame sampleSetup (fun _ => none) withAgreement _ [firstAgreement]
    (flagNamed "ordering") Nym.ledgerOfTrustee.cache 2 20 (fun _ => rfl) agreement_history
    (flag_added "ordering" (by decide))
  have unreserved : ∀ other ∈ [firstAgreement] ++ [flagNamed "ordering"], Unreserved other := by
    intro other member req op name same named
    rcases List.mem_append.mp member with first | second
    · rw [List.mem_singleton.mp first] at same
      cases same
    · rw [List.mem_singleton.mp second] at same
      cases same
      cases named
      exact ordering_unreserved
  obtain ⟨kept,raw⟩ := (frame unreserved).1 Nym.signedByA ⟨.str "ordering",.str "on"⟩ rfl
  exact ⟨kept,raw,Option.some_ne_none (ConfigValue.digest "1")⟩

/-- A flag named like the key of the latest agreement takes its place. -/
theorem flag_replaces_agreement :
    ConfigHistory sampleSetup (fun _ => none) [firstAgreement] withAgreement ∧
    ∃ next, applyConfig sampleSetup Nym.ledgerOfTrustee.cache withAgreement 2 20 (flagNamed "latest") = .ok next ∧
      withAgreement.agreement statePathTaaLatest = some (.digest "1") ∧
      next.agreement statePathTaaLatest = none :=
  ⟨agreement_history,_,flag_added "latest" (by decide),rfl,rfl⟩

end IndyNode.Config

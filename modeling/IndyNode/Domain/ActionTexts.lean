import IndyNode.Domain.Attribute
import IndyNode.Authorize.ActionTexts
import IndyNode.Authorize.OwnerRules
import IndyNode.Authorize.Unambiguous

/-! The actions the domain handlers build and the texts inside them. Identifiers of
actions are joined with two dashes, which an attribute may contain. -/
namespace IndyNode.Domain
open Authorize Nym

/-- Every action a handler of the domain ledger builds. -/
inductive Built : AuthAction → Prop where
  | newNym (role : Role) : Built (.add nymType "role" role.code true)
  | role (old new : Role) (isOwner : Bool) : Built (.edit nymType "role" old.code new.code isOwner)
  | verkey (old new : String) (isOwner : Bool) : Built (.edit nymType "verkey" old new isOwner)
  | attrib (field : AttrType) (existing : Option Nat) (old : Option String) (value : String)
      (isOwner : Bool) : Built (attribAction field existing old value isOwner)
  | add (txnType : String) (isOwner : Bool)
      (object : txnType ∈ ["101","102","113","114","200","201","202","203","204","205"]) :
      Built (.add txnType "*" "*" isOwner)
  | edit (txnType : String) (isOwner : Bool)
      (object : txnType ∈ ["101","102","113","114","200","201","202","203","204","205"]) :
      Built (.edit txnType "*" "*" "*" isOwner)

/-- The old and the new value can be told apart again once they are joined. -/
structure Tellable (old new : String) : Prop where
  new : Undashed new.toList
  old : Undashed (old.toList ++ ['-'])

private theorem headClean_of_parts (action : ActionDef)
    (clean : '-' ∉ (action.txnType ++ action.prefixName ++ action.field).toList) : action.HeadClean := by
  simp only [String.toList_append,List.mem_append,not_or] at clean
  exact ⟨clean.1.1,clean.1.2,clean.2⟩

theorem Built.headClean {action : AuthAction} (built : Built action) : action.actionDef.HeadClean := by
  refine headClean_of_parts _ ?_
  cases built with
  | newNym role => exact (by decide : '-' ∉ ("1" ++ "ADD" ++ "role").toList)
  | role old new isOwner => exact (by decide : '-' ∉ ("1" ++ "EDIT" ++ "role").toList)
  | verkey old new isOwner => exact (by decide : '-' ∉ ("1" ++ "EDIT" ++ "verkey").toList)
  | attrib field existing old value isOwner =>
    have named : ∀ field : AttrType, ∀ word ∈ ["ADD","EDIT"],
        '-' ∉ ("100" ++ word ++ field.name).toList := by
      intro field
      cases field <;> decide
    cases existing with
    | none => exact named field "ADD" (by simp)
    | some seqNo => exact named field "EDIT" (by simp)
  | add txnType isOwner object =>
    have each : ∀ txnType ∈ ["101","102","113","114","200","201","202","203","204","205"],
        '-' ∉ (txnType ++ "ADD" ++ "*").toList := by
      decide
    exact each txnType object
  | edit txnType isOwner object =>
    have each : ∀ txnType ∈ ["101","102","113","114","200","201","202","203","204","205"],
        '-' ∉ (txnType ++ "EDIT" ++ "*").toList := by
      decide
    exact each txnType object

/-- An identifier whose first parts have no dash is split correctly exactly when
its values can be told apart. -/
theorem splitActionId_head_iff (action : ActionDef) (clean : action.HeadClean) :
    splitActionId (compileActionId action) = .ok action ↔ Tellable action.oldValue action.newValue := by
  rw [splitActionId_compile_iff]
  constructor
  · intro separable
    exact ⟨separable.newValue,separable.oldValue⟩
  · intro tellable
    exact ⟨Undashed.closed clean.txnType,Undashed.closed clean.prefixName,Undashed.closed clean.field,
      tellable.old,tellable.new⟩

section Attrib
variable {ι : Type} (policy : AuthPolicy) (describe : Request → String)

/-- The rule for an attribute that is new, or that replaces another. -/
def attribRule (existing : Option Nat) : AuthAction := if existing.isSome then editAttrib else addAttrib

private theorem attribRule_listed (existing : Option Nat) : (attribRule existing,ownerConstraint) ∈ authRules := by
  cases existing with
  | none => exact List.mem_of_getElem? (i := 10) rfl
  | some seqNo => exact List.mem_of_getElem? (i := 11) rfl

private theorem attribRule_accepts (field : AttrType) (existing : Option Nat) (old : Option String)
    (value : String) (isOwner : Bool) :
    (attribRule existing).actionDef.accepts (attribAction field existing old value isOwner).actionDef =
      true := by
  cases existing with
  | none => simp [attribRule,addAttrib,addAny,attribAction,AuthAction.actionDef,ActionDef.accepts,attribType]
  | some seqNo =>
    simp [attribRule,editAttrib,editAny,attribAction,AuthAction.actionDef,ActionDef.accepts,attribType]

theorem attribAction_values (field : AttrType) (existing : Option Nat) (old : Option String)
    (value : String) (isOwner : Bool) :
    Tellable (attribAction field existing old value isOwner).actionDef.oldValue
        (attribAction field existing old value isOwner).actionDef.newValue ↔
      Undashed value.toList ∧ (existing.isSome → Undashed ((old.getD "").toList ++ ['-'])) := by
  cases existing with
  | none =>
    have wildcard : Undashed ("*".toList ++ ['-']) := by decide
    exact ⟨fun tellable => ⟨tellable.new,by simp⟩,fun texts => ⟨texts.1,wildcard⟩⟩
  | some seqNo => exact ⟨fun tellable => ⟨tellable.new,fun _ => tellable.old⟩,fun texts => ⟨texts.1,texts.2 rfl⟩⟩

variable (setup : Setup) (ledger : Ledger ι) (req : Request) (op : AttribOperation) (entry : CacheEntry)
  (field : AttrType) (value key : String) (old : Option String) (existing : Option Nat)

private theorem attribDynamicValidation_found (known : ledger.nyms.cache op.dest = some entry)
    (shape : op.existing = [(field,value)]) (named : attribKey setup field value = .ok key)
    (found : getAttr setup ledger op.dest key field = .ok (old,existing)) :
    attribDynamicValidation setup req op ledger = setup.validate ledger req
      (attribAction field existing old value (getOwnerFor op.dest entry = req.identifier)) := by
  simp only [attribDynamicValidation,known,attribLookup,shape,named,found,ok_bind]
  rfl

/-- The owner's attribute is accepted when its texts can be told apart. -/
theorem attribDynamicValidation_told (default : setup.nym.config = defaultConfig policy describe)
    (known : ledger.nyms.cache op.dest = some entry) (shape : op.existing = [(field,value)])
    (named : attribKey setup field value = .ok key)
    (found : getAttr setup ledger op.dest key field = .ok (old,existing))
    (owner : getOwnerFor op.dest entry = req.identifier)
    (entitled : ownerConstraint.eval (leafHolds ledger.nyms.cache req
      (attribAction field existing old value true)) = true)
    (parts : splitActionId (attribAction field existing old value true).actionId =
      .ok (attribAction field existing old value true).actionDef) :
    isAcceptedActionId (attribRule existing).actionId
      (attribAction field existing old value true).actionId = .ok true ∧
    attribDynamicValidation setup req op ledger = .ok () := by
  have listed := attribRule_listed existing
  have matched : isAcceptedActionId (attribRule existing).actionId
      (attribAction field existing old value true).actionId = .ok true := by
    rw [AuthAction.actionId,isAcceptedActionId_split _ _ (authRules_clean _ listed) _ parts,
      attribRule_accepts]
  refine ⟨matched,?_⟩
  rw [attribDynamicValidation_found setup ledger req op entry field value key old existing known shape
    named found,decide_eq_true owner,Setup.validate,default,validate_iff]
  exact ⟨ownerConstraint,getAuthConstraint_accepting policy describe _ listed _ matched,entitled⟩

/-- Whatever is stored, an attribute's action is split correctly, matched by its rule
and accepted from the owner exactly when its texts can be told apart. -/
theorem attribute_texts_decide (default : setup.nym.config = defaultConfig policy describe)
    (known : ledger.nyms.cache op.dest = some entry) (shape : op.existing = [(field,value)])
    (named : attribKey setup field value = .ok key)
    (found : getAttr setup ledger op.dest key field = .ok (old,existing))
    (owner : getOwnerFor op.dest entry = req.identifier)
    (entitled : ownerConstraint.eval (leafHolds ledger.nyms.cache req
      (attribAction field existing old value true)) = true) :
    (splitActionId (attribAction field existing old value true).actionId =
        .ok (attribAction field existing old value true).actionDef ∧
      isAcceptedActionId (attribRule existing).actionId
        (attribAction field existing old value true).actionId = .ok true ∧
      attribDynamicValidation setup req op ledger = .ok () ↔
        Undashed value.toList ∧ (existing.isSome → Undashed ((old.getD "").toList ++ ['-']))) ∧
    ∀ action, Built action →
      (splitActionId action.actionId = .ok action.actionDef ↔
        Tellable action.actionDef.oldValue action.actionDef.newValue) := by
  have everywhere : ∀ action, Built action →
      (splitActionId action.actionId = .ok action.actionDef ↔
        Tellable action.actionDef.oldValue action.actionDef.newValue) :=
    fun action built => splitActionId_head_iff action.actionDef built.headClean
  have split := (everywhere _ (.attrib field existing old value true)).trans
    (attribAction_values field existing old value true)
  refine ⟨⟨fun holds => split.mp holds.1,fun texts => ?_⟩,everywhere⟩
  have parts := split.mpr texts
  exact ⟨parts,attribDynamicValidation_told policy describe setup ledger req op entry field value key old existing
    default known shape named found owner entitled parts⟩

private theorem validate_unsplit (cache : IdrCache) (action : AuthAction) (error : Raised)
    (unsplit : splitActionId action.actionId = .error error) :
    validate (defaultConfig policy describe) cache req [action] = .error error := by
  have first : ∀ rules : List (AuthAction × Constraint), rules ≠ [] →
      (∀ rule ∈ rules, rule.1.actionDef.Clean) →
      findAuthConstraintKey action.actionId (keyed rules) = .error error := by
    intro rules nonempty clean
    cases rules with
    | nil => exact absurd rfl nonempty
    | cons rule rules =>
      have head := splitActionId_compile _ (clean rule List.mem_cons_self)
      simp only [keyed,List.map_cons,findAuthConstraintKey,isAcceptedActionId,AuthAction.actionId,head,
        ok_bind]
      rw [AuthAction.actionId] at unsplit
      rw [unsplit]
      rfl
  have search := first authRules (by simp [authRules]) authRules_clean
  simp only [validate,getAuthConstraint,defaultConfig,authMap,search]
  rfl

end Attrib

def ownerDid : Did := ⟨"V4SGRU86Z58d6TV7PBUe6f",by decide⟩

/-- The owner is on the ledger with a role and a key, nobody else is. -/
def ownerRecord (role : Role) : NymRecord := ⟨none,role,some "key",none,none,1,none⟩

def ownerNyms (role : Role) : NymState where
  nyms did := if did = ownerDid then some (ownerRecord role) else none
  cache did := if did = ownerDid then some (ownerRecord role).cacheEntry else none
  agrees did := by
    by_cases same : did = ownerDid
    · simp [same]
    · simp [same]

def ownerLedger (role : Role) : Ledger Nat := ⟨ownerNyms role,fun _ => none,fun _ => none,["1"]⟩

def signedByOwner : Request where
  identifier := some ownerDid
  reqId := 1
  signature := some "signature"
  signatures := []
  endorser := none
  distinct := List.nodup_nil
  identified := fun _ => Option.some_ne_none ownerDid

/-- A setup with the default rules; nothing is hashed or parsed. -/
def plainSetup : Setup where
  nym := ⟨defaultConfig .configLedger fun _ => "",⟨fun _ => "",fun _ => .error .valueError,id⟩,
    fun _ => .error .valueError⟩
  sha256 text := text
  dumps _ := ""
  sortLegacy _ := false

/-- The owner may do what a default rule allows to a trustee who owns the object. -/
theorem owner_allowed (ledger : Ledger Nat) (nyms : ledger.nyms = ownerNyms .trustee)
    (rule : AuthAction × Constraint) (listed : rule ∈ authRules) (action : AuthAction)
    (same : action.actionDef = rule.1.actionDef)
    (holds : rule.2.eval (leafHolds (ownerNyms .trustee).cache signedByOwner action) = true) :
    plainSetup.validate ledger signedByOwner action = .ok () := by
  rw [Setup.validate,nyms]
  exact validate_rule .configLedger (fun _ => "") _ _ rule listed action same holds

def rawName (text : String) : String := "\x7b\"name\": \"" ++ text ++ "\"\x7d"

/-- Of JSON only the one raw attribute is read. -/
def nameSetup (text : String) : Setup where
  nym := ⟨defaultConfig .configLedger fun _ => "",⟨fun _ => "",fun _ => .error .valueError,id⟩,
    fun raw => if raw = rawName text then .ok (.obj [("name",.str text)]) else .error .valueError⟩
  sha256 text := text
  dumps _ := rawName text
  sortLegacy _ := false

def nameOperation (text : String) : AttribOperation := ⟨ownerDid,some (rawName text),none,none⟩

theorem dashes_fail_owner :
    attribStaticValidation (nameSetup "a--b") signedByOwner (nameOperation "a--b") = .ok () ∧
      attribDynamicValidation (nameSetup "a--b") signedByOwner (nameOperation "a--b") (ownerLedger .identityOwner) =
        .error .typeError ∧
      ownerConstraint.eval (leafHolds (ownerLedger .identityOwner).nyms.cache signedByOwner
        (attribAction .raw none none (rawName "a--b") true)) = true := by
  refine ⟨by decide,?_,by decide⟩
  rw [attribDynamicValidation_found _ _ _ _ (ownerRecord .identityOwner).cacheEntry .raw (rawName "a--b") "name" none none
    rfl rfl (by decide) rfl]
  refine validate_unsplit .configLedger (fun _ => "") _ _ _ .typeError ?_
  rw [AuthAction.actionId,splitActionId,compileActionId_toList]
  decide

theorem single_dashes_pass :
    attribDynamicValidation (nameSetup "a-b") signedByOwner (nameOperation "a-b") (ownerLedger .identityOwner) =
      .ok () := by
  have decided := attribute_texts_decide .configLedger (fun _ => "") (nameSetup "a-b") (ownerLedger .identityOwner)
    signedByOwner (nameOperation "a-b") (ownerRecord .identityOwner).cacheEntry .raw (rawName "a-b") "name" none none
    rfl rfl rfl (by decide) rfl (by decide) (by decide)
  exact (decided.1.mpr (by decide)).2.2

end IndyNode.Domain

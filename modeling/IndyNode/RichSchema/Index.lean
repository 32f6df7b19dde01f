import IndyNode.Foundation.Loop
import IndyNode.Foundation.Separated
import IndyNode.Nym.Privilege
import IndyNode.RichSchema.Objects

/-! Rich schema objects in runs of accepted transactions: that an object is found by its id
and by its type, name and version, and by nothing else. -/
namespace IndyNode.RichSchema
open Authorize Nym

section Keys

/-- Types and versions without a colon leave one way to read a secondary key. -/
theorem makeSecondaryKey_inj {first second : Metadata} (firstType : ':' ∉ first.rsType.toList)
    (secondType : ':' ∉ second.rsType.toList) (firstVersion : ':' ∉ first.rsVersion.toList)
    (secondVersion : ':' ∉ second.rsVersion.toList)
    (same : makeSecondaryKey first = makeSecondaryKey second) : first = second := by
  have lists := congrArg String.toList same
  simp only [makeSecondaryKey,String.toList_append,show ":".toList = [':'] from rfl,List.append_assoc,
    List.singleton_append] at lists
  have outer := Separated.joined_inj ':' (first.rsType.toList,_) (second.rsType.toList,_) firstType secondType lists
  obtain ⟨types,rest⟩ := Prod.mk.inj outer
  have inner := Separated.joined_inj_right ':' (first.rsName.toList,first.rsVersion.toList)
    (second.rsName.toList,second.rsVersion.toList) firstVersion secondVersion rest
  obtain ⟨names,versions⟩ := Prod.mk.inj inner
  cases first
  cases second
  simp only [String.toList_inj] at types names versions
  rw [types,names,versions]

end Keys

section Index
variable {β : Type} (codec : Codec β)

def objectIndex : TwoWayIndex β β String Metadata RichSchemaObject where
  ident object := object.id
  metadata object := object.toMetadata
  identKey := codec.encode
  metadataKey data := codec.encode (makeSecondaryKey data)
  value := codec.serialize
  pointer := codec.encode

private theorem Codec.Sound.faithful {codec : Codec β} (sound : codec.Sound) : (objectIndex codec).Faithful :=
  ⟨sound.encode,sound.encode⟩

private theorem updateState_eq [DecidableEq β] (state : β → Option β) (txn : RichSchemaTxn) :
    updateState codec state txn = (objectIndex codec).put state txn.object := rfl

/-- The id does not have the form of a secondary key that is asked for, and no other
metadata that are asked for give the key of the operation's. -/
structure PlainOperation (asked : Metadata → Prop) (op : RichSchemaOperation) : Prop where
  known : asked op.toMetadata
  apart : ∀ data, asked data → makeSecondaryKey data ≠ op.id
  alone : ∀ data, asked data → makeSecondaryKey data = makeSecondaryKey op.toMetadata → data = op.toMetadata

private theorem PlainOperation.plain {codec : Codec β} {asked : Metadata → Prop} (sound : codec.Sound)
    (txn : RichSchemaTxn) (plain : PlainOperation asked txn.op) :
    (objectIndex codec).Plain asked txn.object :=
  ⟨plain.known,fun data known same => plain.apart data known (sound.encode same),
    fun data known same => plain.alone data known (sound.encode same)⟩

/-- An edit leaves the type, the name and the version of its object. -/
def KeepsMetadata (ledger : RichLedger β) (op : RichSchemaOperation) : Prop :=
  ∀ old, ledger.objects op.id = some old → old.toMetadata = op.toMetadata

abbrev Indexed (asked : Metadata → Prop) (ledger : RichLedger β) : Prop :=
  (objectIndex codec).Indexed asked ledger.state ledger.objects

variable {codec} {asked : Metadata → Prop} {ledger : RichLedger β}

private theorem accepted_free {handler : ObjectHandler} {config : ValidatorConfig} {cache : IdrCache} {req : Request}
    {op : RichSchemaOperation} (absent : ledger.state (codec.encode op.id) = none)
    (accepted : additionalDynamicValidation codec handler config cache ledger.state req op = .ok ()) :
    ledger.state (codec.encode (makeSecondaryKey op.toMetadata)) = none := by
  obtain ⟨read,found,accepted⟩ := bind_success _ _ _ accepted
  obtain ⟨_,unique,_⟩ := bind_success _ _ _ accepted
  rw [getFromState,absent] at found
  obtain rfl := Except.ok.inj found
  unfold validateUnique at unique
  split at unique
  · cases unique
  · rename_i free
    simpa using free

private theorem applyTxn_ok [DecidableEq β] {enabled : Bool} {handler : ObjectHandler} {config : ValidatorConfig}
    {cache : IdrCache} {txn : RichSchemaTxn} {next : RichLedger β}
    (applied : applyTxn codec enabled handler config cache ledger txn = .ok next) :
    additionalDynamicValidation codec handler config cache ledger.state txn.request txn.op = .ok () ∧
      next = ⟨updateState codec ledger.state txn,
        Function.update ledger.objects txn.op.id (some txn.object)⟩ := by
  obtain ⟨_,_,applied⟩ := bind_success _ _ _ applied
  obtain ⟨_,accepted,applied⟩ := bind_success _ _ _ applied
  exact ⟨accepted,(Except.ok.inj applied).symm⟩

private theorem applyTxn_indexed [DecidableEq β] (sound : codec.Sound) (indexed : Indexed codec asked ledger)
    {enabled : Bool} {handler : ObjectHandler} {config : ValidatorConfig} {cache : IdrCache}
    {txn : RichSchemaTxn} {next : RichLedger β} (plain : PlainOperation asked txn.op)
    (applied : applyTxn codec enabled handler config cache ledger txn = .ok next) :
    Indexed codec asked next ↔ KeepsMetadata ledger txn.op := by
  obtain ⟨accepted,rfl⟩ := applyTxn_ok applied
  have apart := PlainOperation.plain sound txn plain
  have free : ledger.objects txn.op.id = none →
      ledger.state (codec.encode (makeSecondaryKey txn.op.toMetadata)) = none :=
    fun new => accepted_free (indexed.free sound.faithful apart new) accepted
  have step := indexed.put_iff sound.faithful apart free
  rw [← updateState_eq] at step
  exact step

private theorem Indexed.reads (indexed : Indexed codec asked ledger) (sound : codec.Sound) {id : String}
    {object : RichSchemaObject} (stored : ledger.objects id = some object) (req : Request) :
    getRichSchemaObjectById codec true ledger.state req id = .ok (some (.object object)) ∧
      getRichSchemaObjectByMetadata codec true ledger.state req object.toMetadata =
        .ok (some (.object object)) := by
  have primary : ledger.state (codec.encode id) = some (codec.serialize object) :=
    indexed.primary id object stored
  have secondary : ledger.state (codec.encode (makeSecondaryKey object.toMetadata)) = some (codec.encode id) :=
    indexed.secondary id object stored
  have found : lookup codec ledger.state (codec.encode id) = .ok (.object object) := by
    rw [lookup,primary]
    exact sound.round object
  constructor
  · rw [getRichSchemaObjectById,found]
    rfl
  · rw [getRichSchemaObjectByMetadata,secondary]
    dsimp only
    rw [found]
    rfl

/-- The ledgers that accepted transactions of any types lead to, under rules and with nyms
that may change in between. -/
inductive Reached [DecidableEq β] (codec : Codec β) (permit : RichLedger β → RichSchemaOperation → Prop) :
    RichLedger β → Prop
  | empty : Reached codec permit .empty
  | step (before next : RichLedger β) (handler : ObjectHandler) (config : ValidatorConfig) (cache : IdrCache)
      (txn : RichSchemaTxn) (earlier : Reached codec permit before) (permitted : permit before txn.op)
      (applied : applyTxn codec true handler config cache before txn = .ok next) : Reached codec permit next

def Permits (asked : Metadata → Prop) (ledger : RichLedger β) (op : RichSchemaOperation) : Prop :=
  PlainOperation asked op ∧ KeepsMetadata ledger op

private theorem Reached.indexed [DecidableEq β] (sound : codec.Sound) (reached : Reached codec (Permits asked) ledger) :
    Indexed codec asked ledger := by
  induction reached with
  | empty => exact .empty
  | step before next handler config cache txn earlier permitted applied indexed =>
    exact (applyTxn_indexed sound indexed permitted.1 applied).mpr permitted.2

/-- `asked` are the types, names and versions that are asked for. -/
theorem objects_found_by_metadata [DecidableEq β] (codec : Codec β) (sound : codec.Sound)
    (asked : Metadata → Prop) (ledger : RichLedger β) (reached : Reached codec (Permits asked) ledger) :
    (∀ id object req, ledger.objects id = some object → object.id = id ∧
      getRichSchemaObjectById codec true ledger.state req id = .ok (some (.object object)) ∧
      getRichSchemaObjectByMetadata codec true ledger.state req object.toMetadata =
        .ok (some (.object object))) ∧
    (∀ data id, asked data →
      ledger.state (codec.encode (makeSecondaryKey data)) = some (codec.encode id) →
      ∃ object, ledger.objects id = some object ∧ object.toMetadata = data) ∧
    (∀ id other first second, ledger.objects id = some first → ledger.objects other = some second →
      first.toMetadata = second.toMetadata → id = other) ∧
    ∀ handler config cache txn next, PlainOperation asked txn.op →
      applyTxn codec true handler config cache ledger txn = .ok next →
      (Indexed codec asked next ↔ KeepsMetadata ledger txn.op) := by
  have indexed := reached.indexed sound
  refine ⟨fun id object req stored => ⟨indexed.named id object stored,indexed.reads sound stored req⟩,
    indexed.exact,?_,?_⟩
  · intro id other first second atFirst atSecond same
    exact indexed.unique sound.faithful atFirst atSecond same
  · intro handler config cache txn next plain applied
    exact applyTxn_indexed sound indexed plain applied

end Index

section Samples

/-- Texts and values that cannot be taken for each other; no text is JSON. -/
def sampleCodec : Codec (String ⊕ RichSchemaObject) where
  encode := .inl
  serialize := .inr
  deserialize
    | .inl _ => .error .valueError
    | .inr object => .ok (.object object)

private theorem sampleCodec_sound : sampleCodec.Sound := ⟨Sum.inl_injective,fun _ => rfl⟩

/-- A handler of RICH_SCHEMA whose checks of the content pass. -/
def schemaHandler : ObjectHandler := ⟨"201",fun _ _ => .ok (),fun _ _ _ => .ok ()⟩

/-- Every rule has been changed to one trustee. -/
def trusteeConfig : ValidatorConfig := ⟨.configLedger,authMap,fun _ => some oneTrusteeConstraint,fun _ => ""⟩

private theorem trustee_allowed (action : AuthAction) (clean : action.actionDef.Clean)
    (listed : (authRules.find? fun entry => entry.1.actionDef.accepts action.actionDef).isSome)
    (holds : oneTrusteeConstraint.eval (leafHolds ledgerOfTrustee.cache signedByA action) = true) :
    validate trusteeConfig ledgerOfTrustee.cache signedByA [action] = .ok () := by
  refine (validate_iff _ _ _ _ _).mpr ⟨oneTrusteeConstraint,?_,holds⟩
  obtain ⟨rule,found⟩ := Option.isSome_iff_exists.mp listed
  rw [getAuthConstraint,trusteeConfig,authMap,findAuthConstraintKey_split authRules authRules_clean
    action.actionDef action.actionId (splitActionId_compile _ clean),found]
  rfl

private theorem trustee_writes (edits : Bool) :
    validateAuthRule schemaHandler trusteeConfig ledgerOfTrustee.cache signedByA edits = .ok () := by
  cases edits with
  | false => exact trustee_allowed (.add "201" "*" "*" true) (by decide) (by decide) (by decide)
  | true => exact trustee_allowed (.edit "201" "*" "*" "*" true) (by decide) (by decide) (by decide)

def schemaText (id : String) : String := "\x7b\"@id\": \"" ++ id ++ "\", \"@type\": \"rdfs:Class\"\x7d"

def schemaTxn (id name : String) (seqNo : Nat) : RichSchemaTxn :=
  ⟨signedByA,⟨⟨"sch",name,"1.0"⟩,id,schemaText id⟩,some "1",seqNo,seqNo⟩

def RichLedger.after (ledger : RichLedger (String ⊕ RichSchemaObject)) (txn : RichSchemaTxn) :
    RichLedger (String ⊕ RichSchemaObject) :=
  ⟨updateState sampleCodec ledger.state txn,Function.update ledger.objects txn.op.id (some txn.object)⟩

private theorem schemaTxn_applies (ledger : RichLedger (String ⊕ RichSchemaObject)) (id name : String) (seqNo : Nat)
    (read : Option Decoded) (found : getFromState sampleCodec ledger.state id = .ok read)
    (unique : validateUnique sampleCodec ledger.state signedByA (schemaTxn id name seqNo).op
      ((read.map Decoded.truth).getD false) = .ok ()) :
    applyTxn sampleCodec true schemaHandler trusteeConfig ledgerOfTrustee.cache ledger (schemaTxn id name seqNo) =
      .ok (ledger.after (schemaTxn id name seqNo)) := by
  have accepted : additionalDynamicValidation sampleCodec schemaHandler trusteeConfig ledgerOfTrustee.cache
      ledger.state signedByA (schemaTxn id name seqNo).op = .ok () := by
    rw [additionalDynamicValidation,show (schemaTxn id name seqNo).op.id = id from rfl,found,ok_bind]
    dsimp only
    rw [unique,ok_bind,trustee_writes,ok_bind]
    rfl
  have static : staticValidation true schemaHandler signedByA (schemaTxn id name seqNo).op = .ok () := rfl
  rw [applyTxn,show (schemaTxn id name seqNo).request = signedByA from rfl,static,ok_bind,accepted,ok_bind]
  rfl

/-- The types of rich schema objects, with versions as the schema of the requests has them. -/
def OfHandlers (data : Metadata) : Prop :=
  data.rsType ∈ ["ctx","sch","enc","map","cdf","pdf"] ∧ ':' ∉ data.rsVersion.toList

private theorem OfHandlers.clean {data : Metadata} (asked : OfHandlers data) : ':' ∉ data.rsType.toList := by
  have all : ∀ text ∈ ["ctx","sch","enc","map","cdf","pdf"], ':' ∉ text.toList := by decide
  exact all data.rsType asked.1

private theorem plain_of_handlers {op : RichSchemaOperation} (asked : OfHandlers op.toMetadata)
    (clean : ':' ∉ op.id.toList) : PlainOperation OfHandlers op := by
  refine ⟨asked,fun data _ same => clean ?_,fun data other same => ?_⟩
  · rw [← same,makeSecondaryKey]
    simp
  · exact makeSecondaryKey_inj other.clean asked.clean other.2 asked.2 same

def firstSchema : RichLedger (String ⊕ RichSchemaObject) := RichLedger.empty.after (schemaTxn "a" "x" 1)

private theorem firstSchema_applied : applyTxn sampleCodec true schemaHandler trusteeConfig ledgerOfTrustee.cache .empty
    (schemaTxn "a" "x" 1) = .ok firstSchema :=
  schemaTxn_applies .empty "a" "x" 1 none rfl rfl

def editedSchema : RichLedger (String ⊕ RichSchemaObject) := firstSchema.after (schemaTxn "a" "x" 2)

private theorem editedSchema_applied : applyTxn sampleCodec true schemaHandler trusteeConfig ledgerOfTrustee.cache
    firstSchema (schemaTxn "a" "x" 2) = .ok editedSchema :=
  schemaTxn_applies firstSchema "a" "x" 2 (some (.object (schemaTxn "a" "x" 1).object)) rfl rfl

theorem edited_schema_found :
    getRichSchemaObjectById sampleCodec true editedSchema.state signedByA "a" =
        .ok (some (.object (schemaTxn "a" "x" 2).object)) ∧
      getRichSchemaObjectByMetadata sampleCodec true editedSchema.state signedByA ⟨"sch","x","1.0"⟩ =
        .ok (some (.object (schemaTxn "a" "x" 2).object)) := by
  have plain (seqNo : Nat) : PlainOperation OfHandlers (schemaTxn "a" "x" seqNo).op :=
    plain_of_handlers ⟨(by decide : "sch" ∈ ["ctx","sch","enc","map","cdf","pdf"]),
      (by decide : ':' ∉ "1.0".toList)⟩ (by decide : ':' ∉ "a".toList)
  have added : Reached sampleCodec (Permits OfHandlers) firstSchema :=
    .step .empty firstSchema _ _ _ _ .empty ⟨plain 1,fun old stored => by cases stored⟩ firstSchema_applied
  have edited : Reached sampleCodec (Permits OfHandlers) editedSchema :=
    .step firstSchema editedSchema _ _ _ _ added ⟨plain 2,fun old stored => by cases stored; rfl⟩
      editedSchema_applied
  obtain ⟨found,_⟩ := objects_found_by_metadata sampleCodec sampleCodec_sound OfHandlers editedSchema edited
  exact (found "a" _ signedByA rfl).2

/-- A renamed object is found by its old name. An object that takes over the name of another
hides it, although the two share all three. An object whose id is its own secondary key cannot
be read back. -/
theorem index_broken_by_edits :
    (∃ renamed, applyTxn sampleCodec true schemaHandler trusteeConfig ledgerOfTrustee.cache firstSchema
        (schemaTxn "a" "y" 2) = .ok renamed ∧
      getRichSchemaObjectByMetadata sampleCodec true renamed.state signedByA ⟨"sch","x","1.0"⟩ =
        .ok (some (.object (schemaTxn "a" "y" 2).object))) ∧
    (∃ second taken, applyTxn sampleCodec true schemaHandler trusteeConfig ledgerOfTrustee.cache firstSchema
        (schemaTxn "b" "z" 2) = .ok second ∧
      applyTxn sampleCodec true schemaHandler trusteeConfig ledgerOfTrustee.cache second
        (schemaTxn "b" "x" 3) = .ok taken ∧
      (taken.objects "a").map (·.toMetadata) = (taken.objects "b").map (·.toMetadata) ∧
      getRichSchemaObjectByMetadata sampleCodec true taken.state signedByA ⟨"sch","x","1.0"⟩ =
        .ok (some (.object (schemaTxn "b" "x" 3).object))) ∧
    ∃ unread, applyTxn sampleCodec true schemaHandler trusteeConfig ledgerOfTrustee.cache .empty
        (schemaTxn "sch:x:1.0" "x" 1) = .ok unread ∧
      getRichSchemaObjectById sampleCodec true unread.state signedByA "sch:x:1.0" = .error .valueError := by
  refine ⟨⟨_,schemaTxn_applies firstSchema "a" "y" 2 (some (.object (schemaTxn "a" "x" 1).object)) rfl rfl,rfl⟩,
    ⟨_,_,schemaTxn_applies firstSchema "b" "z" 2 none rfl rfl,
      schemaTxn_applies _ "b" "x" 3 (some (.object (schemaTxn "b" "z" 2).object)) rfl rfl,rfl,rfl⟩,
    ⟨_,schemaTxn_applies .empty "sch:x:1.0" "x" 1 none rfl rfl,rfl⟩⟩

end Samples
end IndyNode.RichSchema

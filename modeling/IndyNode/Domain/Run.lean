import IndyNode.Domain.Attribute
import IndyNode.Domain.Objects
import IndyNode.Nym.Steps

/-! Runs of the domain ledger. Every accepted transaction is appended and applied;
what it can have passed and changed is said once, for all later proofs. -/
namespace IndyNode.Domain
open Authorize Nym

inductive DomainTxn (ι : Type) where
  | nym (req : ClientRequest)
  | attrib (req : Request) (op : AttribOperation)
  | schema (req : Request) (op : SchemaOperation)
  | claimDef (req : Request) (op : ClaimDefOperation)
  | revocDef (req : Request) (op : RevocDefOperation)
  | revocEntry (req : Request) (op : RevocEntryOperation ι)

def DomainTxn.txnType {ι : Type} : DomainTxn ι → String
  | .nym _ => nymType
  | .attrib _ _ => attribType
  | .schema _ _ => schemaType
  | .claimDef _ _ => claimDefType
  | .revocDef _ _ => revocRegDefType
  | .revocEntry _ _ => revocRegEntryType

def DomainTxn.request {ι : Type} : DomainTxn ι → Request
  | .nym req => req.toRequest
  | .attrib req _ => req
  | .schema req _ => req
  | .claimDef req _ => req
  | .revocDef req _ => req
  | .revocEntry req _ => req

structure Ordered (ι : Type) where
  txn : DomainTxn ι
  time : Nat
  timed : 0 < time

section Apply
variable {ι : Type} [DecidableEq ι] [Revocation.PyStr ι] [PyHash ι] [LE ι] [DecidableLE ι]
  (setup : Setup)

def Ledger.append (ledger : Ledger ι) (txnType : String) (state : State ι) : Ledger ι :=
  {ledger with state := state,txnTypes := ledger.txnTypes ++ [txnType]}

/-- Validation of a request and the update of its transaction, which takes the next
place in the ledger. -/
def applyTxn (ledger : Ledger ι) (ordered : Ordered ι) : Except Raised (Ledger ι) :=
  let seqNo := nextSeqNo ledger
  let time := ordered.time
  match ordered.txn with
  | .nym req => do
    let nyms ← applyNym setup.nym ledger.nyms ⟨req,seqNo,some time⟩
    return {ledger with nyms := nyms,txnTypes := ledger.txnTypes ++ [nymType]}
  | .attrib req op => do
    attribStaticValidation setup req op
    attribDynamicValidation setup req op ledger
    let written ← attribUpdateState setup op ledger seqNo time
    return {ledger.append attribType written.1 with attributes := written.2}
  | .schema req op => do
    schemaDynamicValidation setup ledger req op
    return ledger.append schemaType (schemaUpdateState ledger req op seqNo time)
  | .claimDef req op => do
    claimDefDynamicValidation setup ledger req op
    return ledger.append claimDefType (claimDefUpdateState ledger req op seqNo time)
  | .revocDef req op => do
    revocDefStaticValidation req op
    revocDefDynamicValidation setup ledger req op
    return ledger.append revocRegDefType (← revocDefUpdateState ledger req op seqNo time)
  | .revocEntry req op => do
    entryDynamicValidation setup ledger req op
    return ledger.append revocRegEntryType (← entryUpdateState setup ledger req op seqNo time)

/-- What an accepted registry entry has passed. -/
structure EntryAccepted (ledger : Ledger ι) (req : Request) (op : RevocEntryOperation ι) (time : Nat)
    (current : Option (Revocation.EntryRecord ι)) (kind : Revocation.Kind)
    (value : Revocation.EntryValue ι) : Prop where
  entry : currentEntry ledger op.revocRegDefId = .ok current
  defined : ∃ leaf, ledger.state op.revocRegDefId = some leaf ∧ leaf.value.strategy = .ok kind
  allowed : setup.validate ledger req
    (objectAction revocRegEntryType current.isSome (ownsRegistry req op)) = .ok ()
  checked : kind.validate current (entryRequest req op) = .ok ()
  written : kind.writtenValue (setup.sortLegacy time) current op.value = .ok value
  authored : req.identifier ≠ none

/-- Everything an accepted transaction can have passed and changed. -/
inductive Applied (ledger : Ledger ι) (time : Nat) : DomainTxn ι → Ledger ι → Prop where
  | nym (req : ClientRequest) (nyms : NymState)
      (applied : applyNym setup.nym ledger.nyms ⟨req,nextSeqNo ledger,some time⟩ = .ok nyms) :
      Applied ledger time (.nym req) {ledger with nyms := nyms,txnTypes := ledger.txnTypes ++ [nymType]}
  | attrib (req : Request) (op : AttribOperation) (field : AttrType) (key : String)
      (value : Option String)
      (shaped : attribStaticValidation setup req op = .ok ())
      (allowed : attribDynamicValidation setup req op ledger = .ok ())
      (parsed : parseAttrTxn setup op = .ok (field,key,value)) :
      Applied ledger time (.attrib req op) {ledger.append attribType (Function.update ledger.state
        (makeStatePathForAttr op.dest.val (attrNameHash setup field key))
        (some ⟨.attrib (hashedValue setup value),nextSeqNo ledger,time⟩)) with
          attributes := if field = .hash then ledger.attributes
            else Function.update ledger.attributes (hashedValue setup value) value}
  | schema (req : Request) (op : SchemaOperation)
      (allowed : schemaDynamicValidation setup ledger req op = .ok ()) :
      Applied ledger time (.schema req op)
        (ledger.append schemaType (schemaUpdateState ledger req op (nextSeqNo ledger) time))
  | claimDef (req : Request) (op : ClaimDefOperation)
      (allowed : claimDefDynamicValidation setup ledger req op = .ok ()) :
      Applied ledger time (.claimDef req op)
        (ledger.append claimDefType (claimDefUpdateState ledger req op (nextSeqNo ledger) time))
  | revocDef (req : Request) (op : RevocDefOperation) (state : State ι)
      (shaped : revocDefStaticValidation req op = .ok ())
      (allowed : revocDefDynamicValidation setup ledger req op = .ok ())
      (written : revocDefUpdateState ledger req op (nextSeqNo ledger) time = .ok state) :
      Applied ledger time (.revocDef req op) (ledger.append revocRegDefType state)
  | revocEntry (req : Request) (op : RevocEntryOperation ι)
      (current : Option (Revocation.EntryRecord ι)) (kind : Revocation.Kind)
      (value : Revocation.EntryValue ι)
      (accepted : EntryAccepted setup ledger req op time current kind value) :
      Applied ledger time (.revocEntry req op)
        (ledger.append revocRegEntryType (setToState ledger op value (nextSeqNo ledger) time))

private theorem entry_accepted (ledger : Ledger ι) (req : Request) (op : RevocEntryOperation ι) (time : Nat)
    (state : State ι) (valid : entryDynamicValidation setup ledger req op = .ok ())
    (updated : entryUpdateState setup ledger req op (nextSeqNo ledger) time = .ok state) :
    ∃ current kind value, EntryAccepted setup ledger req op time current kind value ∧
      state = setToState ledger op value (nextSeqNo ledger) time := by
  obtain ⟨found,looked,valid⟩ := bind_success _ _ _ valid
  obtain ⟨_,allowed,valid⟩ := bind_success _ _ _ valid
  obtain ⟨kind,strategy,checked⟩ := bind_success _ _ _ valid
  obtain ⟨again,same,updated⟩ := bind_success _ _ _ updated
  obtain rfl := Except.ok.inj (looked.symm.trans same)
  obtain ⟨again,same,updated⟩ := bind_success _ _ _ updated
  obtain rfl := Except.ok.inj (strategy.symm.trans same)
  obtain ⟨value,written,updated⟩ := bind_success _ _ _ updated
  obtain ⟨entry,leaf,defined,stored⟩ := currentEntryAndDef_found ledger req _ found looked
  have authored : req.identifier ≠ none := by
    intro absent
    rw [if_pos absent] at updated
    simp [throw_eq] at updated
  rw [if_neg authored] at updated
  exact ⟨found.1,kind,value,⟨entry,⟨leaf,defined,stored ▸ strategy⟩,allowed,checked,written,authored⟩,
    (Except.ok.inj updated).symm⟩

theorem applyTxn_applied (ledger next : Ledger ι) (ordered : Ordered ι)
    (ok : applyTxn setup ledger ordered = .ok next) : Applied setup ledger ordered.time ordered.txn next := by
  obtain ⟨txn,time,timed⟩ := ordered
  cases txn with
  | nym req =>
    obtain ⟨nyms,applied,rest⟩ := bind_success _ _ _ ok
    rw [← Except.ok.inj rest]
    exact .nym req nyms applied
  | attrib req op =>
    obtain ⟨_,shaped,rest⟩ := bind_success _ _ _ ok
    obtain ⟨_,allowed,rest⟩ := bind_success _ _ _ rest
    obtain ⟨written,updated,rest⟩ := bind_success _ _ _ rest
    obtain ⟨parsed,parsedOk,updated⟩ := bind_success _ _ _ updated
    rw [← Except.ok.inj rest,← Except.ok.inj updated]
    exact .attrib req op parsed.1 parsed.2.1 parsed.2.2 shaped allowed parsedOk
  | schema req op =>
    obtain ⟨_,allowed,rest⟩ := bind_success _ _ _ ok
    rw [← Except.ok.inj rest]
    exact .schema req op allowed
  | claimDef req op =>
    obtain ⟨_,allowed,rest⟩ := bind_success _ _ _ ok
    rw [← Except.ok.inj rest]
    exact .claimDef req op allowed
  | revocDef req op =>
    obtain ⟨_,shaped,rest⟩ := bind_success _ _ _ ok
    obtain ⟨_,allowed,rest⟩ := bind_success _ _ _ rest
    obtain ⟨state,written,rest⟩ := bind_success _ _ _ rest
    rw [← Except.ok.inj rest]
    exact .revocDef req op state shaped allowed written
  | revocEntry req op =>
    obtain ⟨_,valid,rest⟩ := bind_success _ _ _ ok
    obtain ⟨state,written,rest⟩ := bind_success _ _ _ rest
    obtain ⟨current,kind,value,accepted,rfl⟩ := entry_accepted setup ledger req op time state valid written
    rw [← Except.ok.inj rest]
    exact .revocEntry req op current kind value accepted

section Accepting
variable (ledger : Ledger ι) (req : Request) (time : Nat) (timed : 0 < time)

theorem applyTxn_schema (op : SchemaOperation)
    (allowed : schemaDynamicValidation setup ledger req op = .ok ()) :
    applyTxn setup ledger ⟨.schema req op,time,timed⟩ =
      .ok (ledger.append schemaType (schemaUpdateState ledger req op (nextSeqNo ledger) time)) := by
  simp only [applyTxn,allowed,ok_bind]
  rfl

theorem applyTxn_claimDef (op : ClaimDefOperation)
    (allowed : claimDefDynamicValidation setup ledger req op = .ok ()) :
    applyTxn setup ledger ⟨.claimDef req op,time,timed⟩ =
      .ok (ledger.append claimDefType (claimDefUpdateState ledger req op (nextSeqNo ledger) time)) := by
  simp only [applyTxn,allowed,ok_bind]
  rfl

theorem applyTxn_revocDef (op : RevocDefOperation) (state : State ι)
    (shaped : revocDefStaticValidation req op = .ok ())
    (allowed : revocDefDynamicValidation setup ledger req op = .ok ())
    (written : revocDefUpdateState ledger req op (nextSeqNo ledger) time = .ok state) :
    applyTxn setup ledger ⟨.revocDef req op,time,timed⟩ = .ok (ledger.append revocRegDefType state) := by
  simp only [applyTxn,shaped,allowed,written,ok_bind]
  rfl

theorem applyTxn_revocEntry (op : RevocEntryOperation ι) (current : Option (Revocation.EntryRecord ι))
    (kind : Revocation.Kind) (value : Revocation.EntryValue ι)
    (accepted : EntryAccepted setup ledger req op time current kind value) :
    applyTxn setup ledger ⟨.revocEntry req op,time,timed⟩ =
      .ok (ledger.append revocRegEntryType (setToState ledger op value (nextSeqNo ledger) time)) := by
  obtain ⟨leaf,defined,strategy⟩ := accepted.defined
  have found := currentEntryAndDef_stored accepted.entry defined req
  simp only [applyTxn,entryDynamicValidation,entryUpdateState,found,accepted.allowed,strategy,
    accepted.checked,accepted.written,ok_bind,if_neg accepted.authored]
  rfl

theorem applyTxn_attrib (op : AttribOperation) (field : AttrType) (key : String) (value : Option String)
    (shaped : attribStaticValidation setup req op = .ok ())
    (allowed : attribDynamicValidation setup req op ledger = .ok ())
    (parsed : parseAttrTxn setup op = .ok (field,key,value)) :
    applyTxn setup ledger ⟨.attrib req op,time,timed⟩ = .ok {ledger.append attribType
      (Function.update ledger.state (makeStatePathForAttr op.dest.val (attrNameHash setup field key))
        (some ⟨.attrib (hashedValue setup value),nextSeqNo ledger,time⟩)) with
          attributes := if field = .hash then ledger.attributes
            else Function.update ledger.attributes (hashedValue setup value) value} := by
  simp only [applyTxn,shaped,allowed,attribUpdateState,parsed,ok_bind]
  rfl

end Accepting

/-- The ledgers reached by accepted transactions. -/
inductive Run (start : Ledger ι) : List (Ordered ι) → Ledger ι → Prop where
  | start : Run start [] start
  | step (history : List (Ordered ι)) (before after : Ledger ι) (ordered : Ordered ι)
      (earlier : Run start history before) (applied : applyTxn setup before ordered = .ok after) :
      Run start (history ++ [ordered]) after

/-- Authors and targets have the shape of identifiers. -/
structure DomainTxn.Identified {ι : Type} (txn : DomainTxn ι) : Prop where
  author : ∀ author, txn.request.identifier = some author → IsIdentifier author
  dest : ∀ req op, txn = .attrib req op → IsIdentifier op.dest

/-- What holds at the start and is kept by every accepted transaction of identified
authors holds along every run. -/
theorem Run.invariant {start final : Ledger ι} {history : List (Ordered ι)}
    (holds : List (Ordered ι) → Ledger ι → Prop) (initial : holds [] start)
    (step : ∀ history before after ordered, Run setup start history before → holds history before →
      ordered.txn.Identified → Applied setup before ordered.time ordered.txn after →
      holds (history ++ [ordered]) after)
    (run : Run setup start history final) (identified : ∀ ordered ∈ history, ordered.txn.Identified) :
    holds history final := by
  induction run with
  | start => exact initial
  | step history before after ordered earlier applied ih =>
    exact step history before after ordered earlier
      (ih fun other member => identified other (List.mem_append_left _ member))
      (identified ordered (by simp)) (applyTxn_applied setup before after ordered applied)

end Apply

section Frame
variable {ι : Type} [DecidableEq ι] [Revocation.PyStr ι] [PyHash ι] [LE ι] [DecidableLE ι]
  (setup : Setup)

def DomainTxn.paths : DomainTxn ι → List String
  | .nym _ => []
  | .attrib _ op =>
    match parseAttrTxn setup op with
    | .ok (field,key,_) => [makeStatePathForAttr op.dest.val (attrNameHash setup field key)]
    | .error _ => []
  | .schema req op => [schemaPath req.identifier op]
  | .claimDef req op => [claimDefPath req.identifier op]
  | .revocDef req op => [revocDefPath req.identifier op]
  | .revocEntry _ op =>
    [Revocation.revocEntryPath op.revocRegDefId,Revocation.revocAccumPath op.revocRegDefId]

theorem Applied.other {ledger next : Ledger ι} {time : Nat} {txn : DomainTxn ι}
    (applied : Applied setup ledger time txn next) (path : String)
    (unwritten : path ∉ txn.paths setup) : next.state path = ledger.state path := by
  cases applied with
  | nym req nyms applied => rfl
  | attrib req op field key value shaped allowed parsed =>
    simp only [DomainTxn.paths,parsed,List.mem_singleton] at unwritten
    exact Function.update_of_ne unwritten ..
  | schema req op allowed => exact Function.update_of_ne (List.mem_singleton.not.mp unwritten) ..
  | claimDef req op allowed => exact Function.update_of_ne (List.mem_singleton.not.mp unwritten) ..
  | revocDef req op state shaped allowed written =>
    rw [(revocDefUpdateState_eq ledger req op _ _ state written).2]
    exact Function.update_of_ne (List.mem_singleton.not.mp unwritten) ..
  | revocEntry req op current kind value accepted =>
    simp only [DomainTxn.paths,List.mem_cons,List.not_mem_nil,or_false,not_or] at unwritten
    exact (Function.update_of_ne unwritten.2 ..).trans (Function.update_of_ne unwritten.1 ..)

end Frame
end IndyNode.Domain

import Mathlib
import IndyNode.Foundation.BatchLog
import IndyNode.Nym.CacheBatches
import IndyNode.Domain.Timestamps

/-! A node orders domain transactions in batches that may still be rejected. The
state goes back to an earlier root and the cache drops operations, but the attribute
store is written at once and keeps what rejected batches left. What the node accepts
and answers is nevertheless what a ledger would that never saw these batches. -/
namespace IndyNode.Domain
open Authorize Nym

/-- The domain state without nyms, and the types of the transactions. -/
structure Objects (ι : Type) where
  state : State ι
  txnTypes : List String

/-- The domain state and the cache with their uncommitted parts, and the attribute
store, which has none. -/
structure Replica (ι : Type) where
  base : Nym.Node (Objects ι)
  attributes : String → Option String

/-- What can be seen of a ledger without its attribute store. -/
def Ledger.observed {ι : Type} (ledger : Ledger ι) : NymState × State ι × List String :=
  (ledger.nyms,ledger.state,ledger.txnTypes)

def Ledger.withStore {ι : Type} (ledger : Ledger ι) (attributes : String → Option String) : Ledger ι :=
  {ledger with attributes := attributes}

namespace Replica
variable {ι : Type} (node : Replica ι)

def ledgerOf (content : Content (Objects ι)) : Ledger ι :=
  ⟨content.nymState,content.other.state,node.attributes,content.other.txnTypes⟩

/-- What requests are validated against. -/
def uncommitted : Ledger ι := node.ledgerOf node.base.state.head

/-- What reads are answered from. -/
def committed : Ledger ι := node.ledgerOf node.base.state.committed

end Replica

section Steps
variable {ι : Type} [DecidableEq ι] [Revocation.PyStr ι] [PyHash ι] [LE ι] [DecidableLE ι]
  (setup : Setup)

/-- What the message schemas guarantee: identifiers, no empty attribute, and verkeys
in base58. -/
structure DomainTxn.Wellformed (txn : DomainTxn ι) : Prop where
  identified : txn.Identified
  worded : txn.Worded setup
  keyed : ∀ req op, txn = .nym req → staticValidation setup.nym.loads req = .ok op →
    op.verkey ≠ some (some unsetVerkey)

variable (rlp : Rlp) (base58 : Base58) (root : Content (Objects ι) → List UInt8)

/-- The nodes reached from a start, with the batches ordered on the way. A NYM is
written to the state and to the cache, everything else to the state, attributes to
their store as well. -/
inductive Orders (start : Replica ι) : BatchLog (Ordered ι) → Replica ι → Prop where
  | start : Orders start .empty start
  | nym (log : BatchLog (Ordered ι)) (node : Replica ι) (req : ClientRequest) (time : Nat)
      (timed : 0 < time) (next : Ledger ι) (op : NymOperation) (base : Nym.Node (Objects ι))
      (earlier : Orders start log node)
      (formed : DomainTxn.Wellformed setup (.nym req : DomainTxn ι))
      (accepted : applyTxn setup node.uncommitted ⟨.nym req,time,timed⟩ = .ok next)
      (parsed : staticValidation setup.nym.loads req = .ok op)
      (written : node.base.applyNym rlp ⟨req.identifier,op,nextSeqNo node.uncommitted,some time,
        formed.keyed req op rfl parsed⟩ = .ok base) :
      Orders start (log.apply ⟨.nym req,time,timed⟩)
        ⟨base.applyOther ⟨base.state.head.other.state,base.state.head.other.txnTypes ++ [nymType]⟩,
          node.attributes⟩
  | object (log : BatchLog (Ordered ι)) (node : Replica ι) (ordered : Ordered ι) (next : Ledger ι)
      (earlier : Orders start log node) (formed : ordered.txn.Wellformed setup)
      (other : ∀ req, ordered.txn ≠ .nym req)
      (accepted : applyTxn setup node.uncommitted ordered = .ok next) :
      Orders start (log.apply ordered)
        ⟨node.base.applyOther ⟨next.state,next.txnTypes⟩,next.attributes⟩
  | close (log : BatchLog (Ordered ι)) (node : Replica ι) (earlier : Orders start log node) :
      Orders start log.close ⟨node.base.closeBatch root,node.attributes⟩
  | commit (log : BatchLog (Ordered ι)) (node : Replica ι) (oldest : Content (Objects ι))
      (closed : List (Content (Objects ι))) (earlier : Orders start log node)
      (opened : node.base.state.closed = oldest :: closed) :
      Orders start log.commit
        ⟨node.base.commitBatch base58 (base58.b58encode (root oldest)),node.attributes⟩
  | reject (log : BatchLog (Ordered ι)) (node : Replica ι) (earlier : Orders start log node)
      (opened : node.base.state.closed ≠ []) (idle : node.base.pending = 0) :
      Orders start log.reject ⟨node.base.rejectBatch,node.attributes⟩

end Steps

section Store
variable {ι : Type} [DecidableEq ι] [Revocation.PyStr ι] [PyHash ι] [LE ι] [DecidableLE ι]
  (setup : Setup)

/-- What a transaction makes of the attribute store. -/
def storeAfter (attributes : String → Option String) : DomainTxn ι → String → Option String
  | .attrib _ op =>
    match parseAttrTxn setup op with
    | .ok (field,_,value) => if field = .hash then attributes
      else Function.update attributes (hashedValue setup value) value
    | .error _ => attributes
  | _ => attributes

/-- The attribute store is read for the attribute that is replaced and for nothing else. -/
theorem applyTxn_withStore (ledger : Ledger ι) (attributes : String → Option String) (ordered : Ordered ι)
    (agrees : ∀ req op, ordered.txn = .attrib req op → ∀ key field,
      getAttr setup (ledger.withStore attributes) op.dest key field = getAttr setup ledger op.dest key field) :
    applyTxn setup (ledger.withStore attributes) ordered =
      (applyTxn setup ledger ordered).map (·.withStore (storeAfter setup attributes ordered.txn)) := by
  obtain ⟨txn,time,timed⟩ := ordered
  cases txn with
  | nym req =>
    have nyms : (ledger.withStore attributes).nyms = ledger.nyms := rfl
    have place : nextSeqNo (ledger.withStore attributes) = nextSeqNo ledger := rfl
    simp only [applyTxn,nyms,place]
    cases applyNym setup.nym ledger.nyms ⟨req,nextSeqNo ledger,some time⟩ <;> rfl
  | attrib req op =>
    have place : nextSeqNo (ledger.withStore attributes) = nextSeqNo ledger := rfl
    have looked : ∀ entry, attribLookup setup req op (ledger.withStore attributes) entry =
        attribLookup setup req op ledger entry := by
      intro entry
      simp only [attribLookup,agrees req op rfl]
    have asked : attribDynamicValidation setup req op (ledger.withStore attributes) =
        attribDynamicValidation setup req op ledger := by
      simp only [attribDynamicValidation,looked]
      rfl
    simp only [applyTxn,asked,place]
    cases attribStaticValidation setup req op with
    | error error => rfl
    | ok _ =>
      cases attribDynamicValidation setup req op ledger with
      | error error => rfl
      | ok _ =>
        simp only [attribUpdateState,storeAfter,ok_bind]
        cases parseAttrTxn setup op <;> rfl
  | schema req op =>
    have asked : schemaDynamicValidation setup (ledger.withStore attributes) req op =
        schemaDynamicValidation setup ledger req op := rfl
    simp only [applyTxn,asked]
    cases schemaDynamicValidation setup ledger req op <;> rfl
  | claimDef req op =>
    have asked : claimDefDynamicValidation setup (ledger.withStore attributes) req op =
        claimDefDynamicValidation setup ledger req op := rfl
    simp only [applyTxn,asked]
    cases claimDefDynamicValidation setup ledger req op <;> rfl
  | revocDef req op =>
    have asked : revocDefDynamicValidation setup (ledger.withStore attributes) req op =
        revocDefDynamicValidation setup ledger req op := rfl
    have written : revocDefUpdateState (ledger.withStore attributes) req op
        (nextSeqNo (ledger.withStore attributes)) time =
        revocDefUpdateState ledger req op (nextSeqNo ledger) time := rfl
    simp only [applyTxn,asked,written]
    cases revocDefStaticValidation req op with
    | error error => rfl
    | ok _ =>
      cases revocDefDynamicValidation setup ledger req op with
      | error error => rfl
      | ok _ => cases revocDefUpdateState ledger req op (nextSeqNo ledger) time <;> rfl
  | revocEntry req op =>
    have asked : entryDynamicValidation setup (ledger.withStore attributes) req op =
        entryDynamicValidation setup ledger req op := rfl
    have written : entryUpdateState setup (ledger.withStore attributes) req op
        (nextSeqNo (ledger.withStore attributes)) time =
        entryUpdateState setup ledger req op (nextSeqNo ledger) time := rfl
    simp only [applyTxn,asked,written]
    cases entryDynamicValidation setup ledger req op with
    | error error => rfl
    | ok _ => cases entryUpdateState setup ledger req op (nextSeqNo ledger) time <;> rfl

end Store

private theorem NymState.eq_of_nyms (first second : NymState) (same : first.nyms = second.nyms) : first = second := by
  obtain ⟨nyms,cache,agrees⟩ := first
  obtain ⟨others,entries,match_⟩ := second
  obtain rfl : nyms = others := same
  obtain rfl : cache = entries := funext fun did => (agrees did).trans (match_ did).symm
  rfl

section Invariant
variable {ι : Type} [DecidableEq ι] [Revocation.PyStr ι] [PyHash ι] [LE ι] [DecidableLE ι]
  (setup : Setup) (start : Ledger ι)

/-- The ledger that a history leads to has this content. -/
def Shows (history : List (Ordered ι)) (content : Content (Objects ι)) : Prop :=
  ∃ ledger, Run setup start history ledger ∧
    ledger.observed = (content.nymState,content.other.state,content.other.txnTypes)

/-- Every value that the history has written to the attribute store is in it. -/
def Stored (history : List (Ordered ι)) (attributes : String → Option String) : Prop :=
  ∀ item ∈ attributesOf setup start.txnTypes.length history, ∀ text, item.value = some text →
    attributes (hashedValue setup (some text)) = some text

structure Follows (log : BatchLog (Ordered ι)) (node : Replica ι) : Prop where
  reached : log.Reached (Shows setup start) node.base.state
  stored : Stored setup start log.surviving node.attributes
  blank : node.attributes "" = none
  idle : node.base.pending = 0 → log.current = []
  formed : ∀ ordered ∈ log.surviving, ordered.txn.Wellformed setup

omit [DecidableEq ι] [Revocation.PyStr ι] [PyHash ι] [LE ι] [DecidableLE ι] in
private theorem Stored.earlier {history later : List (Ordered ι)} {attributes : String → Option String}
    (stored : Stored setup start later attributes) (longer : history <+: later) :
    Stored setup start history attributes := by
  obtain ⟨rest,rfl⟩ := longer
  intro item member
  refine stored item ?_
  rw [attributesOf_append]
  exact List.mem_append_left _ member

omit [DecidableEq ι] [Revocation.PyStr ι] [PyHash ι] [LE ι] [DecidableLE ι] in
private theorem ledgerOf_eq {ledger : Ledger ι} {content : Content (Objects ι)}
    (same : ledger.observed = (content.nymState,content.other.state,content.other.txnTypes))
    (node : Replica ι) : node.ledgerOf content = ledger.withStore node.attributes := by
  obtain ⟨nyms,state,attributes,txnTypes⟩ := ledger
  obtain ⟨rfl,rfl,rfl⟩ : nyms = content.nymState ∧ state = content.other.state ∧
      txnTypes = content.other.txnTypes := by simpa [Ledger.observed] using same
  rfl

section Hash
variable (collisionFree : Function.Injective setup.sha256) (digest : ∀ text, setup.sha256 text ≠ "")
  (empty : ∀ path, start.state path = none)

omit [DecidableEq ι] [Revocation.PyStr ι] [PyHash ι] [LE ι] [DecidableLE ι] in
private theorem Holds.withStore {history : List (Ordered ι)} {ledger : Ledger ι}
    (holds : Holds setup (attributesOf setup start.txnTypes.length history) ledger)
    {attributes : String → Option String} (stored : Stored setup start history attributes) :
    Holds setup (attributesOf setup start.txnTypes.length history) (ledger.withStore attributes) :=
  {holds with store := stored}

omit [DecidableEq ι] [Revocation.PyStr ι] [PyHash ι] [LE ι] [DecidableLE ι] in
private theorem Holds.getAttr_eq {attributes : List Attribute} {ledger : Ledger ι}
    (holds : Holds setup attributes ledger) (store : String → Option String)
    (stored : Holds setup attributes (ledger.withStore store)) (did : Did) (shaped : IsIdentifier did)
    (key : String) (field : AttrType) :
    getAttr setup (ledger.withStore store) did key field = getAttr setup ledger did key field := by
  have marked : Marked "1" (makeStatePathForAttr did.val (attrNameHash setup field key)) :=
    ⟨did.val,shaped.plain,attrPath_under _ _⟩
  have same : (ledger.withStore store).state = ledger.state := rfl
  rw [getAttr,getAttr,same,holds.state _ marked]
  cases found : latest (fun item => item.path setup =
      makeStatePathForAttr did.val (attrNameHash setup field key)) attributes with
  | none => rfl
  | some item =>
    have member := (latest_some _ _ _ found).1
    cases value : item.value with
    | none => simp [Attribute.leaf,value,hashedValue,truthy]
    | some text =>
      have here := holds.store item member text value
      have there := stored.store item member text value
      simp only [Option.map_some,Attribute.leaf,value,here,there]

include collisionFree digest empty

private theorem Shows.step {history : List (Ordered ι)} {ledger : Ledger ι} (run : Run setup start history ledger)
    (formed : ∀ ordered ∈ history, ordered.txn.Wellformed setup) {attributes : String → Option String}
    (stored : Stored setup start history attributes) (ordered : Ordered ι)
    (identified : ordered.txn.Identified) :
    applyTxn setup (ledger.withStore attributes) ordered =
      (applyTxn setup ledger ordered).map (·.withStore (storeAfter setup attributes ordered.txn)) := by
  have holds := run.holds setup collisionFree digest (fun other member => (formed other member).identified) empty
  refine applyTxn_withStore setup ledger attributes ordered ?_
  intro req op same key field
  exact holds.getAttr_eq setup attributes (holds.withStore setup start stored) op.dest
    (identified.dest req op same) key field

private theorem Shows.accepted {history : List (Ordered ι)} {ledger : Ledger ι} (run : Run setup start history ledger)
    (formed : ∀ ordered ∈ history, ordered.txn.Wellformed setup) {attributes : String → Option String}
    (stored : Stored setup start history attributes) (ordered : Ordered ι)
    (identified : ordered.txn.Identified) (next : Ledger ι)
    (accepted : applyTxn setup (ledger.withStore attributes) ordered = .ok next) :
    ∃ after, applyTxn setup ledger ordered = .ok after ∧ after.observed = next.observed ∧
      Stored setup start (history ++ [ordered]) next.attributes := by
  have holds := run.holds setup collisionFree digest (fun other member => (formed other member).identified) empty
  have kept := (holds.withStore setup start stored).step setup collisionFree digest ordered identified
    (run.length setup) (applyTxn_applied setup _ _ ordered accepted)
  rw [Shows.step setup start collisionFree digest empty run formed stored ordered identified] at accepted
  cases applied : applyTxn setup ledger ordered with
  | error error =>
    rw [applied] at accepted
    cases accepted
  | ok after =>
    rw [applied] at accepted
    obtain rfl := Except.ok.inj accepted
    exact ⟨after,rfl,rfl,kept.store⟩

end Hash
end Invariant

section Runs
variable {ι : Type} [DecidableEq ι] [Revocation.PyStr ι] [PyHash ι] [LE ι] [DecidableLE ι]
  (setup : Setup) (rlp : Rlp) (base58 : Base58) (root : Content (Objects ι) → List UInt8)

private theorem Applied.nyms_other {ledger next : Ledger ι} {time : Nat} {txn : DomainTxn ι}
    (applied : Applied setup ledger time txn next) (other : ∀ req, txn ≠ .nym req) :
    next.nyms = ledger.nyms := by
  cases applied with
  | nym req => exact absurd rfl (other req)
  | _ => rfl

/-- A node without anything uncommitted and without objects. -/
structure Replica.Started (start : Replica ι) : Prop where
  base : start.base.Started rlp
  empty : ∀ path, start.base.state.head.other.state path = none
  blank : start.attributes "" = none

variable (collisionFree : Function.Injective setup.sha256) (digest : ∀ text, setup.sha256 text ≠ "")

private theorem Replica.Started.follows {start : Replica ι} (started : start.Started rlp) :
    Follows setup start.uncommitted .empty start where
  reached := by
    have shape : start.base.state = ⟨start.base.state.head,[],start.base.state.head⟩ := by
      obtain ⟨⟨⟨committed,closed,head⟩,cache,pending⟩,attributes⟩ := start
      obtain ⟨rfl,rfl⟩ : closed = [] ∧ head = committed := ⟨started.base.closed,started.base.head⟩
      rfl
    rw [shape]
    exact .start ⟨start.uncommitted,.start,rfl⟩
  stored item member := by simp [attributesOf] at member
  blank := started.blank
  idle _ := rfl
  formed ordered member := by simp at member

include collisionFree digest in
private theorem Follows.nym {start : Ledger ι} {log : BatchLog (Ordered ι)} {node : Replica ι}
    (empty : ∀ path, start.state path = none) (follows : Follows setup start log node)
    (req : ClientRequest) (time : Nat) (timed : 0 < time) (next : Ledger ι) (op : NymOperation)
    (base : Nym.Node (Objects ι)) (formed : DomainTxn.Wellformed setup (.nym req : DomainTxn ι))
    (accepted : applyTxn setup node.uncommitted ⟨.nym req,time,timed⟩ = .ok next)
    (parsed : staticValidation setup.nym.loads req = .ok op)
    (written : node.base.applyNym rlp ⟨req.identifier,op,nextSeqNo node.uncommitted,some time,
      formed.keyed req op rfl parsed⟩ = .ok base) :
    Follows setup start (log.apply ⟨.nym req,time,timed⟩)
      ⟨base.applyOther ⟨base.state.head.other.state,base.state.head.other.txnTypes ++ [nymType]⟩,
        node.attributes⟩ := by
  obtain ⟨ledger,run,same⟩ := follows.reached.head
  have view := ledgerOf_eq same node
  have here : node.uncommitted = ledger.withStore node.attributes := view
  have ordered := accepted
  rw [here] at ordered
  obtain ⟨after,applied,observed,stored⟩ := Shows.accepted setup start collisionFree digest empty run
    follows.formed follows.stored ⟨.nym req,time,timed⟩ formed.identified next ordered
  have applied' := applyTxn_applied setup _ _ _ accepted
  obtain ⟨value,packed,made⟩ := bind_success _ _ _ written
  obtain rfl := Except.ok.inj made
  cases applied' with
  | nym _ nyms ok =>
    obtain ⟨again,parsedAgain,_,rfl⟩ := applyNym_accepted setup.nym node.uncommitted.nyms nyms _ ok
    obtain rfl := Except.ok.inj (parsed.symm.trans parsedAgain)
    refine ⟨follows.reached.apply _ _ ⟨after,.step _ _ _ _ run applied,?_⟩,?_,follows.blank,?_,?_⟩
    · rw [observed]
      have nyms := NymState.eq_of_nyms _ _ (node.base.state.head.update_nymState
        ⟨req.identifier,op,nextSeqNo node.uncommitted,some time,formed.keyed req op rfl parsed⟩)
      exact Prod.ext nyms.symm rfl
    · rw [BatchLog.surviving_apply]
      exact stored
    · intro none
      simp [Nym.Node.applyOther] at none
    · rw [BatchLog.surviving_apply]
      exact List.forall_mem_append.mpr ⟨follows.formed,List.forall_mem_singleton.mpr formed⟩

include collisionFree digest in
private theorem Follows.object {start : Ledger ι} {log : BatchLog (Ordered ι)} {node : Replica ι}
    (empty : ∀ path, start.state path = none) (follows : Follows setup start log node)
    (ordered : Ordered ι) (next : Ledger ι) (formed : ordered.txn.Wellformed setup)
    (other : ∀ req, ordered.txn ≠ .nym req)
    (accepted : applyTxn setup node.uncommitted ordered = .ok next) :
    Follows setup start (log.apply ordered)
      ⟨node.base.applyOther ⟨next.state,next.txnTypes⟩,next.attributes⟩ := by
  obtain ⟨ledger,run,same⟩ := follows.reached.head
  have view : node.uncommitted = ledger.withStore node.attributes := ledgerOf_eq same node
  have nyms := (applyTxn_applied setup _ _ _ accepted).nyms_other setup other
  have single : Run setup node.uncommitted [ordered] next := .step [] _ _ ordered .start accepted
  rw [view] at accepted
  obtain ⟨after,applied,observed,stored⟩ := Shows.accepted setup start collisionFree digest empty run
    follows.formed follows.stored ordered formed.identified next accepted
  refine ⟨follows.reached.apply _ _ ⟨after,.step _ _ _ _ run applied,?_⟩,?_,?_,?_,?_⟩
  · rw [observed]
    exact Prod.ext nyms rfl
  · rw [BatchLog.surviving_apply]
    exact stored
  · exact single.blank setup digest (by simpa using formed.worded) follows.blank
  · intro none
    simp [Nym.Node.applyOther] at none
  · rw [BatchLog.surviving_apply]
    exact List.forall_mem_append.mpr ⟨follows.formed,List.forall_mem_singleton.mpr formed⟩

include collisionFree digest in
/-- The attribute store is right for every history that survives, because values are
never overwritten by different ones and a rejected batch only leaves too much. -/
theorem Orders.follows {start node : Replica ι} {log : BatchLog (Ordered ι)} (started : start.Started rlp)
    (run : Orders setup rlp base58 root start log node) : Follows setup start.uncommitted log node := by
  induction run with
  | start => exact started.follows setup rlp
  | nym log node req time timed next op base earlier formed accepted parsed written ih =>
    exact ih.nym setup rlp collisionFree digest started.empty req time timed next op base formed accepted parsed
      written
  | object log node ordered next earlier formed other accepted ih =>
    exact ih.object setup collisionFree digest started.empty ordered next formed other accepted
  | close log node earlier ih =>
    refine ⟨ih.reached.close,?_,ih.blank,fun _ => rfl,?_⟩
    · rw [BatchLog.surviving_close]
      exact ih.stored
    · rw [BatchLog.surviving_close]
      exact ih.formed
  | commit log node oldest closed earlier opened ih =>
    refine ⟨ih.reached.commit,?_,ih.blank,fun none => ?_,?_⟩
    · rw [BatchLog.surviving_commit]
      exact ih.stored
    · rw [BatchLog.commit]
      split
      · exact ih.idle none
      · exact ih.idle none
    · rw [BatchLog.surviving_commit]
      exact ih.formed
  | reject log node earlier opened idle ih =>
    have shorter := log.surviving_reject (ih.idle idle)
    refine ⟨ih.reached.reject (ih.idle idle),ih.stored.earlier setup _ shorter,ih.blank,fun _ => ih.idle idle,?_⟩
    exact fun ordered member => ih.formed ordered (shorter.subset member)

private theorem Orders.base {start node : Replica ι} {log : BatchLog (Ordered ι)}
    (run : Orders setup rlp base58 root start log node) :
    Relation.ReflTransGen (Nym.Node.Step rlp base58 root) start.base node.base := by
  induction run with
  | start => exact .refl
  | nym log node req time timed next op base earlier formed accepted parsed written ih =>
    exact (ih.tail (.nym node.base base _ written)).tail (.other base _)
  | object log node ordered next earlier formed other accepted ih => exact ih.tail (.other node.base _)
  | close log node earlier ih => exact ih.tail (.close node.base)
  | commit log node oldest closed earlier opened ih => exact ih.tail (.commit node.base oldest closed opened)
  | reject log node earlier opened idle ih => exact ih.tail (.reject node.base opened idle)

section Reads
variable {attributes : List Attribute} {ledger : Ledger ι}

omit [DecidableEq ι] [Revocation.PyStr ι] [PyHash ι] [LE ι] [DecidableLE ι] in
private theorem Holds.attrResult_eq (holds : Holds setup attributes ledger) (store : String → Option String)
    (stored : Holds setup attributes (ledger.withStore store)) (blank : ledger.attributes "" = none)
    (noBlank : store "" = none) (tsStore : Nat → Option (Ledger ι)) (times : List (Option Nat))
    (path : String) (marked : Marked "1" path) (field : AttrType) (name : String) :
    attrResult ⟨ledger.withStore store,tsStore,times⟩ field name (ledger.state path) =
      attrResult ⟨ledger,tsStore,times⟩ field name (ledger.state path) := by
  rw [holds.state path marked,attrResult_leaf,attrResult_leaf]
  cases found : latest (fun item => item.path setup = path) attributes with
  | none => rfl
  | some item =>
    have member := (latest_some _ _ _ found).1
    simp only [replyFor]
    cases value : item.value with
    | none =>
      have unhashed : hashedValue setup none = "" := by simp [hashedValue,truthy]
      have here : (ledger.withStore store).attributes = store := rfl
      rw [unhashed,here,blank,noBlank]
    | some text => rw [holds.store item member text value,stored.store item member text value]

omit [DecidableEq ι] [Revocation.PyStr ι] [PyHash ι] [LE ι] [DecidableLE ι] in
private theorem getAttrResult_eq (first second : Ledger ι) (tsStore : Nat → Option (Ledger ι))
    (times : List (Option Nat)) (req : Request) (op : AttribOperation) (same : first.state = second.state)
    (agrees : ∀ field name, attrResult ⟨first,tsStore,times⟩ field name
      (second.state (makeStatePathForAttr op.dest.val (attrNameHash setup field name))) =
        attrResult ⟨second,tsStore,times⟩ field name
          (second.state (makeStatePathForAttr op.dest.val (attrNameHash setup field name)))) :
    getAttrResult setup ⟨first,tsStore,times⟩ req op none none =
      getAttrResult setup ⟨second,tsStore,times⟩ req op none none := by
  have reads : ∀ path, lookupVersion (⟨first,tsStore,times⟩ : Committed ι) (fun ledger => ledger.state path)
      none none = .ok (second.state path) := by
    intro path
    rw [← same]
    rfl
  have others : ∀ path, lookupVersion (⟨second,tsStore,times⟩ : Committed ι) (fun ledger => ledger.state path)
      none none = .ok (second.state path) := fun path => rfl
  simp only [getAttrResult,reads,others,ok_bind,agrees]

end Reads

/-- What the cache of a node should return for a DID. -/
def Ledger.idrFields (ledger : Ledger ι) (did : Did) : Except Raised IdrFields :=
  match ledger.nyms.nyms did with
  | none => .error .keyError
  | some record => .ok record.idrFields

include collisionFree digest in
/-- However batches are filled, closed, committed and rejected, a node decides on
every request like the ledger of all surviving transactions, and answers reads like
the ledger of the committed ones; the cache shows the nyms of both. -/
theorem batches_refine_ledger (start node : Replica ι) (log : BatchLog (Ordered ι))
    (started : start.Started rlp) (run : Orders setup rlp base58 root start log node) :
    ∃ latest settled, Run setup start.uncommitted log.surviving latest ∧
      Run setup start.uncommitted log.committed settled ∧
      (∀ ordered : Ordered ι, ordered.txn.Identified →
        (applyTxn setup node.uncommitted ordered).map Ledger.observed =
          (applyTxn setup latest ordered).map Ledger.observed) ∧
      (∀ did, node.base.cache.fetch rlp did false = latest.idrFields did ∧
        node.base.cache.fetch rlp did true = settled.idrFields did) ∧
      node.committed.observed = settled.observed ∧
      ∀ tsStore times req op, IsIdentifier op.dest →
        getAttrResult setup ⟨node.committed,tsStore,times⟩ req op none none =
          getAttrResult setup ⟨settled,tsStore,times⟩ req op none none := by
  have follows := run.follows setup rlp base58 root collisionFree digest started
  obtain ⟨latest,later,shown⟩ := follows.reached.head
  obtain ⟨settled,earlier,known⟩ := follows.reached.committed
  have view : node.uncommitted = latest.withStore node.attributes := ledgerOf_eq shown node
  have read : node.committed = settled.withStore node.attributes := ledgerOf_eq known node
  have formed : ∀ ordered ∈ log.committed, ordered.txn.Wellformed setup := fun ordered member =>
    follows.formed ordered (log.committed_prefix.subset member)
  have stored := follows.stored.earlier setup _ log.committed_prefix
  refine ⟨latest,settled,later,earlier,?_,?_,?_,?_⟩
  · intro ordered identified
    rw [view,Shows.step setup _ collisionFree digest started.empty later follows.formed follows.stored ordered
      identified]
    cases applyTxn setup latest ordered <;> rfl
  · have mirrored := run_mirrored started.base (run.base setup rlp base58 root)
    intro did
    constructor
    · have nyms : latest.nyms = node.base.state.head.nymState := congrArg Prod.fst shown
      rw [IdrStore.fetch,if_neg Bool.false_ne_true,mirrored.lockstep.read_head did,unpackFound_image,
        Ledger.idrFields,nyms]
      rfl
    · have nyms : settled.nyms = node.base.state.committed.nymState := congrArg Prod.fst known
      rw [IdrStore.fetch,if_pos rfl,mirrored.lockstep.committed,unpackFound_image,Ledger.idrFields,nyms]
      rfl
  · rw [read]
    rfl
  · intro tsStore times req op shaped
    have holds := earlier.holds setup collisionFree digest
      (fun ordered member => (formed ordered member).identified) started.empty
    have blank := earlier.blank setup digest (fun ordered member => (formed ordered member).worded) started.blank
    rw [read]
    refine getAttrResult_eq setup _ _ tsStore times req op rfl ?_
    intro field name
    exact holds.attrResult_eq setup node.attributes (holds.withStore setup _ stored) blank follows.blank tsStore
      times _ ⟨op.dest.val,shaped.plain,attrPath_under _ _⟩ field name

private theorem Run.unmoved {start final : Ledger ι} (run : Run setup start [] final) : final = start := by
  generalize empty : ([] : List (Ordered ι)) = history at run
  cases run with
  | start => rfl
  | step => simp at empty

end Runs

private theorem owner_keyed (did : Did) (record : NymRecord) (known : (ownerNyms .trustee).nyms did = some record) :
    record.verkey ≠ some unsetVerkey := by
  simp only [ownerNyms,Option.ite_none_right_eq_some] at known
  rw [← Option.some.inj known.2]
  decide

def ownerContent : Content (Objects Nat) := ⟨(ownerNyms .trustee).nyms,⟨fun _ => none,["1"]⟩,owner_keyed⟩

def ownerReplica : Replica Nat :=
  ⟨⟨⟨ownerContent,[],ownerContent⟩,⟨ownerContent.image sampleRlp,[],[]⟩,0⟩,fun _ => none⟩

private theorem ownerReplica_started : ownerReplica.Started sampleRlp := ⟨⟨rfl,rfl,rfl,rfl,rfl⟩,fun _ => rfl,rfl⟩

private theorem ownerReplica_uncommitted : ownerReplica.uncommitted = ownerLedger .trustee :=
  congrArg (fun nyms => (⟨nyms,fun _ => none,fun _ => none,["1"]⟩ : Ledger Nat)) (NymState.eq_of_nyms _ _ rfl)

/-- The batch with an attribute is rejected; its value stays in the store and is not read. -/
theorem rejected_attribute_unread : ∃ log node,
    Orders markSetup sampleRlp sampleBase58 (fun _ => []) ownerReplica log node ∧
      node.attributes ("#" ++ rawName "x") = some (rawName "x") ∧
      getAttrResult markSetup ⟨node.committed,fun _ => none,[]⟩ signedByOwner (attrQuery ownerDid .raw "name")
        none none = .ok ⟨none,none,none⟩ := by
  let ordered : Ordered Nat := ⟨.attrib signedByOwner (nameOperation "x"),10,Nat.succ_pos 9⟩
  have listed : ordered ∈ nameHistory := by simp [ordered,nameHistory]
  have accepted : applyTxn markSetup ownerReplica.uncommitted ordered = .ok withName :=
    ownerReplica_uncommitted ▸ name_added
  have formed : ordered.txn.Wellformed markSetup :=
    ⟨nameHistory_identified _ listed,nameHistory_worded _ listed,fun _ _ same => by cases same⟩
  have applied : Orders markSetup sampleRlp sampleBase58 (fun _ => []) ownerReplica _ _ :=
    .object .empty ownerReplica ordered withName .start formed (fun _ same => by cases same) accepted
  have run := Orders.reject _ _ (Orders.close _ _ applied) (List.cons_ne_nil _ _) rfl
  obtain ⟨latest,settled,_,nothing,_,_,_,reads⟩ := batches_refine_ledger markSetup sampleRlp sampleBase58
    (fun _ => []) markSetup_collisionFree markSetup_digest ownerReplica _ _ ownerReplica_started run
  refine ⟨_,_,run,rfl,?_⟩
  rw [reads _ _ _ _ (by decide),nothing.unmoved,ownerReplica_uncommitted]
  rfl

end IndyNode.Domain

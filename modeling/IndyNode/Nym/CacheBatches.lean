import Mathlib
import IndyNode.Foundation.OptimisticStore
import IndyNode.Nym.Handler
import IndyNode.Authorize.Signatures

/-! `IdrCache` as a store with uncommitted batches, next to the uncommitted domain
state: what a node has in both after transactions, closed batches, commits and
rejections. -/
namespace IndyNode.Nym
open Authorize

/-- `rlp` on the texts of a cache value. -/
structure Rlp where
  encode : List String → List UInt8
  decode : List UInt8 → List String
  decode_encode : ∀ items, decode (encode items) = items

/-- `base58` on state roots. -/
structure Base58 where
  b58encode : List UInt8 → String
  b58decode : String → List UInt8
  decode_encode : ∀ bytes, b58decode (b58encode bytes) = bytes

/-- What `IdrCache.get` returns. -/
structure IdrFields where
  seqNo : Nat
  txnTime : Option Nat
  ta : String
  role : String
  verkey : Option String
deriving DecidableEq, Repr

def creatorText : Option Did → String
  | none => ""
  | some creator => creator.val

/-- The same fields of a nym in the domain state. -/
def NymRecord.idrFields (record : NymRecord) : IdrFields :=
  ⟨record.seqNo,record.txnTime,creatorText record.identifier,record.role.code,record.verkey⟩

def unsetVerkey : String := "-"

def encodeVerkey (verkey : Option String) : String := verkey.getD unsetVerkey

def decodeVerkey (verkey : String) : Option String :=
  if verkey ≠ unsetVerkey then some verkey else none

/-- `int(text)` of a text that `str` makes of a natural number. -/
def parseNat (text : String) : Except Raised Nat :=
  match text.toNat? with
  | some number => .ok number
  | none => .error .valueError

def timeText : Option Nat → String
  | none => ""
  | some time => toString time

def parseTime (text : String) : Except Raised (Option Nat) :=
  if text = "" then .ok none else do return some (← parseNat text)

section Values
variable (rlp : Rlp)

def packIdrValue (seqNo txnTime : Option Nat) (ta : Option Did) (role : Role)
    (verkey : Option String) : Except Raised (List UInt8) :=
  match seqNo with
  | none => .error .valueError
  | some seqNo => .ok (rlp.encode
      [toString seqNo,timeText txnTime,creatorText ta,role.code,encodeVerkey verkey])

def unpackIdrValue (value : List UInt8) : Except Raised IdrFields :=
  match rlp.decode value with
  | [seqNo,txnTime,ta,role,verkey] => do
    let seqNo ← parseNat seqNo
    let txnTime ← parseTime txnTime
    return ⟨seqNo,txnTime,ta,role,decodeVerkey verkey⟩
  | _ => .error .valueError

/-- A missing key is a `KeyError`. -/
def unpackFound : Option (List UInt8) → Except Raised IdrFields
  | none => .error .keyError
  | some value => unpackIdrValue rlp value

/-- The value `IdrCacheNymHandler` stores for the record `NymHandler` returned. -/
def NymRecord.packed (record : NymRecord) : Except Raised (List UInt8) :=
  packIdrValue rlp (some record.seqNo) record.txnTime record.identifier record.role record.verkey

end Values

private theorem parseNat_toString (number : Nat) : parseNat (toString number) = .ok number := by
  have parsed : (toString number).toNat? = some number := Nat.toNat?_repr number
  rw [parseNat,parsed]

private theorem parseTime_timeText (time : Option Nat) : parseTime (timeText time) = .ok time := by
  cases time with
  | none => rfl
  | some time =>
    have nonempty : toString time ≠ "" := Nat.repr_ne_empty
    rw [timeText,parseTime,if_neg nonempty,parseNat_toString]
    rfl

private theorem decode_encodeVerkey (verkey : Option String) (keyed : verkey ≠ some unsetVerkey) :
    decodeVerkey (encodeVerkey verkey) = verkey := by
  cases verkey with
  | none => rfl
  | some text => exact if_pos fun same => keyed (congrArg some same)

private theorem unpack_packed (rlp : Rlp) (record : NymRecord) (keyed : record.verkey ≠ some unsetVerkey) :
    ∃ value, record.packed rlp = .ok value ∧ unpackIdrValue rlp value = .ok record.idrFields := by
  refine ⟨_,rfl,?_⟩
  rw [unpackIdrValue,rlp.decode_encode]
  simp only [parseNat_toString,parseTime_timeText,ok_bind,decode_encodeVerkey _ keyed]
  rfl

/-- The uncommitted values of the cache by DID; batches are named by state roots. -/
abbrev IdrStore := OptimisticStore Did (List UInt8) (List UInt8)

namespace IdrStore

def fetch (rlp : Rlp) (cache : IdrStore) (did : Did) (isCommitted : Bool) : Except Raised IdrFields :=
  unpackFound rlp (if isCommitted then cache.store did else cache.get did)

def currentBatchCreated (cache : IdrStore) (stateRoot : List UInt8) : IdrStore :=
  cache.createBatch stateRoot

def batchRejected (cache : IdrStore) : IdrStore := cache.rejectBatch

/-- Both warnings and a failed commit leave the cache as it is. -/
def onBatchCommitted (cache : IdrStore) (stateRoot : List UInt8) : IdrStore :=
  match cache.firstBatchIdr with
  | none => cache
  | some idr => if idr ≠ stateRoot then cache else cache.commitBatch.getD cache

end IdrStore

/-- A content of the domain state: nyms and everything else. The verkey schema
admits base58 texts, so no stored key is the mark of an unset one. -/
structure Content (ω : Type) where
  nyms : Did → Option NymRecord
  other : ω
  keyed : ∀ did record, nyms did = some record → record.verkey ≠ some unsetVerkey

structure NymTxn where
  author : Option Did
  op : NymOperation
  seqNo : Nat
  txnTime : Option Nat
  keyed : op.verkey ≠ some (some unsetVerkey)

def NymTxn.record (txn : NymTxn) (existing : Option NymRecord) : NymRecord :=
  updatedRecord existing txn.author txn.op txn.seqNo txn.txnTime

private theorem NymTxn.record_keyed (txn : NymTxn) (existing : Option NymRecord)
    (before : ∀ record, existing = some record → record.verkey ≠ some unsetVerkey) :
    (txn.record existing).verkey ≠ some unsetVerkey := by
  have given := txn.keyed
  cases existing with
  | none =>
    rw [NymTxn.record,updatedRecord]
    cases verkey : txn.op.verkey with
    | none => simp [Field.get]
    | some verkey =>
      rw [verkey] at given
      simpa [Field.get] using given
  | some record =>
    have kept := before record rfl
    rw [NymTxn.record,updatedRecord]
    cases verkey : txn.op.verkey with
    | none => exact kept
    | some verkey =>
      rw [verkey] at given
      simpa using given

/-- `NymHandler.update_state` on the uncommitted content. -/
def Content.update {ω : Type} (content : Content ω) (txn : NymTxn) : Content ω where
  nyms := Function.update content.nyms txn.op.dest (some (txn.record (content.nyms txn.op.dest)))
  other := content.other
  keyed := by
    intro did record known
    by_cases target : did = txn.op.dest
    · subst target
      rw [Function.update_self,Option.some.injEq] at known
      rw [← known]
      exact txn.record_keyed _ fun old => content.keyed _ old
    · rw [Function.update_of_ne target] at known
      exact content.keyed did record known

private theorem Content.update_nyms {ω : Type} (content : Content ω) (txn : NymTxn) :
    (content.update txn).nyms = Function.update content.nyms txn.op.dest
      (some (txn.record (content.nyms txn.op.dest))) := rfl

/-- The domain state and the cache of a node, with the number of transactions
applied since a batch was last closed. -/
structure Node (ω : Type) where
  state : SnapshotState (Content ω)
  cache : IdrStore
  pending : Nat

section Steps
variable {ω : Type} (rlp : Rlp) (base58 : Base58) (root : Content ω → List UInt8)

/-- The two handlers of a NYM, the second with the result of the first. -/
def Node.applyNym (node : Node ω) (txn : NymTxn) : Except Raised (Node ω) := do
  let next := node.state.head.update txn
  let value ← (txn.record (node.state.head.nyms txn.op.dest)).packed rlp
  return ⟨node.state.apply next,node.cache.set txn.op.dest value,node.pending + 1⟩

def Node.applyOther (node : Node ω) (other : ω) : Node ω :=
  ⟨node.state.apply {node.state.head with other := other},node.cache,node.pending + 1⟩

/-- `post_batch_applied`: the batch carries the root as bytes. -/
def Node.closeBatch (node : Node ω) : Node ω :=
  ⟨node.state.close,node.cache.currentBatchCreated (root node.state.head),0⟩

/-- `commit_batch`: the ordered batch carries the root of the oldest one as text. -/
def Node.commitBatch (node : Node ω) (stateRoot : String) : Node ω :=
  ⟨node.state.commit,node.cache.onBatchCommitted (base58.b58decode stateRoot),node.pending⟩

/-- `post_batch_rejected`. -/
def Node.rejectBatch (node : Node ω) : Node ω :=
  ⟨node.state.reject,node.cache.batchRejected,node.pending⟩

/-- What ordering does to a node. Batches are committed from the oldest; the newest
is rejected first, so no batch is rejected while a newer one is being filled. -/
inductive Node.Step : Node ω → Node ω → Prop
  | nym (node next : Node ω) (txn : NymTxn) (applied : node.applyNym rlp txn = .ok next) : Step node next
  | other (node : Node ω) (other : ω) : Step node (node.applyOther other)
  | close (node : Node ω) : Step node (node.closeBatch root)
  | commit (node : Node ω) (oldest : Content ω) (closed : List (Content ω))
      (opened : node.state.closed = oldest :: closed) :
      Step node (node.commitBatch base58 (base58.b58encode (root oldest)))
  | reject (node : Node ω) (opened : node.state.closed ≠ []) (idle : node.pending = 0) :
      Step node node.rejectBatch

/-- The cache values for the nyms of a content. -/
def Content.image (content : Content ω) (did : Did) : Option (List UInt8) :=
  (content.nyms did).bind fun record => (record.packed rlp).toOption

/-- Nothing is uncommitted and the cache holds the committed nyms. -/
structure Node.Started (node : Node ω) : Prop where
  closed : node.state.closed = []
  head : node.state.head = node.state.committed
  batches : node.cache.batches = []
  current : node.cache.current = []
  store : node.cache.store = node.state.committed.image rlp

/-- Cache and state are in lockstep, and the cache has current operations only if
transactions are pending. -/
structure Node.Mirrored (node : Node ω) : Prop where
  lockstep : Lockstep (Content.image rlp) root node.cache node.state
  idle : node.pending = 0 → node.cache.current = []

variable {rlp base58 root}

private theorem Node.Started.mirrored {node : Node ω} (started : node.Started rlp) :
    node.Mirrored rlp root where
  lockstep := {
    committed := started.store
    closed := by
      rw [started.closed,started.batches]
      exact .nil _
    head := by
      rw [started.current,SnapshotState.settled,started.closed,started.head]
      rfl }
  idle := fun _ => started.current

private theorem image_update (content : Content ω) (txn : NymTxn) (value : List UInt8)
    (packed : (txn.record (content.nyms txn.op.dest)).packed rlp = .ok value) :
    (content.update txn).image rlp = Function.update (content.image rlp) txn.op.dest (some value) := by
  funext did
  by_cases target : did = txn.op.dest
  · subst target
    rw [Function.update_self,Content.image,Content.update_nyms,Function.update_self,Option.bind_some,
      packed]
    rfl
  · rw [Function.update_of_ne target,Content.image,Content.image,Content.update_nyms,
      Function.update_of_ne target]

private theorem Node.Step.mirrored {node next : Node ω} (step : Node.Step rlp base58 root node next)
    (mirrored : node.Mirrored rlp root) : next.Mirrored rlp root := by
  obtain ⟨lockstep,idle⟩ := mirrored
  cases step with
  | nym _ txn applied =>
    obtain ⟨value,packed,applied⟩ := bind_success _ _ _ applied
    obtain rfl := Except.ok.inj applied
    exact ⟨lockstep.set _ value _ (image_update _ txn value packed),fun none => by simp at none⟩
  | other other => exact ⟨lockstep.skip _ rfl,fun none => by simp [Node.applyOther] at none⟩
  | close => exact ⟨lockstep.createBatch,fun _ => rfl⟩
  | commit oldest closed opened =>
    obtain ⟨first,cache,committed,later⟩ := lockstep.commitBatch oldest closed opened
    have handled : node.cache.onBatchCommitted (root oldest) = cache := by
      rw [IdrStore.onBatchCommitted,first]
      simp [committed]
    refine ⟨?_,fun none => ?_⟩
    · rw [Node.commitBatch,base58.decode_encode,handled]
      exact later
    · rw [Node.commitBatch,base58.decode_encode,handled]
      rw [OptimisticStore.commitBatch] at committed
      split at committed
      · simp at committed
      · rw [← Option.some.inj committed]
        exact idle none
  | reject opened none => exact ⟨lockstep.rejectBatch (idle none),idle⟩

theorem run_mirrored {start node : Node ω} (started : start.Started rlp)
    (run : Relation.ReflTransGen (Node.Step rlp base58 root) start node) :
    node.Mirrored rlp root := by
  induction run with
  | refl => exact started.mirrored
  | tail _ step ih => exact step.mirrored ih

def Content.fields (content : Content ω) (did : Did) : Except Raised IdrFields :=
  match content.nyms did with
  | none => .error .keyError
  | some record => .ok record.idrFields

theorem unpackFound_image (content : Content ω) (did : Did) :
    unpackFound rlp (content.image rlp did) = content.fields did := by
  rw [Content.image,Content.fields]
  cases known : content.nyms did with
  | none => rfl
  | some record =>
    obtain ⟨value,packed,unpacked⟩ := unpack_packed rlp record (content.keyed did record known)
    rw [Option.bind_some,packed]
    exact unpacked

end Steps

/-- Through every run of transactions, closed, committed and rejected batches the
uncommitted cache shows the uncommitted nyms and the committed cache the committed
ones. -/
theorem cache_mirrors_state {ω : Type} (rlp : Rlp) (base58 : Base58) (root : Content ω → List UInt8)
    (start node : Node ω) (started : start.Started rlp)
    (run : Relation.ReflTransGen (Node.Step rlp base58 root) start node) (did : Did) :
    node.cache.fetch rlp did false = node.state.head.fields did ∧
      node.cache.fetch rlp did true = node.state.committed.fields did := by
  have mirrored := run_mirrored started run
  constructor
  · rw [IdrStore.fetch,if_neg Bool.false_ne_true,mirrored.lockstep.read_head did]
    exact unpackFound_image node.state.head did
  · rw [IdrStore.fetch,if_pos rfl,mirrored.lockstep.committed]
    exact unpackFound_image node.state.committed did

/-- The state and the cache entries that validation works on. -/
def Content.nymState {ω : Type} (content : Content ω) : NymState where
  nyms := content.nyms
  cache did := (content.nyms did).map NymRecord.cacheEntry
  agrees _ := rfl

theorem Content.update_nymState {ω : Type} (content : Content ω) (txn : NymTxn) :
    (content.update txn).nymState.nyms =
      (content.nymState.update txn.author txn.op txn.seqNo txn.txnTime).nyms := by
  have nyms : (content.update txn).nymState.nyms = Function.update content.nyms txn.op.dest
      (some (txn.record (content.nyms txn.op.dest))) := content.update_nyms txn
  funext did
  rw [nyms]
  by_cases target : did = txn.op.dest
  · subst target
    rw [Function.update_self]
    simp [NymState.update,Content.nymState,NymTxn.record]
  · rw [Function.update_of_ne target]
    simp [NymState.update,Content.nymState,target]

/-- Texts by the numbers of their characters, numbered as a whole. -/
def sampleRlp : Rlp where
  encode items := List.replicate (Encodable.encode (items.map fun text => text.toList.map Char.toNat)) 0
  decode value := ((Encodable.decode value.length : Option (List (List Nat))).getD []).map fun codes =>
    String.ofList (codes.map Char.ofNat)
  decode_encode items := by
    simp [Function.comp_def,Char.ofNat_toNat]

def sampleBase58 : Base58 where
  b58encode bytes := String.ofList (bytes.map fun byte => Char.ofNat byte.toNat)
  b58decode text := text.toList.map fun c => UInt8.ofNat c.toNat
  decode_encode bytes := by
    have back (byte : UInt8) : UInt8.ofNat (Char.ofNat byte.toNat).toNat = byte := by
      have small : byte.toNat < 256 := byte.toNat_lt
      rw [Char.toNat_ofNat,if_pos (Or.inl (by omega)),UInt8.ofNat_toNat]
    simp [Function.comp_def,back]

def emptyContent : Content Unit := ⟨fun _ => none,(),fun _ _ known => by simp at known⟩

def emptyNode : Node Unit := ⟨⟨emptyContent,[],emptyContent⟩,⟨fun _ => none,[],[]⟩,0⟩

def trusteeTxn : NymTxn := ⟨none,⟨didA,some .trustee,some (some "keyA"),none,none⟩,1,some 7,by decide⟩

/-- A NYM in a batch that is committed, and a batch without one that is rejected. -/
theorem trustee_cached : ∃ node : Node Unit,
    Relation.ReflTransGen (Node.Step sampleRlp sampleBase58 fun _ => []) emptyNode node ∧
      node.cache.fetch sampleRlp didA false = .ok ⟨1,some 7,"","0",some "keyA"⟩ ∧
      node.cache.fetch sampleRlp didA true = .ok ⟨1,some 7,"","0",some "keyA"⟩ := by
  let filled := emptyContent.update trusteeTxn
  obtain ⟨value,packed,_⟩ := unpack_packed sampleRlp (trusteeTxn.record none) (by decide)
  let first : Node Unit := ⟨⟨emptyContent,[],filled⟩,emptyNode.cache.set didA value,1⟩
  have applied : emptyNode.applyNym sampleRlp trusteeTxn = .ok first := by
    have known : emptyNode.state.head.nyms trusteeTxn.op.dest = none := rfl
    rw [Node.applyNym,known,packed]
    rfl
  let second := (first.closeBatch fun _ => []).closeBatch fun _ => []
  let third := second.commitBatch sampleBase58 (sampleBase58.b58encode [])
  have ordered : Relation.ReflTransGen (Node.Step sampleRlp sampleBase58 fun _ => []) emptyNode second :=
    .tail (.tail (.single (.nym emptyNode first trusteeTxn applied)) (.close first)) (.close _)
  have settled : Relation.ReflTransGen (Node.Step sampleRlp sampleBase58 fun _ => []) emptyNode third :=
    ordered.tail (.commit second filled [filled] rfl)
  have run : Relation.ReflTransGen (Node.Step sampleRlp sampleBase58 fun _ => []) emptyNode
      third.rejectBatch := settled.tail (.reject third (List.cons_ne_nil filled []) rfl)
  obtain ⟨uncommitted,committed⟩ := cache_mirrors_state sampleRlp sampleBase58 (fun _ => []) emptyNode
    third.rejectBatch ⟨rfl,rfl,rfl,rfl,rfl⟩ run didA
  exact ⟨third.rejectBatch,run,uncommitted,committed⟩

end IndyNode.Nym

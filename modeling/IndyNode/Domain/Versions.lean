import IndyNode.Domain.Registry
import IndyNode.Foundation.TimedRoots

/-! Reads of past versions. A sequence number leads to the time of its transaction
and the time to the state after the last batch committed with it. -/
namespace IndyNode.Domain
open Authorize Nym

/-- A batch of the domain ledger, whose transactions all carry its time. -/
structure Batch (ι : Type) where
  time : Nat
  txns : List (DomainTxn ι)
  timed : 0 < time

def Batch.ordered {ι : Type} (batch : Batch ι) : List (Ordered ι) :=
  batch.txns.map fun txn => ⟨txn,batch.time,batch.timed⟩

/-- The committed ledger, the roots of `ts_store` and the time of every transaction.
Those of the genesis have none. A root is represented by the ledger it belongs to. -/
structure Committed (ι : Type) where
  ledger : Ledger ι
  tsStore : Nat → Option (Ledger ι)
  times : List (Option Nat)

def Committed.genesis {ι : Type} (ledger : Ledger ι) : Committed ι :=
  ⟨ledger,fun _ => none,ledger.txnTypes.map fun _ => none⟩

section Commit
variable {ι : Type} [DecidableEq ι] [Revocation.PyStr ι] [PyHash ι] [LE ι] [DecidableLE ι]
  (setup : Setup)

def commitBatch (node : Committed ι) (batch : Batch ι) : Except Raised (Committed ι) := do
  let ledger ← batch.ordered.foldlM (applyTxn setup) node.ledger
  return ⟨ledger,Function.update node.tsStore batch.time (some ledger),
    node.times ++ batch.txns.map fun _ => some batch.time⟩

def commitBatches (node : Committed ι) (batches : List (Batch ι)) : Except Raised (Committed ι) :=
  batches.foldlM (commitBatch setup) node

end Commit

section Lookup
variable {ι α : Type} (node : Committed ι) (read : Ledger ι → Option α)

/-- `_timestamp_from_seq_no`. -/
def timestampFromSeqNo (seqNo : Nat) : Option Nat :=
  if seqNo = 0 then none else node.times[seqNo - 1]?.join

/-- The value at the root of a time, if there is one. -/
def readAt (timestamp : Nat) : Option α := (TimedRoots.equalOrPrev node.tsStore timestamp).bind read

/-- `get_equal_or_prev`: no root has a negative time. -/
def readAtTime (timestamp : Int) : Option α :=
  if timestamp < 0 then none else readAt node read timestamp.toNat

@[simp] theorem readAtTime_natural (timestamp : Nat) :
    readAtTime node read timestamp = readAt node read timestamp :=
  if_neg (Int.not_lt.mpr (Int.natCast_nonneg timestamp))

/-- `lookup_version`, for every integer that the message schema admits as a time. A number
or time of zero counts as not given, but both may not be there. -/
def lookupVersion (seqNo : Option Nat) (timestamp : Option Int) : Except Raised (Option α) :=
  if seqNo.isSome ∧ timestamp.isSome then .error .valueError
  else if seqNo.getD 0 ≠ 0 then
    match timestampFromSeqNo node (seqNo.getD 0) with
    | none => .ok none
    | some time => .ok (if time = 0 then none else readAtTime node read time)
  else if timestamp.getD 0 ≠ 0 then .ok (readAtTime node read (timestamp.getD 0))
  else .ok (read node.ledger)

private theorem lookupVersion_seqNo (seqNo time : Nat) (positive : seqNo ≠ 0) (timed : 0 < time)
    (known : node.times[seqNo - 1]? = some (some time)) (root : Ledger ι)
    (stored : node.tsStore time = some root) :
    lookupVersion node read (some seqNo) none = .ok (read root) := by
  have resolved : timestampFromSeqNo node seqNo = some time := by
    rw [timestampFromSeqNo,if_neg positive,known,Option.join_some]
  simp [lookupVersion,positive,resolved,timed.ne',readAt,
    TimedRoots.equalOrPrev_of_some node.tsStore time root stored]

def checkVersion (req : Request) (seqNo : Option Nat) (timestamp : Option Int) : Except Raised Unit :=
  raiseIf req (timestamp.getD 0 ≠ 0 ∧ seqNo.getD 0 ≠ 0)
    "seqNo and timestamp are mutually exclusive; only one should be specified"

end Lookup

/-- What GET_NYM returns. `data` is the record with the DID it was asked for. -/
structure NymReply where
  dest : Did
  data : Option (Did × NymRecord)
  seqNo : Option Nat
  txnTime : Option Nat
  timestamp : Option Int
deriving DecidableEq

/-- `make_result` with `last_seq_no` and `update_time` of the record. -/
def NymReply.of (did : Did) (found : Option NymRecord) : NymReply :=
  ⟨did,found.map fun record => (did,record),found.map (·.seqNo),found.bind (·.txnTime),none⟩

/-- `result.update(request.operation)`: a number in the request takes the place of the record's. -/
def NymReply.update (reply : NymReply) (seqNo : Option Nat) (timestamp : Option Int) : NymReply :=
  {reply with seqNo := seqNo.or reply.seqNo, timestamp := timestamp}

/-- `GetNymHandler.get_result`. -/
def getNymResult {ι : Type} (node : Committed ι) (req : Request) (did : Did)
    (seqNo : Option Nat) (timestamp : Option Int) : Except Raised NymReply := do
  checkVersion req seqNo timestamp
  let found ← lookupVersion node (fun ledger => ledger.nyms.nyms did) seqNo timestamp
  return (NymReply.of did found).update seqNo timestamp

section Runs
variable {ι : Type} [DecidableEq ι] [Revocation.PyStr ι] [PyHash ι] [LE ι] [DecidableLE ι]
  (setup : Setup)

private theorem Run.fold {start before after : Ledger ι} {history : List (Ordered ι)}
    (run : Run setup start history before) (txns : List (Ordered ι))
    (ok : txns.foldlM (applyTxn setup) before = .ok after) : Run setup start (history ++ txns) after := by
  induction txns generalizing history before with
  | nil =>
    obtain rfl := Except.ok.inj ok
    simpa using run
  | cons ordered rest ih =>
    rw [List.foldlM_cons] at ok
    obtain ⟨next,applied,ok⟩ := bind_success _ _ _ ok
    simpa using ih (.step history before next ordered run applied) ok

private theorem Run.last {start final : Ledger ι} {history : List (Ordered ι)} {ordered : Ordered ι}
    (run : Run setup start (history ++ [ordered]) final) :
    ∃ before, Run setup start history before ∧ applyTxn setup before ordered = .ok final := by
  generalize shape : history ++ [ordered] = whole at run
  cases run with
  | start => simp at shape
  | step earlier before _ last run applied =>
    obtain ⟨rfl,rfl⟩ := List.append_singleton_inj.mp shape
    exact ⟨before,run,applied⟩

private theorem Run.split {start final : Ledger ι} (earlier later : List (Ordered ι))
    (run : Run setup start (earlier ++ later) final) :
    ∃ middle, Run setup start earlier middle ∧ Run setup middle later final := by
  induction later using List.reverseRecOn generalizing final with
  | nil =>
    rw [List.append_nil] at run
    exact ⟨final,run,.start⟩
  | append_singleton later ordered ih =>
    rw [← List.append_assoc] at run
    obtain ⟨before,run,applied⟩ := run.last
    obtain ⟨middle,first,second⟩ := ih run
    exact ⟨middle,first,.step later before final ordered second applied⟩

/-- What a node holds after committing a history that began with a given ledger. -/
structure Consistent (start : Ledger ι) (history : List (Ordered ι)) (node : Committed ι) : Prop where
  run : Run setup start history node.ledger
  recorded : TimedRoots.Recorded (fun ordered : Ordered ι => ordered.time) (Run setup start) history
    node.tsStore
  times : node.times = (start.txnTypes.map fun _ => none) ++ history.map fun ordered => some ordered.time

theorem Consistent.genesis (start : Ledger ι) : Consistent setup start [] (.genesis start) :=
  ⟨.start,.nil _ _ _,by simp [Committed.genesis]⟩

private theorem Consistent.commitBatch {start : Ledger ι} {history : List (Ordered ι)} {node next : Committed ι}
    (consistent : Consistent setup start history node) (batch : Batch ι)
    (later : ∀ ordered ∈ history, ordered.time ≤ batch.time)
    (ok : commitBatch setup node batch = .ok next) :
    Consistent setup start (history ++ batch.ordered) next := by
  obtain ⟨ledger,applied,ok⟩ := bind_success _ _ _ ok
  obtain rfl := Except.ok.inj ok
  have run := consistent.run.fold setup batch.ordered applied
  have timed : ∀ ordered ∈ batch.ordered, ordered.time = batch.time := by
    intro ordered member
    obtain ⟨txn,_,rfl⟩ := List.mem_map.mp member
    rfl
  refine ⟨run,consistent.recorded.commit batch.time batch.ordered ledger timed later run,?_⟩
  simp [consistent.times,Batch.ordered,Function.comp_def]

theorem Consistent.commitBatches {start : Ledger ι} {history : List (Ordered ι)}
    {node final : Committed ι} (consistent : Consistent setup start history node) (batches : List (Batch ι))
    (later : ∀ ordered ∈ history, ∀ batch ∈ batches, ordered.time ≤ batch.time)
    (sorted : batches.Pairwise fun first second => first.time ≤ second.time)
    (ok : commitBatches setup node batches = .ok final) :
    Consistent setup start (history ++ batches.flatMap Batch.ordered) final := by
  induction batches generalizing history node with
  | nil =>
    obtain rfl := Except.ok.inj ok
    simpa using consistent
  | cons batch batches ih =>
    rw [Domain.commitBatches,List.foldlM_cons] at ok
    obtain ⟨next,committed,ok⟩ := bind_success _ _ _ ok
    obtain ⟨first,rest⟩ := List.pairwise_cons.mp sorted
    have kept := consistent.commitBatch setup batch
      (fun ordered member => later ordered member batch (by simp)) committed
    rw [List.flatMap_cons,← List.append_assoc]
    refine ih kept ?_ rest ok
    intro ordered member other inside
    rcases List.mem_append.mp member with old | new
    · exact later ordered old other (List.mem_cons_of_mem _ inside)
    · obtain ⟨txn,_,rfl⟩ := List.mem_map.mp new
      exact first other inside

omit [DecidableEq ι] [Revocation.PyStr ι] [PyHash ι] [LE ι] [DecidableLE ι] in
private theorem history_sorted (batches : List (Batch ι))
    (sorted : batches.Pairwise fun first second => first.time ≤ second.time) :
    (batches.flatMap Batch.ordered).Pairwise fun first second => first.time ≤ second.time := by
  induction sorted with
  | nil => simp
  | @cons batch batches first _ ih =>
    rw [List.flatMap_cons,List.pairwise_append]
    refine ⟨?_,ih,?_⟩
    · exact List.pairwise_map.mpr (List.pairwise_of_forall fun _ _ => le_refl batch.time)
    · intro ordered member other inside
      obtain ⟨txn,_,rfl⟩ := List.mem_map.mp member
      obtain ⟨later,listed,inside⟩ := List.mem_flatMap.mp inside
      obtain ⟨txn,_,rfl⟩ := List.mem_map.mp inside
      exact first later listed

/-- A NYM for the DID. -/
def DomainTxn.Targets (did : Did) (txn : DomainTxn ι) : Prop :=
  ∃ req op, txn = .nym req ∧ staticValidation setup.nym.loads req = .ok op ∧ op.dest = did

theorem Applied.nyms_untargeted {ledger next : Ledger ι} {time : Nat} {txn : DomainTxn ι}
    (applied : Applied setup ledger time txn next) (did : Did) (other : ¬txn.Targets setup did) :
    next.nyms.nyms did = ledger.nyms.nyms did := by
  cases applied with
  | nym req nyms applied =>
    obtain ⟨op,parsed,_,rfl⟩ := applyNym_accepted setup.nym ledger.nyms nyms _ applied
    exact update_other _ _ op _ _ did fun same => other ⟨req,op,rfl,parsed,same.symm⟩
  | _ => rfl

theorem Applied.nyms_targeted {ledger next : Ledger ι} {time : Nat} {txn : DomainTxn ι}
    (applied : Applied setup ledger time txn next) (did : Did) (target : txn.Targets setup did) :
    ∃ record, next.nyms.nyms did = some record ∧ record.seqNo = nextSeqNo ledger := by
  obtain ⟨req,op,rfl,parsed,rfl⟩ := target
  cases applied with
  | nym _ nyms applied =>
    obtain ⟨again,same,_,rfl⟩ := applyNym_accepted setup.nym ledger.nyms nyms _ applied
    obtain rfl := Except.ok.inj (parsed.symm.trans same)
    refine ⟨_,update_dest ..,?_⟩
    cases ledger.nyms.nyms op.dest <;> rfl

private theorem Run.nyms {start final : Ledger ι} {history : List (Ordered ι)}
    (run : Run setup start history final) (did : Did) :
    (∀ ordered ∈ history, ¬ordered.txn.Targets setup did) ∧ final.nyms.nyms did = start.nyms.nyms did ∨
    (∃ ordered ∈ history, ordered.txn.Targets setup did) ∧
      ∃ record, final.nyms.nyms did = some record ∧ start.txnTypes.length < record.seqNo := by
  induction run with
  | start => exact .inl ⟨by simp,rfl⟩
  | step history before after ordered earlier ok ih =>
    have applied := applyTxn_applied setup before after ordered ok
    by_cases target : ordered.txn.Targets setup did
    · obtain ⟨record,stored,place⟩ := applied.nyms_targeted setup did target
      refine .inr ⟨⟨ordered,by simp,target⟩,record,stored,?_⟩
      rw [place,nextSeqNo,earlier.length]
      omega
    · have kept := applied.nyms_untargeted setup did target
      rcases ih with ⟨none,same⟩ | ⟨⟨other,member,targets⟩,record,stored,place⟩
      · refine .inl ⟨?_,kept.trans same⟩
        intro other member
        rcases List.mem_append.mp member with old | new
        · exact none other old
        · rwa [List.mem_singleton.mp new]
      · exact .inr ⟨⟨other,List.mem_append_left _ member,targets⟩,record,kept.trans stored,place⟩

/-- A NYM leaves a record with its own number. A request for that number is answered with the
number in any case, and with this record exactly when no later NYM for the DID has the same time. -/
theorem getNym_seqNo_iff (start : Ledger ι) (batches : List (Batch ι)) (node : Committed ι)
    (sorted : batches.Pairwise fun first second => first.time ≤ second.time)
    (committed : commitBatches setup (.genesis start) batches = .ok node)
    (earlier later : List (Ordered ι)) (ordered : Ordered ι)
    (history : batches.flatMap Batch.ordered = earlier ++ ordered :: later) (did : Did)
    (target : ordered.txn.Targets setup did) :
    ∃ after record, Run setup start (earlier ++ [ordered]) after ∧
      after.nyms.nyms did = some record ∧ record.seqNo = start.txnTypes.length + earlier.length + 1 ∧
      ∀ req, ∃ reply, getNymResult node req did (some record.seqNo) none = .ok reply ∧
        reply.seqNo = some record.seqNo ∧
        (reply.data = some (did,record) ↔
          ∀ other ∈ later, other.time = ordered.time → ¬other.txn.Targets setup did) := by
  have consistent := (Consistent.genesis setup start).commitBatches setup batches (by simp) sorted committed
  rw [List.nil_append,history] at consistent
  obtain ⟨same,rest,root,rfl,stored,reached,equal,above⟩ :=
    consistent.recorded.after (history ▸ history_sorted batches sorted)
  rw [List.append_cons] at reached
  obtain ⟨after,first,second⟩ := reached.split setup (earlier ++ [ordered]) same
  obtain ⟨before,run,applied⟩ := first.last
  obtain ⟨record,left,place⟩ := (applyTxn_applied setup before after ordered applied).nyms_targeted setup did
    target
  have length := run.length setup
  have seqNo : record.seqNo = start.txnTypes.length + earlier.length + 1 := by rw [place,nextSeqNo,length]
  have known : node.times[record.seqNo - 1]? = some (some ordered.time) := by
    simp [consistent.times,seqNo]
  refine ⟨after,record,first,left,seqNo,?_⟩
  intro req
  refine ⟨(NymReply.of did (root.nyms.nyms did)).update (some record.seqNo) none,?_,rfl,?_⟩
  · rw [getNymResult,lookupVersion_seqNo node _ record.seqNo ordered.time (by omega) ordered.timed known root
      stored]
    rfl
  change (root.nyms.nyms did).map (fun record => (did,record)) = some (did,record) ↔ _
  rcases second.nyms setup did with ⟨none,kept⟩ | ⟨⟨other,member,targets⟩,last,found,behind⟩
  · rw [kept,left]
    refine iff_of_true rfl ?_
    intro other member sameTime
    rcases List.mem_append.mp member with inside | beyond
    · exact none other inside
    · exact absurd sameTime (above other beyond).ne'
  · refine iff_of_false ?_ ?_
    · -- the record of a later transaction has a greater number
      intro equalData
      rw [found] at equalData
      have overtaken : last = record := congrArg Prod.snd (Option.some.inj equalData)
      have total := first.length setup
      rw [List.length_append,List.length_singleton] at total
      rw [overtaken] at behind
      omega
    · intro unhidden
      exact unhidden other (List.mem_append_left _ member) (equal other member) targets

end Runs

def rotation (key : String) : DomainTxn Nat :=
  .nym ⟨signedByOwner,nymType,some ownerDid.val,none,some (some key),none,none⟩

def rotated (key : String) : NymOperation := ⟨ownerDid,none,some (some key),none,none⟩

def Ledger.rotate (ledger : Ledger Nat) (key : String) (time : Nat) : Ledger Nat :=
  {ledger with nyms := ledger.nyms.update (some ownerDid) (rotated key) (nextSeqNo ledger) (some time),
               txnTypes := ledger.txnTypes ++ [nymType]}

private theorem rotation_applied (ledger : Ledger Nat) (old key : String) (time : Nat) (timed : 0 < time)
    (parsed : staticValidation plainSetup.nym.loads
      ⟨signedByOwner,nymType,some ownerDid.val,none,some (some key),none,none⟩ = .ok (rotated key))
    (known : additionalDynamicValidation plainSetup.nym ledger.nyms.cache signedByOwner (rotated key) = (do
      plainSetup.validate ledger signedByOwner (.edit nymType "verkey" old key true)
      .ok ()))
    (matched : isAcceptedActionId keyRotation.actionId (AuthAction.edit nymType "verkey" old key true).actionId = .ok true)
    (held : ownerConstraint.eval (leafHolds ledger.nyms.cache signedByOwner
      (.edit nymType "verkey" old key true)) = true) :
    applyTxn plainSetup ledger ⟨rotation key,time,timed⟩ = .ok (ledger.rotate key time) := by
  have edited : plainSetup.validate ledger signedByOwner (.edit nymType "verkey" old key true) = .ok () := by
    rw [Setup.validate,validate_iff]
    refine ⟨ownerConstraint,?_,held⟩
    exact getAuthConstraint_accepting .configLedger (fun _ => "") (keyRotation,ownerConstraint)
      (List.mem_of_getElem? (i := 5) rfl) _ matched
  have applied : applyNym plainSetup.nym ledger.nyms
      ⟨⟨signedByOwner,nymType,some ownerDid.val,none,some (some key),none,none⟩,nextSeqNo ledger,some time⟩ =
      .ok (ledger.nyms.update (some ownerDid) (rotated key) (nextSeqNo ledger) (some time)) := by
    rw [applyNym,parsed,ok_bind,known,edited]
    rfl
  simp only [applyTxn,rotation,applied,ok_bind]
  rfl

private theorem first_rotation : applyTxn plainSetup (ownerLedger .trustee) ⟨rotation "key2",10,by decide⟩ =
    .ok ((ownerLedger .trustee).rotate "key2" 10) :=
  rotation_applied _ "key" "key2" 10 _ (by decide) rfl (by decide) (by decide)

private theorem second_rotation (time : Nat) (timed : 0 < time) :
    applyTxn plainSetup ((ownerLedger .trustee).rotate "key2" 10) ⟨rotation "key3",time,timed⟩ =
      .ok (((ownerLedger .trustee).rotate "key2" 10).rotate "key3" time) :=
  rotation_applied _ "key2" "key3" time _ (by decide) rfl (by decide) (by decide)

theorem ten_pos : 0 < 10 := Nat.succ_pos 9

/-- Two rotations of a key in batches of their own. -/
def rotations (time : Nat) (timed : 0 < time) : List (Batch Nat) :=
  [⟨10,[rotation "key2"],ten_pos⟩,⟨time,[rotation "key3"],timed⟩]

def afterRotations (time : Nat) : Committed Nat :=
  let first := (ownerLedger .trustee).rotate "key2" 10
  let second := first.rotate "key3" time
  ⟨second,Function.update (Function.update (fun _ => none) 10 (some first)) time (some second),
    [none,some 10,some time]⟩

private theorem rotations_committed (time : Nat) (timed : 0 < time) :
    commitBatches plainSetup (.genesis (ownerLedger .trustee)) (rotations time timed) =
      .ok (afterRotations time) := by
  simp only [commitBatches,rotations,List.foldlM_cons,List.foldlM_nil,commitBatch,Batch.ordered,List.map_cons,
    List.map_nil,Committed.genesis,first_rotation,ok_bind,pure_bind,second_rotation]
  rfl

private theorem rotations_sorted (time : Nat) (timed : 0 < time) (later : 10 ≤ time) :
    (rotations time timed).Pairwise fun first second => first.time ≤ second.time := by
  simpa [rotations] using later

private theorem rotation_targets (key : String) (parsed : staticValidation plainSetup.nym.loads
    ⟨signedByOwner,nymType,some ownerDid.val,none,some (some key),none,none⟩ = .ok (rotated key)) :
    (rotation key).Targets plainSetup ownerDid := ⟨_,rotated key,rfl,parsed,rfl⟩

theorem rotations_apart_read : ∃ record, record.verkey = some "key2" ∧ ∀ req, ∃ reply,
    getNymResult (afterRotations 20) req ownerDid (some 2) none = .ok reply ∧
      reply.data = some (ownerDid,record) := by
  obtain ⟨after,record,run,left,number,reads⟩ := getNym_seqNo_iff plainSetup (ownerLedger .trustee)
    (rotations 20 (by decide)) (afterRotations 20) (rotations_sorted 20 _ (by decide)) (rotations_committed 20 _) []
    [⟨rotation "key3",20,by decide⟩] ⟨rotation "key2",10,by decide⟩ rfl ownerDid (rotation_targets _ (by decide))
  have reached : after = (ownerLedger .trustee).rotate "key2" 10 := by
    obtain ⟨before,first,applied⟩ := run.last
    have same : before = ownerLedger .trustee := by
      generalize empty : ([] : List (Ordered Nat)) = history at first
      cases first with
      | start => rfl
      | step => simp at empty
    rw [same,first_rotation] at applied
    exact (Except.ok.inj applied).symm
  have number : record.seqNo = 2 := number
  rw [reached] at left
  refine ⟨record,?_,fun req => ?_⟩
  · rw [← Option.some.inj left]
    rfl
  · obtain ⟨reply,answer,_,shown⟩ := reads req
    rw [number] at answer
    exact ⟨reply,answer,shown.mpr (by simp)⟩

/-- The second rotation has the time of the first and hides the version it left: the reply
repeats the number 2 and carries the record with the number 3. -/
theorem rotations_together_read :
    commitBatches plainSetup (.genesis (ownerLedger .trustee)) (rotations 10 (by decide)) =
      .ok (afterRotations 10) ∧
    (((ownerLedger .trustee).rotate "key2" 10).nyms.nyms ownerDid).map (fun record => (record.verkey,record.seqNo)) =
      some (some "key2",2) ∧
    ∃ reply, getNymResult (afterRotations 10) signedByOwner ownerDid (some 2) none = .ok reply ∧
      reply.seqNo = some 2 ∧
      reply.data.map (fun data => (data.2.verkey,data.2.seqNo)) = some (some "key3",3) :=
  ⟨rotations_committed 10 _,rfl,_,rfl,rfl,rfl⟩

end IndyNode.Domain

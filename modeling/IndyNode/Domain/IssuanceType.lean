import IndyNode.Domain.Registry
import IndyNode.Revocation.DeltaReply

/-! The issuance type of a registry. It decides what the stored index lists mean,
and it is read from the definition each time, which its owner may rewrite. -/
namespace IndyNode.Domain
open Authorize Nym Semantics.Registry

section Types
variable {ι : Type}

/-- The strategy entries of a registry are validated, stored and differenced with. -/
def issuanceOf (ledger : Ledger ι) (id : String) : Option Revocation.Kind :=
  (ledger.state id).bind fun leaf => leaf.value.strategy.toOption

/-- The object a transaction puts where a registry can be defined. -/
def DomainTxn.redefines : DomainTxn ι → Option (String × Value ι)
  | .claimDef req op => some (claimDefPath req.identifier op,.claimDef op.publicKeys)
  | .revocDef req op => some (revocDefPath req.identifier op,
      .registry (.definition ⟨op.revocDefType,op.issuanceType.text⟩))
  | _ => none

/-- The transaction gives a registry that has an entry another issuance type. -/
def Retypes (ledger : Ledger ι) (txn : DomainTxn ι) : Prop :=
  ∃ path value, txn.redefines = some (path,value) ∧
    ledger.state (Revocation.revocEntryPath path) ≠ none ∧
    value.strategy.toOption ≠ issuanceOf ledger path

/-- A path where a claim definition or a registry definition can stand. -/
def Definable (path : String) : Prop :=
  ∃ first, Plain first ∧ ∃ marker ∈ ["3","4"], Under first marker path

theorem strategy_definable (path : String) (value : Value ι) (kind : Revocation.Kind)
    (ok : value.strategy = .ok kind) (placed : WellPlaced path value) : Definable path := by
  cases value with
  | attrib hashedValue => simp [Value.strategy,Value.issuanceType] at ok
  | schema attrNames => simp [Value.strategy,Value.issuanceType] at ok
  | claimDef publicKeys =>
    obtain ⟨first,plain,under⟩ := placed
    exact ⟨first,plain,"3",by simp,under⟩
  | registry record =>
    cases record with
    | definition revocDef =>
      obtain ⟨first,plain,under⟩ := placed
      exact ⟨first,plain,"4",by simp,under⟩
    | entry entry => simp [Value.strategy,Value.issuanceType,Revocation.issuanceType] at ok
    | accum accum => simp [Value.strategy,Value.issuanceType,Revocation.issuanceType] at ok

private theorem issuanceOf_some (ledger : Ledger ι) (id : String) (kind : Revocation.Kind) :
    issuanceOf ledger id = some kind ↔
      ∃ leaf, ledger.state id = some leaf ∧ leaf.value.strategy = .ok kind := by
  rw [issuanceOf,Option.bind_eq_some_iff]
  refine exists_congr fun leaf => and_congr_right fun _ => ?_
  cases leaf.value.strategy <;> simp [Except.toOption]

private theorem issuanceOf_undefinable (ledger : Ledger ι) (typed : WellTyped ledger) (id : String)
    (undefinable : ¬Definable id) : issuanceOf ledger id = none := by
  cases found : issuanceOf ledger id with
  | none => rfl
  | some kind =>
    obtain ⟨leaf,stored,ok⟩ := (issuanceOf_some ledger id kind).mp found
    exact absurd (strategy_definable id leaf.value kind ok (typed id leaf stored)) undefinable

end Types

section Paths

private theorem under_undefinable (first second path : String) (plain : Plain first)
    (clean : ':' ∉ second.toList) (other : second ∉ ["3","4"]) (under : Under first second path) :
    ¬Definable path := by
  intro definable
  obtain ⟨author,authorPlain,marker,member,below⟩ := definable
  have markerClean : ':' ∉ marker.toList := by
    simp only [List.mem_cons,List.not_mem_nil,or_false] at member
    rcases member with rfl | rfl <;> decide
  obtain ⟨_,same⟩ := under_inj first second author marker path plain.clean authorPlain.clean clean
    markerClean under below
  exact other (same ▸ member)

private theorem registry_undefinable (id : String) :
    ¬Definable (Revocation.revocEntryPath id) ∧ ¬Definable (Revocation.revocAccumPath id) := by
  constructor
  · intro definable
    obtain ⟨first,plain,marker,_,under⟩ := definable
    exact (under.not_registry plain id).1 rfl
  · intro definable
    obtain ⟨first,plain,marker,_,under⟩ := definable
    exact (under.not_registry plain id).2 rfl

theorem paths_redefined {ι : Type} (setup : Setup) (txn : DomainTxn ι) (identified : txn.Identified)
    (path : String) (written : path ∈ txn.paths setup) :
    (∃ value, txn.redefines = some (path,value)) ∨ ¬Definable path := by
  have author := authorText_plain txn.request.identifier identified.author
  cases txn with
  | nym req => simp [DomainTxn.paths] at written
  | attrib req op =>
    simp only [DomainTxn.paths] at written
    split at written
    · obtain rfl := List.mem_singleton.mp written
      exact .inr (under_undefinable _ "1" _ (identified.dest req op rfl).plain (by decide) (by decide)
        (attrPath_under _ _))
    · simp at written
  | schema req op =>
    obtain rfl := List.mem_singleton.mp written
    exact .inr (under_undefinable _ "2" _ author (by decide) (by decide) (schemaPath_under _ op))
  | claimDef req op =>
    obtain rfl := List.mem_singleton.mp written
    exact .inl ⟨_,rfl⟩
  | revocDef req op =>
    obtain rfl := List.mem_singleton.mp written
    exact .inl ⟨_,rfl⟩
  | revocEntry req op =>
    simp only [DomainTxn.paths,List.mem_cons,List.not_mem_nil,or_false] at written
    have undefinable := registry_undefinable op.revocRegDefId
    rcases written with rfl | rfl
    · exact .inr undefinable.1
    · exact .inr undefinable.2

end Paths

section Steps
variable {ι : Type} [DecidableEq ι] [Revocation.PyStr ι] [PyHash ι] [LE ι] [DecidableLE ι]
  (setup : Setup) {ledger next : Ledger ι} {time : Nat} {txn : DomainTxn ι}

theorem Applied.stores (applied : Applied setup ledger time txn next) (path : String) (value : Value ι)
    (redefines : txn.redefines = some (path,value)) :
    ∃ leaf, next.state path = some leaf ∧ leaf.value = value := by
  cases applied with
  | claimDef req op allowed =>
    obtain ⟨rfl,rfl⟩ := Prod.mk.inj (Option.some.inj redefines)
    exact ⟨_,claimDefUpdateState_self ledger req op _ time,rfl⟩
  | revocDef req op state shaped allowed written =>
    obtain ⟨rfl,rfl⟩ := Prod.mk.inj (Option.some.inj redefines)
    rw [(revocDefUpdateState_eq ledger req op _ _ state written).2]
    exact ⟨_,Function.update_self ..,rfl⟩
  | _ => simp [DomainTxn.redefines] at redefines

private theorem Applied.redefined (applied : Applied setup ledger time txn next) (path : String) (value : Value ι)
    (redefines : txn.redefines = some (path,value)) : issuanceOf next path = value.strategy.toOption := by
  obtain ⟨leaf,stored,rfl⟩ := applied.stores setup path value redefines
  simp [issuanceOf,stored]

private theorem Applied.untouched (applied : Applied setup ledger time txn next) (identified : txn.Identified)
    (typed : WellTyped ledger) (id : String) (kept : ∀ value, txn.redefines ≠ some (id,value)) :
    issuanceOf next id = issuanceOf ledger id := by
  by_cases written : id ∈ txn.paths setup
  · rcases paths_redefined setup txn identified id written with ⟨value,redefines⟩ | undefinable
    · exact absurd redefines (kept value)
    · rw [issuanceOf_undefinable ledger typed id undefinable,
        issuanceOf_undefinable next (applied.wellTyped setup identified typed) id undefinable]
  · rw [issuanceOf,issuanceOf,applied.other setup id written]

/-- One transaction keeps the issuance type of every registry with entries exactly
when it does not rewrite one. -/
theorem Applied.issuance_kept_iff (applied : Applied setup ledger time txn next)
    (identified : txn.Identified) (typed : WellTyped ledger) :
    (∀ id, ledger.state (Revocation.revocEntryPath id) ≠ none →
      issuanceOf next id = issuanceOf ledger id) ↔ ¬Retypes ledger txn := by
  constructor
  · intro kept retypes
    obtain ⟨path,value,redefines,hasEntry,differ⟩ := retypes
    rw [← applied.redefined setup path value redefines] at differ
    exact differ (kept path hasEntry)
  · intro keeps id hasEntry
    by_cases redefined : ∃ value, txn.redefines = some (id,value)
    · obtain ⟨value,redefines⟩ := redefined
      rw [applied.redefined setup id value redefines]
      by_contra differ
      exact keeps ⟨id,value,redefines,hasEntry,differ⟩
    · exact applied.untouched setup identified typed id (not_exists.mp redefined)

private theorem Applied.entry_persists (applied : Applied setup ledger time txn next) (identified : txn.Identified)
    (path : String) (present : ledger.state path ≠ none) : next.state path ≠ none := by
  by_cases written : path ∈ txn.paths setup
  · obtain ⟨leaf,stored,_⟩ := applied.wellPlaced setup identified path written
    simp [stored]
  · rwa [applied.other setup path written]

end Steps

section Tracking
variable {ι : Type} [DecidableEq ι]

/-- The stored entry lists the indices by their last mention, read under the issuance
type in force. -/
def Tracked (id : String) (entries : List (Revocation.Txn ι)) (ledger : Ledger ι) : Prop :=
  entries ≠ [] → ∃ kind entry seqNo time, issuanceOf ledger id = some kind ∧
    ledger.state (Revocation.revocEntryPath id) = some ⟨.registry (.entry entry),seqNo,time⟩ ∧
    Revocation.Stored kind entries entry

private theorem Tracked.kept {id : String} {entries : List (Revocation.Txn ι)} {before after : Ledger ι}
    (tracked : Tracked id entries before)
    (entry : after.state (Revocation.revocEntryPath id) = before.state (Revocation.revocEntryPath id))
    (issuance : before.state (Revocation.revocEntryPath id) ≠ none →
      issuanceOf after id = issuanceOf before id) : Tracked id entries after := by
  intro nonempty
  obtain ⟨kind,current,seqNo,time,issued,present,stored⟩ := tracked nonempty
  exact ⟨kind,current,seqNo,time,(issuance (by simp [present])).trans issued,entry.trans present,stored⟩

variable [Revocation.PyStr ι] [PyHash ι] [LE ι] [DecidableLE ι]
  (setup : Setup)

private theorem Tracked.stored {id : String} {entries : List (Revocation.Txn ι)} {ledger : Ledger ι}
    (tracked : Tracked id entries ledger) (records : Records id entries ledger) (req : Request)
    (op : RevocEntryOperation ι) (mine : op.revocRegDefId = id) (time : Nat) (timed : 0 < time)
    (current : Option (Revocation.EntryRecord ι)) (kind : Revocation.Kind)
    (value : Revocation.EntryValue ι)
    (accepted : EntryAccepted setup ledger req op time current kind value) :
    Revocation.Stored kind
      (entries ++ [⟨entryRequest req op,nextSeqNo ledger,time,Nat.succ_pos _,timed⟩])
      ⟨op.revocRegDefId,op.revocDefType,value,nextSeqNo ledger,time⟩ := by
  have disjoint := ((Revocation.validate_ok kind current (entryRequest req op)).mp accepted.checked).1
  have found := accepted.entry
  have written := accepted.written
  rcases records.current current (mine ▸ found) with ⟨rfl,rfl⟩ | ⟨last,entry,latest,rfl,_⟩
  · obtain rfl := Except.ok.inj written
    exact Revocation.Stored.first kind
      ⟨entryRequest req op,nextSeqNo ledger,time,Nat.succ_pos _,timed⟩ disjoint
  · have nonempty : entries ≠ [] := by
      intro empty
      simp [empty] at latest
    obtain ⟨kind',entry',seqNo,time',issued,present,stored⟩ := tracked nonempty
    have issued' := (issuanceOf_some ledger op.revocRegDefId kind).mpr accepted.defined
    rw [mine,issued] at issued'
    obtain rfl := Option.some.inj issued'
    rw [mine,currentEntry,present] at found
    obtain rfl := Option.some.inj (Except.ok.inj found)
    obtain ⟨indices,result,rest⟩ := bind_success _ _ _ written
    obtain ⟨distinct,members⟩ :=
      Revocation.resultIndices_spec kind' (setup.sortLegacy time) entry' op.value indices result
    obtain rfl := Except.ok.inj rest
    exact stored.next ⟨entryRequest req op,nextSeqNo ledger,time,Nat.succ_pos _,timed⟩ disjoint indices
      distinct members

private theorem Tracked.step {id : String} {index : Nat} {history : List (Ordered ι)} {before after : Ledger ι}
    (tracked : Tracked id (entriesOf id index history) before)
    (records : Records id (entriesOf id index history) before) (typed : WellTyped before)
    (ordered : Ordered ι) (identified : ordered.txn.Identified)
    (length : before.txnTypes.length = index + history.length)
    (applied : Applied setup before ordered.time ordered.txn after)
    (keeps : ¬Retypes before ordered.txn) : Tracked id (entriesOf id index (history ++ [ordered])) after := by
  by_cases foreign : Foreign id ordered.txn
  · have unwritten := registry_unwritten setup ordered.txn identified id foreign
    rw [entriesOf_foreign id _ history ordered foreign]
    exact tracked.kept (applied.other setup _ unwritten.1)
      ((applied.issuance_kept_iff setup identified typed).mpr keeps id)
  · obtain ⟨txn,time,timed⟩ := ordered
    simp only [Foreign,not_forall,ne_eq,not_not] at foreign
    obtain ⟨req,op,rfl,rfl⟩ := foreign
    -- An entry writes no definition, so it is stored under the type it was checked with.
    have issuance := applied.untouched setup identified typed op.revocRegDefId (by simp [DomainTxn.redefines])
    cases applied with
    | revocEntry _ _ current kind value accepted =>
      rw [entriesOf_entry _ _ history req op time timed rfl,← length]
      intro _
      refine ⟨kind,_,_,_,issuance.trans ?_,setToState_entry before op value _ time,
        tracked.stored setup records req op rfl time timed current kind value accepted⟩
      exact (issuanceOf_some before op.revocRegDefId kind).mpr accepted.defined

end Tracking

section Runs
variable {ι : Type} [DecidableEq ι] [Revocation.PyStr ι] [PyHash ι] [LE ι] [DecidableLE ι]
  (setup : Setup)

/-- A run that never gives a registry with entries another issuance type. -/
inductive FaithfulRun (start : Ledger ι) : List (Ordered ι) → Ledger ι → Prop where
  | start : FaithfulRun start [] start
  | step (history : List (Ordered ι)) (before after : Ledger ι) (ordered : Ordered ι)
      (earlier : FaithfulRun start history before) (applied : applyTxn setup before ordered = .ok after)
      (keeps : ¬Retypes before ordered.txn) : FaithfulRun start (history ++ [ordered]) after

variable {start middle final : Ledger ι} {first second history : List (Ordered ι)}

private theorem FaithfulRun.run (faithful : FaithfulRun setup start history final) :
    Run setup start history final := by
  induction faithful with
  | start => exact .start
  | step history before after ordered earlier applied keeps ih =>
    exact .step history before after ordered ih applied

private theorem FaithfulRun.trans (head : FaithfulRun setup start first middle)
    (tail : FaithfulRun setup middle second final) : FaithfulRun setup start (first ++ second) final := by
  induction tail with
  | start => rwa [List.append_nil]
  | step history before after ordered earlier applied keeps ih =>
    rw [← List.append_assoc]
    exact .step _ before after ordered ih applied keeps

/-- The same for faithful runs, whose ledgers are all well typed. -/
theorem FaithfulRun.invariant (holds : List (Ordered ι) → Ledger ι → Prop) (initial : holds [] start)
    (step : ∀ history before after ordered, Run setup start history before → WellTyped before →
      holds history before → ordered.txn.Identified →
      Applied setup before ordered.time ordered.txn after → ¬Retypes before ordered.txn →
      holds (history ++ [ordered]) after)
    (faithful : FaithfulRun setup start history final)
    (identified : ∀ ordered ∈ history, ordered.txn.Identified) (typed : WellTyped start) :
    holds history final := by
  induction faithful with
  | start => exact initial
  | step history before after ordered earlier applied keeps ih =>
    have earlierIdentified := fun other member => identified other (List.mem_append_left _ member)
    have run := earlier.run setup
    exact step history before after ordered run (run.wellTyped setup earlierIdentified typed)
      (ih earlierIdentified) (identified ordered (by simp))
      (applyTxn_applied setup before after ordered applied) keeps

private theorem FaithfulRun.issuance_kept (faithful : FaithfulRun setup start history final)
    (identified : ∀ ordered ∈ history, ordered.txn.Identified) (typed : WellTyped start) (id : String)
    (hasEntry : start.state (Revocation.revocEntryPath id) ≠ none) :
    final.state (Revocation.revocEntryPath id) ≠ none ∧ issuanceOf final id = issuanceOf start id := by
  refine faithful.invariant setup (fun _ ledger => ledger.state (Revocation.revocEntryPath id) ≠ none ∧
    issuanceOf ledger id = issuanceOf start id) ⟨hasEntry,rfl⟩ ?_ identified typed
  intro history before after ordered _ typedBefore kept now applied keeps
  obtain ⟨stillEntry,same⟩ := kept
  exact ⟨applied.entry_persists setup now _ stillEntry,
    ((applied.issuance_kept_iff setup now typedBefore).mpr keeps id stillEntry).trans same⟩

private theorem FaithfulRun.tracked (faithful : FaithfulRun setup start history final)
    (identified : ∀ ordered ∈ history, ordered.txn.Identified)
    (empty : ∀ path, start.state path = none) (id : String) :
    Records id (entriesOf id start.txnTypes.length history) final ∧
      Tracked id (entriesOf id start.txnTypes.length history) final := by
  refine faithful.invariant setup (fun history ledger =>
    Records id (entriesOf id start.txnTypes.length history) ledger ∧
      Tracked id (entriesOf id start.txnTypes.length history) ledger)
    ⟨.empty id start empty,fun nonempty => absurd rfl nonempty⟩ ?_ identified (.empty start empty)
  intro history before after ordered earlier typed both now applied keeps
  have length := earlier.length setup
  exact ⟨both.1.step setup ordered now length applied,
    both.2.step setup both.1 typed ordered now length applied keeps⟩

end Runs

section Replies
variable {ι : Type}

/-- The records of registries, as the reader of deltas finds them. -/
def registryState (state : State ι) : Revocation.DomainState ι := fun path =>
  (state path).bind fun leaf =>
    match leaf.value with
    | .registry record => some ⟨record,leaf.seqNo,leaf.updateTime⟩
    | _ => none

private theorem registryState_record (state : State ι) (path : String) (record : Revocation.Record ι)
    (seqNo time : Nat) (stored : state path = some ⟨.registry record,seqNo,time⟩) :
    registryState state path = some ⟨record,seqNo,time⟩ := by
  simp [registryState,stored]

private theorem registryState_none (state : State ι) (path : String) (absent : state path = none) :
    registryState state path = none := by
  simp [registryState,absent]

/-- The request reads the root of `target` at `to` and finds the records of `source`
at `from`; without `from` there are none. -/
structure Asks (batches : List (Revocation.Batch ι)) (req : Revocation.DeltaRequest)
    (source target : Ledger ι) : Prop where
  target : Revocation.getEqualOrPrev batches req.target = some (registryState target.state)
  source : ∀ path ∈ [Revocation.revocEntryPath req.revocRegDefId,
      Revocation.revocAccumPath req.revocRegDefId],
    Revocation.recordFrom batches req path = (registryState source.state path).map (·.record)

private theorem definition_kind (revocDef : Revocation.RevocRegDef) (kind : Revocation.Kind)
    (ok : (Value.registry (.definition revocDef) : Value ι).strategy = .ok kind) :
    Revocation.deltaStrategy (.definition revocDef : Revocation.Record ι) = .ok kind := by
  simp only [Value.strategy,Value.issuanceType,Revocation.issuanceType,Revocation.deltaStrategy,ok_bind,
    pure_bind] at ok ⊢
  cases known : Revocation.getRevocationStrategy revocDef.issuanceType with
  | none =>
    rw [known] at ok
    simp [throw_eq] at ok
  | some found =>
    rw [known] at ok
    exact ok

variable [DecidableEq ι]

private theorem Records.source {id : String} {entries : List (Revocation.Txn ι)} {ledger : Ledger ι}
    (records : Records id entries ledger) (tracked : Tracked id entries ledger) :
    ∃ source : Option (Revocation.EntryRecord ι),
      (registryState ledger.state (Revocation.revocEntryPath id)).map (·.record) = source.map .entry ∧
      ((registryState ledger.state (Revocation.revocAccumPath id)).map (·.record)).isSome =
        source.isSome ∧
      (source = none ∧ entries = [] ∨ ∃ kind entry, source = some entry ∧
        issuanceOf ledger id = some kind ∧ ledger.state (Revocation.revocEntryPath id) ≠ none ∧
        Revocation.Stored kind entries entry) := by
  rcases List.eq_nil_or_concat entries with empty | ⟨earlier,last,shape⟩
  · obtain ⟨noEntry,noAccum⟩ := records.absent empty
    refine ⟨none,?_,?_,.inl ⟨rfl,empty⟩⟩
    · rw [registryState_none _ _ noEntry]
      rfl
    · rw [registryState_none _ _ noAccum]
      rfl
  · have latest : entries.getLast? = some last := by simp [shape]
    obtain ⟨value,_,_,accum⟩ := records.present last latest
    obtain ⟨kind,entry,seqNo,time,issued,present,stored⟩ := tracked (by simp [shape])
    refine ⟨some entry,?_,?_,.inr ⟨kind,entry,rfl,issued,by simp [present],stored⟩⟩
    · rw [registryState_record _ _ _ _ _ present]
      rfl
    · rw [registryState_record _ _ _ _ _ accum]
      rfl

variable [Revocation.PyStr ι] [PyHash ι] [LE ι] [DecidableLE ι]
  (setup : Setup) {start middle final : Ledger ι} {first second : List (Ordered ι)}

private theorem FaithfulRun.reply (empty : ∀ path, start.state path = none)
    (head : FaithfulRun setup start first middle) (tail : FaithfulRun setup middle second final)
    (identified : ∀ ordered ∈ first ++ second, ordered.txn.Identified)
    (batches : List (Revocation.Batch ι)) (req : Revocation.DeltaRequest)
    (asks : Asks batches req middle final) (revocDef : Revocation.RevocRegDef) (seqNo time : Nat)
    (defined : final.state req.revocRegDefId = some ⟨.registry (.definition revocDef),seqNo,time⟩)
    (nonempty : entriesOf req.revocRegDefId start.txnTypes.length (first ++ second) ≠ []) :
    ∃ kind result change, issuanceOf final req.revocRegDefId = some kind ∧
      Revocation.getResult batches req = .ok result ∧ result.change? = some change ∧
      change.apply (status kind.initial
          ((entriesOf req.revocRegDefId start.txnTypes.length first).map Revocation.Txn.change)) =
        status kind.initial
          ((entriesOf req.revocRegDefId start.txnTypes.length (first ++ second)).map
            Revocation.Txn.change) := by
  have firstIdentified := fun ordered member => identified ordered (List.mem_append_left _ member)
  have secondIdentified := fun ordered member => identified ordered (List.mem_append_right _ member)
  have before := head.tracked setup firstIdentified empty req.revocRegDefId
  have after := (head.trans setup tail).tracked setup identified empty req.revocRegDefId
  have typed := (head.run setup).wellTyped setup firstIdentified (.empty start empty)
  obtain ⟨source,entryFrom,accumFrom,origin⟩ := before.1.source before.2
  -- The records at `to`.
  obtain ⟨last,latest⟩ := Option.isSome_iff_exists.mp (List.getLast?_isSome.mpr nonempty)
  obtain ⟨_,_,_,accumTo⟩ := after.1.present last latest
  obtain ⟨kind,entry,entrySeqNo,entryTime,issued,entryTo,stored⟩ := after.2 nonempty
  have strategy : (Value.registry (.definition revocDef) : Value ι).strategy = .ok kind := by
    obtain ⟨leaf,found,ok⟩ := (issuanceOf_some final req.revocRegDefId kind).mp issued
    obtain rfl := Option.some.inj (defined.symm.trans found)
    exact ok
  obtain ⟨result,computed,lists⟩ := Revocation.getResult_lists batches req _ entry _ _ _ _ kind source
    asks.target (registryState_record _ _ _ _ _ entryTo) (registryState_record _ _ _ _ _ accumTo)
    (registryState_record _ _ _ _ _ defined) (definition_kind revocDef kind strategy)
    ((asks.source _ (by simp)).trans entryFrom)
    ((congrArg Option.isSome (asks.source _ (by simp))).trans accumFrom)
  refine ⟨kind,result,_,issued,computed,lists,?_⟩
  rcases origin with ⟨rfl,none⟩ | ⟨kind',old,rfl,issued',present,oldStored⟩
  · rw [none]
    exact stored.whole
  · have kept := (tail.issuance_kept setup secondIdentified typed _ present).2
    obtain rfl := Option.some.inj (issued'.symm.trans (kept.symm.trans issued))
    exact oldStored.delta stored

/-- A transaction leaves the issuance type of every registry with entries alone
exactly when it does not rewrite one. In every run of such transactions the type of
a registry with entries never changes, and every reply between two of its ledgers
tells that an index left revoked is revoked. -/
theorem issuance_kept_unless_rewritten (start : Ledger ι) (empty : ∀ path, start.state path = none) :
    (∀ history before after ordered, Run setup start history before →
      (∀ other ∈ history ++ [ordered], other.txn.Identified) →
      applyTxn setup before ordered = .ok after →
      ((∀ id, before.state (Revocation.revocEntryPath id) ≠ none →
        issuanceOf after id = issuanceOf before id) ↔ ¬Retypes before ordered.txn)) ∧
    ∀ first second middle final, FaithfulRun setup start first middle →
      FaithfulRun setup middle second final →
      (∀ ordered ∈ first ++ second, ordered.txn.Identified) →
      (∀ id, middle.state (Revocation.revocEntryPath id) ≠ none →
        issuanceOf final id = issuanceOf middle id) ∧
      ∀ batches req revocDef seqNo time index, Asks batches req middle final →
        final.state req.revocRegDefId = some ⟨.registry (.definition revocDef),seqNo,time⟩ →
        lastMention ((entriesOf req.revocRegDefId start.txnTypes.length (first ++ second)).map
          Revocation.Txn.change) index = some .revoked →
        ∃ kind result change, issuanceOf final req.revocRegDefId = some kind ∧
          Revocation.getResult batches req = .ok result ∧ result.change? = some change ∧
          change.apply (status kind.initial ((entriesOf req.revocRegDefId start.txnTypes.length
            first).map Revocation.Txn.change)) index = .revoked := by
  have initial := WellTyped.empty start empty
  refine ⟨?_,?_⟩
  · intro history before after ordered run identified applied
    have typed := run.wellTyped setup (fun other member => identified other (List.mem_append_left _ member))
      initial
    exact (applyTxn_applied setup before after ordered applied).issuance_kept_iff setup
      (identified ordered (by simp)) typed
  · intro first second middle final head tail identified
    have typed := (head.run setup).wellTyped setup
      (fun other member => identified other (List.mem_append_left _ member)) initial
    refine ⟨fun id hasEntry => (tail.issuance_kept setup
      (fun other member => identified other (List.mem_append_right _ member)) typed id hasEntry).2,?_⟩
    intro batches req revocDef seqNo time index asks defined revoked
    have nonempty : entriesOf req.revocRegDefId start.txnTypes.length (first ++ second) ≠ [] := by
      intro none
      simp [none,lastMention] at revoked
    obtain ⟨kind,result,change,issued,computed,lists,moved⟩ := FaithfulRun.reply setup empty head tail
      identified batches req asks revocDef seqNo time defined nonempty
    refine ⟨kind,result,change,issued,computed,lists,?_⟩
    rw [moved,status,revoked]
    rfl

end Replies
def wholeRegistry : Revocation.DeltaRequest := ⟨"reader",1,registryId,none,50⟩

private theorem wholeRegistry_asks (ledger : Ledger Nat) :
    Asks [⟨40,registryState ledger.state⟩] wholeRegistry (ownerLedger .trustee) ledger :=
  ⟨rfl,by intro path _; rfl⟩

private theorem sampleHistory_faithful :
    FaithfulRun plainSetup (ownerLedger .trustee) sampleHistory withRevocation := by
  -- Definitions are written before there is an entry, entries define nothing.
  have first {ledger : Ledger Nat} {txn : DomainTxn Nat} {path : String} {value : Value Nat}
      (redefines : txn.redefines = some (path,value))
      (fresh : ledger.state (Revocation.revocEntryPath path) = none) : ¬Retypes ledger txn := by
    intro retypes
    obtain ⟨other,_,same,hasEntry,_⟩ := retypes
    obtain ⟨rfl,_⟩ := Prod.mk.inj (Option.some.inj (redefines.symm.trans same))
    exact hasEntry fresh
  have nothing {ledger : Ledger Nat} {txn : DomainTxn Nat} (redefines : txn.redefines = none) :
      ¬Retypes ledger txn := by
    intro retypes
    obtain ⟨_,_,same,_⟩ := retypes
    simp [redefines] at same
  exact .step (sampleHistory.take 4) withEntry _ _ (.step (sampleHistory.take 3) withRegistry _ _
    (.step (sampleHistory.take 2) withClaimDef _ _ (.step (sampleHistory.take 1) withSchema _ _
      (.step [] _ _ _ .start schema_added (nothing rfl)) claimDef_added (first rfl rfl)) registry_added
        (first rfl rfl)) entry_added (nothing rfl)) entry_revoked (nothing rfl)

theorem revocation_reported :
    ∃ kind result change, issuanceOf withRevocation registryId = some kind ∧
      Revocation.getResult [⟨40,registryState withRevocation.state⟩] wholeRegistry = .ok result ∧
      result.change? = some change ∧ change.apply (fun _ => kind.initial) 1 = .revoked :=
  ((issuance_kept_unless_rewritten plainSetup (ownerLedger .trustee) fun _ => rfl).2 [] sampleHistory _ _
    .start sampleHistory_faithful sampleHistory_identified).2 _ wholeRegistry _ _ _ 1
      (wholeRegistry_asks withRevocation) rfl (by decide)

def withRewrite : Ledger Nat := withRevocation.append revocRegDefType
  (Function.update withRevocation.state registryId
    (some ⟨.registry (.definition ⟨"CL_ACCUM","ISSUANCE_BY_DEFAULT"⟩),7,40⟩))

theorem rewrite_makes_revoked_valid :
    Run plainSetup (ownerLedger .trustee) sampleHistory withRevocation ∧
    applyTxn plainSetup withRevocation ⟨.revocDef signedByOwner (sampleRegistry .byDefault),40,by decide⟩ =
      .ok withRewrite ∧
    lastMention ((entriesOf registryId 1 sampleHistory).map Revocation.Txn.change) 1 = some .revoked ∧
    withRevocation.state (Revocation.revocEntryPath registryId) ≠ none ∧
    issuanceOf withRevocation registryId = some Revocation.issuedStrategy ∧
    issuanceOf withRewrite registryId = some Revocation.revokedStrategy ∧
    ∃ result change, Revocation.getResult [⟨40,registryState withRewrite.state⟩] wholeRegistry = .ok result ∧
      result.change? = some change ∧
      change.apply (fun _ => Revocation.revokedStrategy.initial) 1 = .issued := by
  have allowed : plainSetup.validate withRevocation signedByOwner
      (objectAction revocRegDefType (withRevocation.state registryId).isSome true) = .ok () :=
    owner_allowed _ rfl (editRevocRegDef,_) (List.mem_of_getElem? (i := 46) rfl) _ rfl (by decide)
  have known : (withRevocation.state (sampleRegistry .byDefault).credDefId).isSome := by decide
  refine ⟨sampleHistory_run,?_,by decide,by decide,rfl,rfl,_,_,rfl,rfl,by decide⟩
  exact applyTxn_revocDef plainSetup _ _ 40 _ _ _ (by decide)
    ((revocDefDynamicValidation_iff _ _ _ _).mpr ⟨by decide,allowed,known⟩) rfl

end IndyNode.Domain

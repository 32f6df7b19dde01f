import Mathlib.Data.List.Chain
import IndyNode.Domain.WellTyped
import IndyNode.Revocation.Writes

/-! The records of a revocation registry over whole runs of the domain ledger: the
entry and the accumulator always belong to the latest accepted entry, and the
accumulators of the accepted entries form one chain. -/
namespace IndyNode.Domain
open Authorize Nym

section Entries
variable {ι : Type}

/-- A registry entry with the place it takes in the ledger. -/
def entryTxn (ordered : Ordered ι) (index : Nat) : Option (Revocation.Txn ι) :=
  match ordered.txn with
  | .revocEntry req op => some ⟨entryRequest req op,index + 1,ordered.time,Nat.succ_pos index,ordered.timed⟩
  | _ => none

/-- The entries of a registry in a history that starts behind `index` transactions. -/
def entriesOf (id : String) (index : Nat) (history : List (Ordered ι)) : List (Revocation.Txn ι) :=
  (history.zipIdx index).filterMap fun place =>
    (entryTxn place.1 place.2).filter fun txn => txn.request.revocRegDefId = id

theorem places_snoc {α β : Type} (select : α × Nat → Option β) (index : Nat) (list : List α) (last : α) :
    ((list ++ [last]).zipIdx index).filterMap select =
      (list.zipIdx index).filterMap select ++ (select (last,index + list.length)).toList := by
  rw [List.zipIdx_append,List.filterMap_append]
  simp only [List.zipIdx_cons,List.zipIdx_nil,List.filterMap_cons,List.filterMap_nil]
  cases select (last,index + list.length) <;> rfl

private theorem entriesOf_snoc (id : String) (index : Nat) (history : List (Ordered ι)) (ordered : Ordered ι) :
    entriesOf id index (history ++ [ordered]) = entriesOf id index history ++
      ((entryTxn ordered (index + history.length)).filter
        fun txn => txn.request.revocRegDefId = id).toList :=
  places_snoc _ index history ordered

/-- A transaction that is no entry of the registry. -/
def Foreign (id : String) (txn : DomainTxn ι) : Prop :=
  ∀ req op, txn = .revocEntry req op → op.revocRegDefId ≠ id

theorem entriesOf_foreign (id : String) (index : Nat) (history : List (Ordered ι)) (ordered : Ordered ι)
    (foreign : Foreign id ordered.txn) :
    entriesOf id index (history ++ [ordered]) = entriesOf id index history := by
  rw [entriesOf_snoc]
  obtain ⟨txn,time,timed⟩ := ordered
  cases txn with
  | revocEntry req op =>
    have other : op.revocRegDefId ≠ id := foreign req op rfl
    simp [entryTxn,entryRequest,other]
  | _ => simp [entryTxn]

theorem entriesOf_entry (id : String) (index : Nat) (history : List (Ordered ι)) (req : Request)
    (op : RevocEntryOperation ι) (time : Nat) (timed : 0 < time) (mine : op.revocRegDefId = id) :
    entriesOf id index (history ++ [⟨.revocEntry req op,time,timed⟩]) = entriesOf id index history ++
      [⟨entryRequest req op,index + history.length + 1,time,Nat.succ_pos _,timed⟩] := by
  rw [entriesOf_snoc]
  simp [entryTxn,entryRequest,mine]

end Entries

theorem registry_unwritten {ι : Type} (setup : Setup) (txn : DomainTxn ι) (identified : txn.Identified)
    (id : String) (foreign : Foreign id txn) :
    Revocation.revocEntryPath id ∉ txn.paths setup ∧ Revocation.revocAccumPath id ∉ txn.paths setup := by
  have under : ∀ first second path, Plain first → Under first second path →
      Revocation.revocEntryPath id ∉ [path] ∧ Revocation.revocAccumPath id ∉ [path] := by
    intro first second path plain under
    have apart := under.not_registry plain id
    exact ⟨fun member => apart.1 (List.mem_singleton.mp member),
      fun member => apart.2 (List.mem_singleton.mp member)⟩
  cases txn with
  | nym req => simp [DomainTxn.paths]
  | attrib req op =>
    simp only [DomainTxn.paths]
    split
    · exact under _ _ _ (identified.dest req op rfl).plain (attrPath_under _ _)
    · simp
  | schema req op => exact under _ _ _ (authorText_plain _ identified.author) (schemaPath_under _ op)
  | claimDef req op => exact under _ _ _ (authorText_plain _ identified.author) (claimDefPath_under _ op)
  | revocDef req op => exact under _ _ _ (authorText_plain _ identified.author) (revocDefPath_under _ op)
  | revocEntry req op =>
    have other : id ≠ op.revocRegDefId := (foreign req op rfl).symm
    simp only [DomainTxn.paths,List.mem_cons,List.not_mem_nil,or_false,not_or]
    refine ⟨⟨fun same => other (revocEntryPath_inj _ _ same),by simp⟩,?_,
      fun same => other (revocAccumPath_inj _ _ same)⟩
    exact fun same => Revocation.revocEntryPath_ne_accumPath op.revocRegDefId id same.symm

section Records
variable {ι : Type}

/-- An entry continues the one before it. -/
def Links (before after : Revocation.Txn ι) : Prop :=
  after.request.value.prevAccum = some before.request.value.accum ∧
    after.request.value.accum ≠ before.request.value.accum

/-- The two records of a registry after its accepted entries. -/
structure Records (id : String) (entries : List (Revocation.Txn ι)) (ledger : Ledger ι) : Prop where
  absent : entries = [] → ledger.state (Revocation.revocEntryPath id) = none ∧
    ledger.state (Revocation.revocAccumPath id) = none
  present : ∀ last, entries.getLast? = some last → ∃ value : Revocation.EntryValue ι,
    value.accum = last.request.value.accum ∧
    ledger.state (Revocation.revocEntryPath id) = some ⟨.registry (.entry
      ⟨id,last.request.revocDefType,value,last.seqNo,last.txnTime⟩),last.seqNo,last.txnTime⟩ ∧
    ledger.state (Revocation.revocAccumPath id) = some ⟨.registry (.accum
      ⟨id,last.request.revocDefType,value.accum,last.seqNo,last.txnTime⟩),last.seqNo,last.txnTime⟩
  first : ∀ txn, entries.head? = some txn → txn.request.value.prevAccum = none
  chain : entries.IsChain Links

theorem Records.empty (id : String) (ledger : Ledger ι) (empty : ∀ path, ledger.state path = none) :
    Records id [] ledger :=
  ⟨fun _ => ⟨empty _,empty _⟩,by simp,by simp,by simp⟩

private theorem Records.kept {id : String} {entries : List (Revocation.Txn ι)} {before after : Ledger ι}
    (records : Records id entries before)
    (entry : after.state (Revocation.revocEntryPath id) = before.state (Revocation.revocEntryPath id))
    (accum : after.state (Revocation.revocAccumPath id) = before.state (Revocation.revocAccumPath id)) :
    Records id entries after where
  absent := by
    rw [entry,accum]
    exact records.absent
  present := by
    rw [entry,accum]
    exact records.present
  first := records.first
  chain := records.chain

theorem Records.current {id : String} {entries : List (Revocation.Txn ι)} {ledger : Ledger ι}
    (records : Records id entries ledger) (current : Option (Revocation.EntryRecord ι))
    (found : currentEntry ledger id = .ok current) :
    entries = [] ∧ current = none ∨ ∃ last entry, entries.getLast? = some last ∧
      current = some entry ∧ entry.value.accum = last.request.value.accum := by
  rw [currentEntry] at found
  rcases List.eq_nil_or_concat entries with empty | ⟨earlier,last,shape⟩
  · rw [(records.absent empty).1] at found
    exact .inl ⟨empty,(Except.ok.inj found).symm⟩
  · have latest : entries.getLast? = some last := by simp [shape]
    obtain ⟨value,accum,stored,_⟩ := records.present last latest
    rw [stored] at found
    exact .inr ⟨last,_,latest,(Except.ok.inj found).symm,accum⟩

variable [DecidableEq ι] [Revocation.PyStr ι] [PyHash ι] [LE ι] [DecidableLE ι] (setup : Setup)

omit [Revocation.PyStr ι] in
private theorem writtenValue_accum (kind : Revocation.Kind) (sortLegacy : Bool)
    (current : Option (Revocation.EntryRecord ι)) (value written : Revocation.EntryValue ι)
    (ok : kind.writtenValue sortLegacy current value = .ok written) : written.accum = value.accum := by
  cases current with
  | none => rw [← Except.ok.inj ok]
  | some entry =>
    obtain ⟨indices,_,rest⟩ := bind_success _ _ _ ok
    rw [← Except.ok.inj rest]
    exact Revocation.withIndices_accum kind value indices

private theorem Records.entry {id : String} {entries : List (Revocation.Txn ι)} {ledger : Ledger ι}
    (records : Records id entries ledger) (req : Request) (op : RevocEntryOperation ι)
    (mine : op.revocRegDefId = id) (time : Nat) (timed : 0 < time)
    (current : Option (Revocation.EntryRecord ι)) (kind : Revocation.Kind)
    (value : Revocation.EntryValue ι)
    (accepted : EntryAccepted setup ledger req op time current kind value) :
    Records id (entries ++ [⟨entryRequest req op,nextSeqNo ledger,time,Nat.succ_pos _,timed⟩])
      (ledger.append revocRegEntryType (setToState ledger op value (nextSeqNo ledger) time)) := by
  have checks := (Revocation.validate_ok kind current (entryRequest req op)).mp accepted.checked
  have accum := writtenValue_accum kind _ current op.value value accepted.written
  have cases := records.current current (mine ▸ accepted.entry)
  refine ⟨by simp,?_,?_,?_⟩
  · intro last latest
    rw [List.getLast?_append,List.getLast?_singleton,Option.some_or,Option.some.injEq] at latest
    subst latest
    subst mine
    exact ⟨value,accum,setToState_entry ledger op value _ time,setToState_accum ledger op value _ time⟩
  · intro txn head
    rcases cases with ⟨rfl,rfl⟩ | ⟨last,entry,latest,_,_⟩
    · obtain rfl := Option.some.inj head
      exact checks.2
    · refine records.first txn ?_
      rw [List.head?_append] at head
      cases first : entries.head? with
      | none => simp [List.head?_eq_none_iff.mp first] at latest
      | some other => rwa [first,Option.some_or] at head
  · refine List.isChain_append.mpr ⟨records.chain,List.isChain_singleton _,?_⟩
    intro last latest txn head
    obtain rfl := Option.some.inj head
    rcases cases with ⟨empty,_⟩ | ⟨last',entry,latest',rfl,same⟩
    · simp [empty] at latest
    · obtain rfl := Option.some.inj (latest.symm.trans latest')
      have follows := checks.2
      exact ⟨follows.chained.trans (congrArg some same),same ▸ follows.moved⟩

theorem Applied.length {ledger next : Ledger ι} {time : Nat} {txn : DomainTxn ι}
    (applied : Applied setup ledger time txn next) :
    next.txnTypes.length = ledger.txnTypes.length + 1 := by
  cases applied <;> simp [Ledger.append]

theorem Run.length {start final : Ledger ι} {history : List (Ordered ι)}
    (run : Run setup start history final) :
    final.txnTypes.length = start.txnTypes.length + history.length := by
  induction run with
  | start => simp
  | step history before after ordered earlier applied ih =>
    rw [(applyTxn_applied setup before after ordered applied).length,ih,List.length_append,
      List.length_singleton]
    omega

theorem Records.step {id : String} {index : Nat} {history : List (Ordered ι)} {before after : Ledger ι}
    (records : Records id (entriesOf id index history) before) (ordered : Ordered ι)
    (identified : ordered.txn.Identified) (length : before.txnTypes.length = index + history.length)
    (applied : Applied setup before ordered.time ordered.txn after) :
    Records id (entriesOf id index (history ++ [ordered])) after := by
  by_cases foreign : Foreign id ordered.txn
  · have unwritten := registry_unwritten setup ordered.txn identified id foreign
    rw [entriesOf_foreign id _ history ordered foreign]
    exact records.kept (applied.other setup _ unwritten.1) (applied.other setup _ unwritten.2)
  · obtain ⟨txn,time,timed⟩ := ordered
    simp only [Foreign,not_forall,ne_eq,not_not] at foreign
    obtain ⟨req,op,rfl,mine⟩ := foreign
    cases applied with
    | revocEntry _ _ current kind value accepted =>
      rw [entriesOf_entry id _ history req op time timed mine,← length]
      exact records.entry setup req op mine time timed current kind value accepted

/-- In every run the entry and the accumulator of every registry are both absent or
both those of the latest accepted entry, and the accepted entries form a chain. -/
theorem registry_records_chained (start final : Ledger ι) (history : List (Ordered ι))
    (empty : ∀ path, start.state path = none) (identified : ∀ ordered ∈ history, ordered.txn.Identified)
    (run : Run setup start history final) (id : String) :
    Records id (entriesOf id start.txnTypes.length history) final := by
  refine run.invariant setup (fun history ledger => Records id
    (entriesOf id start.txnTypes.length history) ledger) (.empty id start empty) ?_ identified
  intro history before after ordered earlier records now applied
  exact records.step setup ordered now (earlier.length setup) applied

end Records

def sampleEntry (value : Revocation.EntryValue Nat) : RevocEntryOperation Nat :=
  ⟨registryId,"CL_ACCUM",value,by decide⟩

def issueOne : Revocation.EntryValue Nat := ⟨none,"first",some [1],none⟩

def revokeOne : Revocation.EntryValue Nat := ⟨some "first","second",none,some [1]⟩

def withEntry : Ledger Nat := withRegistry.append revocRegEntryType
  (setToState withRegistry (sampleEntry issueOne) issueOne 5 20)

def withRevocation : Ledger Nat := withEntry.append revocRegEntryType
  (setToState withEntry (sampleEntry revokeOne) ⟨some "first","second",some [],some []⟩ 6 30)

theorem entry_added : applyTxn plainSetup withRegistry
    ⟨.revocEntry signedByOwner (sampleEntry issueOne),20,by decide⟩ = .ok withEntry := by
  refine applyTxn_revocEntry plainSetup _ _ 20 _ _ none Revocation.issuedStrategy issueOne ⟨?_,?_,?_,?_,?_,?_⟩
  · rfl
  · exact ⟨_,rfl,rfl⟩
  · exact owner_allowed _ rfl (addRevocRegEntry,_) (List.mem_of_getElem? (i := 45) rfl) _ rfl (by decide)
  · decide
  · rfl
  · simp [signedByOwner]

theorem entry_revoked : applyTxn plainSetup withEntry
    ⟨.revocEntry signedByOwner (sampleEntry revokeOne),30,by decide⟩ = .ok withRevocation := by
  refine applyTxn_revocEntry plainSetup _ _ 30 _ _ (some ⟨registryId,"CL_ACCUM",issueOne,5,20⟩)
    Revocation.issuedStrategy ⟨some "first","second",some [],some []⟩ ⟨?_,?_,?_,?_,?_,?_⟩
  · rfl
  · exact ⟨_,rfl,rfl⟩
  · exact owner_allowed _ rfl (editRevocRegEntry,_) (List.mem_of_getElem? (i := 47) rfl) _ rfl (by decide)
  · decide
  · rfl
  · simp [signedByOwner]

def sampleHistory : List (Ordered Nat) :=
  [⟨.schema signedByOwner degreeSchema,10,by decide⟩,⟨.claimDef signedByOwner sampleClaimDef,10,by decide⟩,
    ⟨.revocDef signedByOwner (sampleRegistry .onDemand),10,by decide⟩,
    ⟨.revocEntry signedByOwner (sampleEntry issueOne),20,by decide⟩,
    ⟨.revocEntry signedByOwner (sampleEntry revokeOne),30,by decide⟩]

theorem sampleHistory_run : Run plainSetup (ownerLedger .trustee) sampleHistory withRevocation :=
  .step (sampleHistory.take 4) withEntry _ _ (.step (sampleHistory.take 3) withRegistry _ _
    (.step (sampleHistory.take 2) withClaimDef _ _ (.step (sampleHistory.take 1) withSchema _ _
      (.step [] _ _ _ .start schema_added) claimDef_added) registry_added) entry_added) entry_revoked

theorem sampleHistory_identified : ∀ ordered ∈ sampleHistory, ordered.txn.Identified := by
  have shaped : IsIdentifier ownerDid := by decide
  intro ordered member
  simp only [sampleHistory,List.mem_cons,List.not_mem_nil,or_false] at member
  rcases member with rfl | rfl | rfl | rfl | rfl <;>
    exact ⟨fun author authored => Option.some.inj authored ▸ shaped,fun _ _ wrong => by simp at wrong⟩

theorem two_entries_chained :
    (entriesOf registryId 1 sampleHistory).map (·.request.value.accum) = ["first","second"] ∧
      Records registryId (entriesOf registryId 1 sampleHistory) withRevocation :=
  ⟨by decide,registry_records_chained plainSetup (ownerLedger .trustee) withRevocation sampleHistory
    (fun _ => rfl) sampleHistory_identified sampleHistory_run registryId⟩

end IndyNode.Domain

import IndyNode.Revocation.Delta
import IndyNode.Revocation.Run

/-! Replies over committed ledgers: the lists of a reply turn the status of the
registry at `from` into its status at `to`. -/
namespace IndyNode.Revocation
open Semantics.Registry

section Status
variable {ι : Type} [DecidableEq ι]

/-- Before any entry an index has the status that is not stored. -/
def Kind.initial (kind : Kind) : Status := kind.kept.opposite

private theorem status_eq_kept (kind : Kind) (history : List (Change ι)) (i : ι) :
    status kind.initial history i = kind.kept ↔ lastMention history i = some kind.kept := by
  unfold status Kind.initial
  cases lastMention history i <;> simp

private theorem getDelta_disjoint (kind : Kind) (target source : Change ι) :
    (kind.getDelta target (some source)).Disjoint := by
  intro i issued revoked
  unfold Kind.getDelta at issued revoked
  cases kept : kind.kept <;> simp_all

private theorem getDelta_kept (kind : Kind) (target source : Change ι) (i : ι) :
    i ∈ (kind.getDelta target (some source)).listed kind.kept ↔
      i ∈ target.listed kind.kept ∧ i ∉ source.listed kind.kept := by
  unfold Kind.getDelta
  cases kept : kind.kept <;> simp [Change.listed]

private theorem getDelta_opposite (kind : Kind) (target source : Change ι) (i : ι) :
    i ∈ (kind.getDelta target (some source)).listed kind.kept.opposite ↔
      i ∈ source.listed kind.kept ∧ i ∉ target.listed kind.kept := by
  unfold Kind.getDelta
  cases kept : kind.kept <;> simp [Change.listed,Status.opposite]

/-- Two stored lists: their difference moves one status to the other. -/
theorem Stored.delta {kind : Kind} {earlier later : List (Txn ι)} {source target : EntryRecord ι}
    (before : Stored kind earlier source) (after : Stored kind later target) :
    (kind.getDelta target.value.change (some source.value.change)).apply
        (status kind.initial (earlier.map Txn.change)) =
      status kind.initial (later.map Txn.change) := by
  apply Status.eq_of_iff kind.kept
  intro i
  rw [Change.apply_eq (getDelta_disjoint _ _ _),getDelta_kept,getDelta_opposite,status_eq_kept,
    status_eq_kept,← before.tracks,← after.tracks]
  tauto

/-- One stored entry alone, read against the status before any entry. -/
theorem Stored.whole {kind : Kind} {history : List (Txn ι)} {entry : EntryRecord ι}
    (stored : Stored kind history entry) :
    entry.value.change.apply (status kind.initial []) =
      status kind.initial (history.map Txn.change) := by
  apply Status.eq_of_iff kind.kept
  intro i
  rw [Change.apply_eq stored.disjoint,status_eq_kept,status_eq_kept,← stored.tracks]
  simp [lastMention]

end Status

section Lists
variable {ι : Type} [DecidableEq ι]

/-- The record a request finds at `from`; there is none when `from` is absent. -/
def recordFrom (batches : List (Batch ι)) (req : DeltaRequest) (path : String) : Option (Record ι) :=
  (givenSource req).bind fun source => (valueByTimestamp batches source path).value

/-- The lists of a reply, from the records it finds. -/
theorem getResult_lists (batches : List (Batch ι)) (req : DeltaRequest) (root : DomainState ι)
    (entry : EntryRecord ι) (entrySeqNo entryTime : Nat) (accum defined : Leaf ι) (kind : Kind)
    (source : Option (EntryRecord ι)) (target : getEqualOrPrev batches req.target = some root)
    (entryTo : root (revocEntryPath req.revocRegDefId) = some ⟨.entry entry,entrySeqNo,entryTime⟩)
    (accumTo : root (revocAccumPath req.revocRegDefId) = some accum)
    (definition : root req.revocRegDefId = some defined) (strategy : deltaStrategy defined.record = .ok kind)
    (entryFrom : recordFrom batches req (revocEntryPath req.revocRegDefId) = source.map .entry)
    (accumFrom : (recordFrom batches req (revocAccumPath req.revocRegDefId)).isSome = source.isSome) :
    ∃ result, getResult batches req = .ok result ∧
      result.change? = some (kind.getDelta entry.value.change (source.map (·.value.change))) := by
  have entryAt : valueByTimestamp batches req.target (revocEntryPath req.revocRegDefId) =
      ⟨some root,some (.entry entry),some entrySeqNo,some entryTime,
        some ⟨root,revocEntryPath req.revocRegDefId⟩⟩ := by
    simp [valueByTimestamp,target,entryTo]
  have accumAt : valueByTimestamp batches req.target (revocAccumPath req.revocRegDefId) =
      ⟨some root,some accum.record,some accum.seqNo,some accum.updateTime,
        some ⟨root,revocAccumPath req.revocRegDefId⟩⟩ := by
    simp [valueByTimestamp,target,accumTo]
  cases given : givenSource req with
  | none =>
    obtain rfl : source = none := by simpa [recordFrom,given] using entryFrom.symm
    simp [getResult,deltaData,entryAt,accumAt,given,StateValue.empty,definition,strategy,recordChange,pure,
      Except.pure,DeltaResult.change?]
  | some time =>
    simp only [recordFrom,given,Option.bind_some] at entryFrom accumFrom
    cases source with
    | none =>
      have noEntry : (valueByTimestamp batches time (revocEntryPath req.revocRegDefId)).value = none := by
        simpa using entryFrom
      simp [getResult,deltaData,entryAt,accumAt,given,definition,strategy,recordChange,noEntry,pure,
        Except.pure,DeltaResult.change?]
    | some old =>
      obtain ⟨oldAccum,hasAccum⟩ := Option.isSome_iff_exists.mp accumFrom
      simp [getResult,deltaData,entryAt,accumAt,given,definition,strategy,recordChange,entryFrom,hasAccum,
        pure,Except.pure,DeltaResult.change?]

end Lists

section Ledger
variable {ι : Type} [DecidableEq ι] [PyStr ι] [PyHash ι] [LE ι] [DecidableLE ι]

/-- The committed batches of a domain ledger with the entries of one registry.
Batches committed before the registry was defined hold no record of it; the
transactions of a batch carry its time. -/
inductive Ledger (id : String) (start : DomainState ι) :
    List (Batch ι) → List (Txn ι) → DomainState ι → Prop
  | created (earlier : List (Batch ι))
      (blank : ∀ batch ∈ earlier, batch.state (revocEntryPath id) = none ∧
        batch.state (revocAccumPath id) = none) :
      Ledger id start earlier [] start
  | commit (batches : List (Batch ι)) (history txns : List (Txn ι)) (before after : DomainState ι)
      (time : Nat) (earlier : Ledger id start batches history before) (run : Run id before txns after)
      (stamped : ∀ txn ∈ txns, txn.txnTime = time) (ordered : ∀ batch ∈ batches, batch.time ≤ time) :
      Ledger id start (batches ++ [⟨time,after⟩]) (history ++ txns) after

def entriesAt (history : List (Txn ι)) (timestamp : Nat) : List (Txn ι) :=
  history.filter (·.txnTime ≤ timestamp)

private theorem Run.trans {id : String} {start middle final : DomainState ι} {first second : List (Txn ι)}
    (head : Run id start first middle) (tail : Run id middle second final) :
    Run id start (first ++ second) final := by
  induction tail with
  | start => simpa using head
  | entry history before after txn authorize sortLegacy _ mine passes writes ih =>
    rw [← List.append_assoc]
    exact .entry _ before after txn authorize sortLegacy ih mine passes writes
  | foreign history before after _ untouched ih => exact .foreign _ before after ih untouched

private theorem Ledger.run {id : String} {start state : DomainState ι} {batches : List (Batch ι)}
    {history : List (Txn ι)} (ledger : Ledger id start batches history state) :
    Run id start history state := by
  induction ledger with
  | created _ _ => exact .start
  | commit _ _ _ _ _ _ _ run _ _ ih => exact ih.trans run

private theorem Ledger.stamps {id : String} {start state : DomainState ι} {batches : List (Batch ι)}
    {history : List (Txn ι)} (ledger : Ledger id start batches history state) :
    ∀ txn ∈ history, ∃ batch ∈ batches, txn.txnTime = batch.time := by
  induction ledger with
  | created _ _ => simp
  | commit batches history txns before after time _ _ stamped _ ih =>
    intro txn member
    rcases List.mem_append.mp member with old | new
    · obtain ⟨batch,inside,same⟩ := ih txn old
      exact ⟨batch,List.mem_append_left _ inside,same⟩
    · exact ⟨⟨time,after⟩,by simp,stamped txn new⟩

private theorem Ledger.root_at {id : String} {kind : Kind} {start state : DomainState ι}
    {batches : List (Batch ι)} {history : List (Txn ι)}
    (ledger : Ledger id start batches history state) (fresh : Fresh id kind start) (timestamp : Nat) :
    match getEqualOrPrev batches timestamp with
    | none => entriesAt history timestamp = []
    | some root => (entriesAt history timestamp = [] ∧ root (revocEntryPath id) = none ∧
        root (revocAccumPath id) = none) ∨ Holds id kind (entriesAt history timestamp) root := by
  induction ledger with
  | created earlier blank =>
    unfold getEqualOrPrev
    cases last : (earlier.filter (·.time ≤ timestamp)).getLast? with
    | none => rfl
    | some batch =>
      have member := List.mem_of_mem_filter (List.mem_of_getLast? last)
      exact .inl ⟨rfl,blank batch member⟩
  | commit batches history txns before after time earlier run stamped ordered ih =>
    have whole := (Ledger.commit batches history txns before after time earlier run stamped ordered)
    by_cases reached : time ≤ timestamp
    · have every : entriesAt (history ++ txns) timestamp = history ++ txns := by
        apply List.filter_eq_self.mpr
        intro txn member
        obtain ⟨batch,inside,same⟩ := whole.stamps txn member
        have bound : batch.time ≤ time := by
          rcases List.mem_append.mp inside with old | new
          · exact ordered batch old
          · rw [List.mem_singleton.mp new]
        rw [decide_eq_true_eq,same]
        omega
      have root : getEqualOrPrev (batches ++ [⟨time,after⟩]) timestamp = some after := by
        simp [getEqualOrPrev,List.filter_append,reached]
      rw [root,every]
      exact .inr (whole.run.holds fresh)
    · have none_new : entriesAt (history ++ txns) timestamp = entriesAt history timestamp := by
        have late : entriesAt txns timestamp = [] := by
          apply List.filter_eq_nil_iff.mpr
          intro txn member
          rw [decide_eq_true_eq,stamped txn member]
          exact reached
        simp only [entriesAt,List.filter_append] at late ⊢
        rw [late,List.append_nil]
      have root : getEqualOrPrev (batches ++ [⟨time,after⟩]) timestamp =
          getEqualOrPrev batches timestamp := by
        simp [getEqualOrPrev,List.filter_append,reached]
      rw [root,none_new]
      exact ih

private theorem Ledger.values_at {id : String} {kind : Kind} {start state : DomainState ι}
    {batches : List (Batch ι)} {history : List (Txn ι)}
    (ledger : Ledger id start batches history state) (fresh : Fresh id kind start) (timestamp : Nat) :
    (entriesAt history timestamp = [] ∧
      (valueByTimestamp batches timestamp (revocEntryPath id)).value = none ∧
      (valueByTimestamp batches timestamp (revocAccumPath id)).value = none) ∨
    ∃ entry root leaf, entriesAt history timestamp ≠ [] ∧
      Stored kind (entriesAt history timestamp) entry ∧
      valueByTimestamp batches timestamp (revocEntryPath id) = ⟨some root,some (.entry entry),
        some entry.seqNo,some entry.txnTime,some ⟨root,revocEntryPath id⟩⟩ ∧
      valueByTimestamp batches timestamp (revocAccumPath id) = ⟨some root,
        some (.accum ⟨entry.revocRegDefId,entry.revocDefType,entry.value.accum,entry.seqNo,
          entry.txnTime⟩),some entry.seqNo,some entry.txnTime,some ⟨root,revocAccumPath id⟩⟩ ∧
      root id = some leaf ∧ deltaStrategy leaf.record = .ok kind := by
  have found := ledger.root_at fresh timestamp
  unfold valueByTimestamp
  cases root : getEqualOrPrev batches timestamp with
  | none =>
    rw [root] at found
    exact .inl ⟨found,rfl,rfl⟩
  | some root_state =>
    rw [root] at found
    by_cases empty : entriesAt history timestamp = []
    · have absent : root_state (revocEntryPath id) = none ∧ root_state (revocAccumPath id) = none := by
        rcases found with ⟨_,nothing⟩ | holds
        · exact nothing
        · exact holds.unwritten empty
      exact .inl ⟨empty,by simp [absent.1],by simp [absent.2]⟩
    · rcases found with ⟨nothing,_⟩ | holds
      · exact absurd nothing empty
      · obtain ⟨entry,stored,record,accum⟩ := holds.written empty
        obtain ⟨revocDef,seqNo,time,defined,known⟩ := holds.defined
        refine .inr ⟨entry,root_state,_,empty,stored,by simp [record],by simp [accum],defined,?_⟩
        simp [deltaStrategy,issuanceType,known,pure,Except.pure]

end Ledger

section Reply
variable {ι : Type}

private theorem entriesAt_mono (history : List (Txn ι)) (earlier later : Nat) (order : earlier ≤ later)
    (empty : entriesAt history later = []) : entriesAt history earlier = [] := by
  rw [entriesAt,List.filter_eq_nil_iff] at empty ⊢
  intro txn member
  have late := empty txn member
  rw [decide_eq_true_eq] at late ⊢
  omega

private theorem entriesAt_zero (history : List (Txn ι)) : entriesAt history 0 = [] := by
  rw [entriesAt,List.filter_eq_nil_iff]
  intro txn _
  have positive := txn.timed
  rw [decide_eq_true_eq]
  omega

variable [DecidableEq ι]

def statusAt (kind : Kind) (history : List (Txn ι)) (timestamp : Nat) : ι → Status :=
  status kind.initial ((entriesAt history timestamp).map Txn.change)

def accumAt (history : List (Txn ι)) (timestamp : Nat) : Option String :=
  (entriesAt history timestamp).getLast?.map (·.request.value.accum)

/-- The status a reply starts from: the initial one when `from` is absent. -/
def statusFrom (kind : Kind) (history : List (Txn ι)) : Option Nat → ι → Status
  | none => status kind.initial []
  | some source => statusAt kind history source

/-- What a reply has to say about a history of entries. -/
structure Answers (kind : Kind) (history : List (Txn ι)) (source : Option Nat) (target : Nat)
    (result : DeltaResult ι) : Prop where
  lists : result.change?.isSome = true ↔ entriesAt history target ≠ []
  disjoint : ∀ change, result.change? = some change → change.Disjoint
  moves : (result.change?.getD ⟨[],[]⟩).apply (statusFrom kind history source) =
    statusAt kind history target
  accumTo : result.accumTo?.bind Record.accumulator = accumAt history target
  accumFrom : ∀ timestamp, source = some timestamp → 0 < timestamp → ∃ part,
    result.source? = some part ∧ part.accum.bind Record.accumulator = accumAt history timestamp

private theorem apply_nothing (before : ι → Status) : (⟨[],[]⟩ : Change ι).apply before = before := by
  funext i
  simp [Change.apply,Change.mention]

private theorem Stored.accumAt {kind : Kind} {history : List (Txn ι)} {timestamp : Nat}
    {entry : EntryRecord ι} (stored : Stored kind (entriesAt history timestamp) entry) :
    accumAt history timestamp = some entry.value.accum := by
  obtain ⟨txn,last,same⟩ := stored.latest
  simp [Revocation.accumAt,last,same]

/-- A reply with the entry in force at `to` answers if its lists lead there. -/
private theorem Stored.answers {kind : Kind} {history : List (Txn ι)} {source : Option Nat}
    {target : Nat} {entry : EntryRecord ι} (stored : Stored kind (entriesAt history target) entry)
    (nonempty : entriesAt history target ≠ []) {id revocType : String} {record : Record ι}
    {change : Change ι} {part : Option (SourcePart ι)} {lastSeqNo updateTime : Option Nat}
    {proof : Option (StateProof ι)} (accum : record.accumulator = some entry.value.accum)
    (disjoint : change.Disjoint)
    (moves : change.apply (statusFrom kind history source) = statusAt kind history target)
    (accumFrom : ∀ timestamp, source = some timestamp → 0 < timestamp → ∃ found,
      part = some found ∧ found.accum.bind Record.accumulator = Revocation.accumAt history timestamp) :
    Answers kind history source target
      ⟨some (.delta id revocType (some record) change part),lastSeqNo,updateTime,proof⟩ where
  lists := by simpa [DeltaResult.change?] using nonempty
  disjoint := by simpa [DeltaResult.change?] using disjoint
  moves := moves
  accumTo := by
    rw [stored.accumAt,← accum]
    rfl
  accumFrom := accumFrom

variable [PyStr ι] [PyHash ι] [LE ι] [DecidableLE ι]

/-- No entry is in force at `to`: the reply has no lists. -/
private theorem Ledger.reply_empty {id : String} {kind : Kind} {start state : DomainState ι}
    {batches : List (Batch ι)} {history : List (Txn ι)}
    (ledger : Ledger id start batches history state) (fresh : Fresh id kind start)
    (req : DeltaRequest) (mine : req.revocRegDefId = id)
    (ordered : ∀ source, req.source = some source → source ≤ req.target)
    (empty : entriesAt history req.target = [])
    (noEntry : (valueByTimestamp batches req.target (revocEntryPath id)).value = none)
    (noAccum : (valueByTimestamp batches req.target (revocAccumPath id)).value = none) :
    ∃ result, getResult batches req = .ok result ∧
      Answers kind history req.source req.target result := by
  have initial : statusFrom kind history req.source = statusAt kind history req.target := by
    cases given : req.source with
    | none => simp [statusFrom,statusAt,empty]
    | some source =>
      simp [statusFrom,statusAt,empty,entriesAt_mono history source req.target (ordered source given) empty]
  unfold getResult
  simp only [deltaData,mine,noEntry,noAccum,pure_bind]
  refine ⟨_,rfl,?_⟩
  cases given : req.source with
  | none =>
    rw [given] at initial
    refine ⟨by simp [DeltaResult.change?,empty],by simp [DeltaResult.change?],?_,
      by simp [DeltaResult.accumTo?,accumAt,empty],by simp⟩
    rw [← initial]
    exact apply_nothing _
  | some source =>
    rw [given] at initial
    refine ⟨by simp [DeltaResult.change?,empty],by simp [DeltaResult.change?],?_,
      by simp [DeltaResult.accumTo?,accumAt,empty],?_⟩
    · rw [← initial]
      exact apply_nothing _
    · intro timestamp same positive
      obtain rfl := Option.some.inj same
      have before := entriesAt_mono history source req.target (ordered source given) empty
      refine ⟨_,rfl,?_⟩
      rcases ledger.values_at fresh source with ⟨_,_,absent⟩ | ⟨_,_,_,nonempty,_⟩
      · simp [absent,accumAt,before]
      · exact absurd before nonempty

/-- An entry is in force at `to`: the lists come from the records at `to` and,
if there are any, at `from`. -/
private theorem Ledger.reply_found {id : String} {kind : Kind} {start state : DomainState ι}
    {batches : List (Batch ι)} {history : List (Txn ι)}
    (ledger : Ledger id start batches history state) (fresh : Fresh id kind start)
    (req : DeltaRequest) (mine : req.revocRegDefId = id)
    (entry : EntryRecord ι) (root : DomainState ι) (leaf : Leaf ι)
    (nonempty : entriesAt history req.target ≠ [])
    (stored : Stored kind (entriesAt history req.target) entry)
    (entryTo : valueByTimestamp batches req.target (revocEntryPath id) = ⟨some root,some (.entry entry),
      some entry.seqNo,some entry.txnTime,some ⟨root,revocEntryPath id⟩⟩)
    (accumTo : valueByTimestamp batches req.target (revocAccumPath id) = ⟨some root,
      some (.accum ⟨entry.revocRegDefId,entry.revocDefType,entry.value.accum,entry.seqNo,
        entry.txnTime⟩),some entry.seqNo,some entry.txnTime,some ⟨root,revocAccumPath id⟩⟩)
    (defined : root id = some leaf) (strategy : deltaStrategy leaf.record = .ok kind) :
    ∃ result, getResult batches req = .ok result ∧
      Answers kind history req.source req.target result := by
  cases given : givenSource req with
  | none =>
    have initial : statusFrom kind history req.source = status kind.initial [] := by
      cases asked : req.source with
      | none => rfl
      | some source =>
        have zero : source = 0 := by simpa [givenSource,asked] using given
        simp [statusFrom,statusAt,zero,entriesAt_zero]
    have result : getResult batches req = .ok ⟨some (.delta id (revocType leaf.record)
        (some (.entry entry)) entry.value.change none),some entry.seqNo,some entry.txnTime,
        some ⟨root,revocEntryPath id⟩⟩ := by
      simp [getResult,deltaData,mine,entryTo,accumTo,given,StateValue.empty,defined,strategy,
        recordChange,Kind.getDelta,pure,Except.pure]
    refine ⟨_,result,stored.answers nonempty rfl stored.disjoint ?_ ?_⟩
    · rw [initial]
      exact stored.whole
    · intro timestamp asked positive
      have zero : timestamp = 0 := by simpa [givenSource,asked] using given
      omega
  | some source =>
    have asked : req.source = some source := by
      have member := Option.eq_some_of_filter_eq_some given
      exact member
    rcases ledger.values_at fresh source with
      ⟨before,noEntry,noAccum⟩ | ⟨old,oldRoot,_,_,oldStored,entryFrom,accumFrom,_,_⟩
    · have result : getResult batches req = .ok ⟨some (.delta id (revocType leaf.record)
          (some (.entry entry)) entry.value.change
          (some ⟨(valueByTimestamp batches source (revocAccumPath id)).proof,none⟩)),
          some entry.seqNo,some entry.txnTime,some ⟨root,revocEntryPath id⟩⟩ := by
        simp [getResult,deltaData,mine,entryTo,accumTo,given,defined,strategy,noEntry,noAccum,
          recordChange,Kind.getDelta,pure,Except.pure]
      refine ⟨_,result,stored.answers nonempty rfl stored.disjoint ?_ ?_⟩
      · rw [asked,statusFrom,statusAt,before]
        exact stored.whole
      · intro timestamp same positive
        obtain rfl := Option.some.inj (asked.symm.trans same)
        exact ⟨_,rfl,by simp [accumAt,before]⟩
    · have result : getResult batches req = .ok ⟨some (.delta id (revocType leaf.record)
          (some (.accum ⟨entry.revocRegDefId,entry.revocDefType,entry.value.accum,entry.seqNo,
            entry.txnTime⟩)) (kind.getDelta entry.value.change (some old.value.change))
          (some ⟨some ⟨oldRoot,revocAccumPath id⟩,some (.accum ⟨old.revocRegDefId,old.revocDefType,
            old.value.accum,old.seqNo,old.txnTime⟩)⟩)),
          some entry.seqNo,some entry.txnTime,some ⟨root,revocAccumPath id⟩⟩ := by
        simp [getResult,deltaData,mine,entryTo,accumTo,given,defined,strategy,entryFrom,accumFrom,
          recordChange,pure,Except.pure]
      refine ⟨_,result,stored.answers nonempty rfl (getDelta_disjoint kind _ _) ?_ ?_⟩
      · rw [asked]
        exact oldStored.delta stored
      · intro timestamp same positive
        obtain rfl := Option.some.inj (asked.symm.trans same)
        exact ⟨_,rfl,by simpa [Record.accumulator] using oldStored.accumAt.symm⟩

private theorem Ledger.reply {id : String} {kind : Kind} {start state : DomainState ι}
    {batches : List (Batch ι)} {history : List (Txn ι)}
    (ledger : Ledger id start batches history state) (fresh : Fresh id kind start)
    (req : DeltaRequest) (mine : req.revocRegDefId = id)
    (ordered : ∀ source, req.source = some source → source ≤ req.target) :
    ∃ result, getResult batches req = .ok result ∧
      Answers kind history req.source req.target result := by
  rcases ledger.values_at fresh req.target with
    ⟨empty,noEntry,noAccum⟩ | ⟨entry,root,leaf,nonempty,stored,entryTo,accumTo,defined,strategy⟩
  · exact ledger.reply_empty fresh req mine ordered empty noEntry noAccum
  · exact ledger.reply_found fresh req mine entry root leaf nonempty stored entryTo accumTo defined
      strategy

end Reply

/-- Over every committed ledger each reply leads from the status at `from` (the
initial one when it is absent) to the status at `to` and names the accumulators
in force; consecutive replies compose. -/
theorem delta_replies_move_status (id : String) (kind : Kind) (start state : DomainState Int)
    (batches : List (Batch Int)) (history : List (Txn Int)) (fresh : Fresh id kind start)
    (ledger : Ledger id start batches history state) :
    (∀ req : DeltaRequest, req.revocRegDefId = id →
      (∀ source, req.source = some source → source ≤ req.target) →
      ∃ result, getResult batches req = .ok result ∧
        Answers kind history req.source req.target result) ∧
    ∀ (first second direct : DeltaRequest) (one two both : DeltaResult Int),
      first.revocRegDefId = id → second.revocRegDefId = id → direct.revocRegDefId = id →
      (∀ source, first.source = some source → source ≤ first.target) →
      second.source = some first.target → first.target ≤ second.target →
      direct.source = first.source → direct.target = second.target →
      getResult batches first = .ok one → getResult batches second = .ok two →
      getResult batches direct = .ok both →
      (two.change?.getD ⟨[],[]⟩).apply
          ((one.change?.getD ⟨[],[]⟩).apply (statusFrom kind history first.source)) =
        (both.change?.getD ⟨[],[]⟩).apply (statusFrom kind history first.source) := by
  refine ⟨fun req mine ordered => ledger.reply fresh req mine ordered,?_⟩
  intro first second direct one two both mine mine_two mine_both ordered chained order same_source
    same_target got_one got_two got_both
  -- A reply that was computed is the one the ledger answers with.
  have answers (req : DeltaRequest) (result : DeltaResult Int) (named : req.revocRegDefId = id)
      (before : ∀ source, req.source = some source → source ≤ req.target)
      (got : getResult batches req = .ok result) :
      Answers kind history req.source req.target result := by
    obtain ⟨other,computed,answered⟩ := ledger.reply fresh req named before
    rw [got,Except.ok.injEq] at computed
    rwa [computed]
  have head := (answers first one mine ordered got_one).moves
  have tail := (answers second two mine_two (by
    intro source given
    rw [chained] at given
    rw [← Option.some.inj given]
    exact order) got_two).moves
  have whole := (answers direct both mine_both (by
    intro source given
    rw [same_source] at given
    rw [same_target]
    exact (ordered source given).trans order) got_both).moves
  rw [chained] at tail
  rw [same_source,same_target] at whole
  rw [head,whole]
  exact tail

def firstEntry : Txn Int := sampleTxn none "a" [] [1,-8] 1

def secondEntry : Txn Int := sampleTxn (some "a") "b" [1] [3] 2

def afterFirstEntry : DomainState Int := setToState sampleState firstEntry firstEntry.request.value

def afterSecondEntry : DomainState Int := setToState afterFirstEntry secondEntry
  (revokedStrategy.withIndices secondEntry.request.value [-8,3])

private theorem firstEntry_committed : Ledger "did:4:cred:CL_ACCUM:tag" sampleState [⟨21,afterFirstEntry⟩]
    [firstEntry] afterFirstEntry :=
  .commit [] [] [firstEntry] sampleState afterFirstEntry 21 (.created [] (by simp))
    (.entry [] sampleState afterFirstEntry _ (fun _ _ => .ok ()) true .start rfl (by decide) rfl)
    (fun txn member => by rw [List.mem_singleton.mp member]; rfl) (by simp)

private theorem secondEntry_committed : Ledger "did:4:cred:CL_ACCUM:tag" sampleState
    [⟨21,afterFirstEntry⟩,⟨22,afterSecondEntry⟩] [firstEntry,secondEntry] afterSecondEntry :=
  .commit _ _ [secondEntry] afterFirstEntry afterSecondEntry 22 firstEntry_committed
    (.entry [] afterFirstEntry afterSecondEntry _ (fun _ _ => .ok ()) false .start rfl (by decide) rfl)
    (fun txn member => by rw [List.mem_singleton.mp member]; rfl) (by simp)

def firstPart : DeltaRequest := ⟨"did",1,"did:4:cred:CL_ACCUM:tag",none,21⟩

def secondPart : DeltaRequest := ⟨"did",2,"did:4:cred:CL_ACCUM:tag",some 21,30⟩

def bothParts : DeltaRequest := ⟨"did",3,"did:4:cred:CL_ACCUM:tag",none,30⟩

theorem delta_replies_after_two_entries :
    ∃ one two both,
      getResult [⟨21,afterFirstEntry⟩,⟨22,afterSecondEntry⟩] firstPart = .ok one ∧
      getResult [⟨21,afterFirstEntry⟩,⟨22,afterSecondEntry⟩] secondPart = .ok two ∧
      getResult [⟨21,afterFirstEntry⟩,⟨22,afterSecondEntry⟩] bothParts = .ok both ∧
      Answers revokedStrategy [firstEntry,secondEntry] (some 21) 30 two ∧
      (two.change?.getD ⟨[],[]⟩).apply ((one.change?.getD ⟨[],[]⟩).apply fun _ => .issued) =
        (both.change?.getD ⟨[],[]⟩).apply fun _ => .issued := by
  obtain ⟨replies,composed⟩ := delta_replies_move_status _ revokedStrategy sampleState afterSecondEntry _
    [firstEntry,secondEntry] sampleState_fresh secondEntry_committed
  obtain ⟨one,first,_⟩ := replies firstPart rfl (by simp [firstPart])
  obtain ⟨two,second,answers⟩ := replies secondPart rfl (by simp [secondPart])
  obtain ⟨both,direct,_⟩ := replies bothParts rfl (by simp [bothParts])
  refine ⟨one,two,both,first,second,direct,answers,?_⟩
  exact composed firstPart secondPart bothParts one two both rfl rfl rfl (by simp [firstPart]) rfl (by decide)
    rfl rfl first second direct

end IndyNode.Revocation

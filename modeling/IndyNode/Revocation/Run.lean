import IndyNode.Revocation.Writes

/-! Runs of accepted registry entries. The stored list always holds exactly the
indices whose last mention has the status the strategy keeps, however the
single writes sort it. -/
namespace IndyNode.Revocation
open Semantics.Registry

section Records
variable {ι : Type}

/-- Any other change of the domain state leaves the three records of the
registry as they are. -/
def Untouched (id : String) (before after : DomainState ι) : Prop :=
  ∀ path ∈ [id,revocEntryPath id,revocAccumPath id], after path = before path

/-- A registry whose definition is in the state and has no entry yet. -/
structure Fresh (id : String) (kind : Kind) (state : DomainState ι) : Prop where
  defined : ∃ revocDef seqNo time, state id = some ⟨.definition revocDef,seqNo,time⟩ ∧
    getRevocationStrategy revocDef.issuanceType = some kind
  noEntry : state (revocEntryPath id) = none
  noAccum : state (revocAccumPath id) = none

/-- A registry with the entry in force, if there is one. -/
structure InForce (id : String) (kind : Kind) (current : Option (EntryRecord ι))
    (state : DomainState ι) : Prop where
  defined : ∃ revocDef seqNo time, state id = some ⟨.definition revocDef,seqNo,time⟩ ∧
    getRevocationStrategy revocDef.issuanceType = some kind
  entry : state (revocEntryPath id) =
    current.map (fun entry => ⟨.entry entry,entry.seqNo,entry.txnTime⟩)

theorem Fresh.inForce {id : String} {kind : Kind} {state : DomainState ι}
    (fresh : Fresh id kind state) : InForce id kind none state := ⟨fresh.defined,fresh.noEntry⟩

namespace InForce
variable {id : String} {kind : Kind} {current : Option (EntryRecord ι)} {state : DomainState ι}

theorem foreign (force : InForce id kind current state) {after : DomainState ι}
    (untouched : Untouched id state after) : InForce id kind current after := by
  refine ⟨?_,?_⟩
  · rw [untouched id (by simp)]
    exact force.defined
  · rw [untouched (revocEntryPath id) (by simp)]
    exact force.entry

private theorem found (force : InForce id kind current state) (req : Request ι)
    (mine : req.revocRegDefId = id) :
    ∃ revocDef, getCurrentRevocEntryAndRevocDef state req = .ok (current,revocDef) ∧
      strategyOf revocDef = .ok kind := by
  obtain ⟨revocDef,seqNo,time,stored,known⟩ := force.defined
  refine ⟨.definition revocDef,?_,by simp [strategyOf,issuanceType,known,pure,Except.pure]⟩
  have entry := force.entry
  cases current <;>
    simp [getCurrentRevocEntryAndRevocDef,currentEntry,mine,stored,entry,pure,Except.pure]

theorem validates [DecidableEq ι] [PyStr ι] (force : InForce id kind current state) (req : Request ι)
    (mine : req.revocRegDefId = id) (authorize : (edit owner : Bool) → Except Raised Unit) :
    dynamicValidation authorize state req =
      (do authorize current.isSome (isOwner req); kind.validate current req) := by
  obtain ⟨revocDef,found,strategy⟩ := force.found req mine
  simp only [dynamicValidation,found,ok_bind,strategy]

theorem updates [DecidableEq ι] [PyHash ι] [LE ι] [DecidableLE ι]
    (force : InForce id kind current state) (sortLegacy : Bool) (txn : Txn ι) (mine : txn.request.revocRegDefId = id) :
    updateState sortLegacy state txn =
      (do return setToState state txn (← kind.writtenValue sortLegacy current txn.request.value)) := by
  obtain ⟨revocDef,found,strategy⟩ := force.found txn.request mine
  simp only [updateState,found,ok_bind,strategy]

/-- The written value is the next entry in force; the definition stays. -/
theorem stores (force : InForce id kind current state) (txn : Txn ι)
    (mine : txn.request.revocRegDefId = id) (value : EntryValue ι) :
    InForce id kind (some (txn.record value)) (setToState state txn value) := by
  obtain ⟨revocDef,seqNo,time,defined,known⟩ := force.defined
  refine ⟨⟨revocDef,seqNo,time,?_,known⟩,?_⟩
  · rw [setToState,mine,Function.update_of_ne (revocAccumPath_ne_self id).symm,
      Function.update_of_ne (revocEntryPath_ne_self id).symm,defined]
  · rw [setToState,mine,Function.update_of_ne (revocEntryPath_ne_accumPath id id),Function.update_self]
    simp [Txn.record,mine]

end InForce
end Records

section Registry
variable {ι : Type} [DecidableEq ι]

/-- What the three records of a registry are after a run. -/
structure Holds (id : String) (kind : Kind) (history : List (Txn ι)) (state : DomainState ι) :
    Prop where
  defined : ∃ revocDef seqNo time, state id = some ⟨.definition revocDef,seqNo,time⟩ ∧
    getRevocationStrategy revocDef.issuanceType = some kind
  unwritten : history = [] → state (revocEntryPath id) = none ∧ state (revocAccumPath id) = none
  written : history ≠ [] → ∃ entry, Stored kind history entry ∧
    state (revocEntryPath id) = some ⟨.entry entry,entry.seqNo,entry.txnTime⟩ ∧
    state (revocAccumPath id) = some ⟨.accum ⟨entry.revocRegDefId,entry.revocDefType,entry.value.accum,
      entry.seqNo,entry.txnTime⟩,entry.seqNo,entry.txnTime⟩

private theorem Fresh.holds {id : String} {kind : Kind} {state : DomainState ι} (fresh : Fresh id kind state) :
    Holds id kind [] state where
  defined := fresh.defined
  unwritten := fun _ => ⟨fresh.noEntry,fresh.noAccum⟩
  written := fun nonempty => absurd rfl nonempty

private theorem Holds.foreign {id : String} {kind : Kind} {history : List (Txn ι)}
    {before after : DomainState ι} (holds : Holds id kind history before)
    (untouched : Untouched id before after) : Holds id kind history after := by
  have definition := untouched id (by simp)
  have entry := untouched (revocEntryPath id) (by simp)
  have accum := untouched (revocAccumPath id) (by simp)
  refine ⟨?_,?_,?_⟩
  · rw [definition]
    exact holds.defined
  · rw [entry,accum]
    exact holds.unwritten
  · rw [entry,accum]
    exact holds.written

private theorem Holds.current {id : String} {kind : Kind} {history : List (Txn ι)} {state : DomainState ι}
    (holds : Holds id kind history state) :
    ∃ current, InForce id kind current state ∧
      ((history = [] ∧ current = none) ∨
        ∃ entry, history ≠ [] ∧ current = some entry ∧ Stored kind history entry) := by
  by_cases empty : history = []
  · exact ⟨none,⟨holds.defined,(holds.unwritten empty).1⟩,.inl ⟨empty,rfl⟩⟩
  · obtain ⟨entry,stored,record,_⟩ := holds.written empty
    exact ⟨some entry,⟨holds.defined,record⟩,.inr ⟨entry,empty,rfl,stored⟩⟩

variable [PyHash ι] [LE ι] [DecidableLE ι]

private theorem Holds.step {id : String} {kind : Kind} {history : List (Txn ι)} {state after : DomainState ι}
    (holds : Holds id kind history state) (txn : Txn ι) (mine : txn.request.revocRegDefId = id)
    (disjoint : txn.change.Disjoint) (sortLegacy : Bool)
    (writes : updateState sortLegacy state txn = .ok after) : Holds id kind (history ++ [txn]) after := by
  obtain ⟨current,force,cases⟩ := holds.current
  rw [force.updates sortLegacy txn mine] at writes
  obtain ⟨value,written,same⟩ := bind_success _ _ _ writes
  obtain rfl := Except.ok.inj same
  -- Whatever value is written, it is the entry in force and its accumulator stands next to it.
  suffices stored : Stored kind (history ++ [txn]) (txn.record value) by
    have after := force.stores txn mine value
    refine ⟨after.defined,by simp,fun _ => ⟨txn.record value,stored,after.entry,?_⟩⟩
    rw [setToState,mine,Function.update_self]
    simp [Txn.record,mine]
  rcases cases with ⟨empty,rfl⟩ | ⟨entry,started,rfl,stored⟩
  · obtain rfl := Except.ok.inj written
    rw [empty]
    exact Stored.first kind txn disjoint
  · obtain ⟨indices,result,same⟩ := bind_success _ _ _ written
    obtain rfl := Except.ok.inj same
    obtain ⟨distinct,members⟩ := resultIndices_spec kind sortLegacy entry txn.request.value indices result
    exact stored.next txn disjoint indices distinct members

private theorem Holds.writes [CompatSet.NonnegHash ι] {id : String} {kind : Kind} {history : List (Txn ι)}
    {state : DomainState ι} (holds : Holds id kind history state) (txn : Txn ι)
    (mine : txn.request.revocRegDefId = id) (sortLegacy : Bool) :
    ∃ after, updateState sortLegacy state txn = .ok after := by
  obtain ⟨current,force,_⟩ := holds.current
  rw [force.updates sortLegacy txn mine]
  cases current with
  | none => exact ⟨_,rfl⟩
  | some entry =>
    obtain ⟨indices,result⟩ := resultIndices_total kind sortLegacy entry txn.request.value
    exact ⟨_,by simp [Kind.writtenValue,result,pure,Except.pure]; rfl⟩

end Registry

section Execution
variable {ι : Type} [DecidableEq ι] [PyStr ι]

private theorem Holds.passed {id : String} {kind : Kind} {history : List (Txn ι)} {state : DomainState ι}
    (holds : Holds id kind history state) (req : Request ι) (mine : req.revocRegDefId = id)
    (authorize : (edit owner : Bool) → Except Raised Unit)
    (passes : dynamicValidation authorize state req = .ok ()) :
    req.value.change.Disjoint ∧
      ∀ entry, Stored kind history entry → history ≠ [] →
        (∀ i ∈ req.value.change.listed kind.kept,
          lastMention (history.map Txn.change) i ≠ some kind.kept) ∧
        ∀ i ∈ req.value.change.listed kind.kept.opposite,
          lastMention (history.map Txn.change) i = some kind.kept := by
  obtain ⟨current,force,cases⟩ := holds.current
  rw [force.validates req mine] at passes
  obtain ⟨_,_,checked⟩ := bind_success _ _ _ passes
  rw [validate_ok] at checked
  refine ⟨checked.1,?_⟩
  intro _ _ started
  rcases cases with ⟨empty,_⟩ | ⟨entry,_,rfl,stored⟩
  · exact absurd empty started
  · refine ⟨fun i added => ?_,fun i undone => ?_⟩
    · rw [ne_eq,← stored.tracks]
      exact checked.2.fresh i added
    · rw [← stored.tracks]
      exact checked.2.undone i undone

variable [PyHash ι] [LE ι] [DecidableLE ι]

/-- Accepted entries of one registry, in order, between arbitrary transactions
that do not concern it. Every write sorts in its own way. -/
inductive Run (id : String) (start : DomainState ι) : List (Txn ι) → DomainState ι → Prop
  | start : Run id start [] start
  | entry (history : List (Txn ι)) (before after : DomainState ι) (txn : Txn ι)
      (authorize : (edit owner : Bool) → Except Raised Unit) (sortLegacy : Bool)
      (earlier : Run id start history before) (mine : txn.request.revocRegDefId = id)
      (passes : dynamicValidation authorize before txn.request = .ok ())
      (writes : updateState sortLegacy before txn = .ok after) :
      Run id start (history ++ [txn]) after
  | foreign (history : List (Txn ι)) (before after : DomainState ι)
      (earlier : Run id start history before) (untouched : Untouched id before after) :
      Run id start history after

theorem Run.holds {id : String} {kind : Kind} {start final : DomainState ι} {history : List (Txn ι)}
    (run : Run id start history final) (fresh : Fresh id kind start) :
    Holds id kind history final := by
  induction run with
  | start => exact fresh.holds
  | entry history before after txn authorize sortLegacy _ mine passes writes ih =>
    exact ih.step txn mine (ih.passed _ mine authorize passes).1 sortLegacy writes
  | foreign history before after _ untouched ih => exact ih.foreign untouched

/-- Later entries revoke and re-issue only what they can. -/
theorem Run.moves {id : String} {kind : Kind} {start final : DomainState ι} {history : List (Txn ι)}
    (run : Run id start history final) (fresh : Fresh id kind start) (before after : List (Txn ι))
    (txn : Txn ι) (split : history = before ++ txn :: after) (later : before ≠ []) :
    (∀ i ∈ txn.change.listed kind.kept,
      lastMention (before.map Txn.change) i ≠ some kind.kept) ∧
    ∀ i ∈ txn.change.listed kind.kept.opposite,
      lastMention (before.map Txn.change) i = some kind.kept := by
  induction run generalizing after with
  | start => simp at split
  | entry history state next last authorize sortLegacy earlier mine passes writes ih =>
    cases after using List.reverseRecOn with
    | nil =>
      obtain ⟨rfl,same⟩ := List.append_inj' split rfl
      obtain rfl := (List.cons.inj same).1
      have holds := earlier.holds fresh
      obtain ⟨entry,stored,_⟩ := holds.written later
      exact (holds.passed _ mine authorize passes).2 entry stored later
    | append_singleton rest end_txn _ =>
      refine ih rest ?_
      rw [← List.cons_append,← List.append_assoc] at split
      exact (List.append_inj' split rfl).1
  | foreign history state next _ _ ih => exact ih after split

end Execution

/-- After every run the stored list of a registry is the set of indices whose
last mention has the kept status; from the second entry on it has no repetition
and the other list is empty; no later entry moves an index to the status it has;
and an entry that passes validation is always written. -/
theorem stored_indices_follow_mentions (id : String) (kind : Kind) (start final : DomainState Nat)
    (history : List (Txn Nat)) (fresh : Fresh id kind start) (run : Run id start history final) :
    (history = [] → final (revocEntryPath id) = none) ∧
    (history ≠ [] → ∃ entry, final (revocEntryPath id) = some ⟨.entry entry,entry.seqNo,entry.txnTime⟩ ∧
      (∀ i, i ∈ entry.value.change.listed kind.kept ↔
        lastMention (history.map Txn.change) i = some kind.kept) ∧
      (2 ≤ history.length → (entry.value.change.listed kind.kept).Nodup ∧
        entry.value.change.listed kind.kept.opposite = [])) ∧
    (∀ before txn after, history = before ++ txn :: after → before ≠ [] →
      (∀ i ∈ txn.change.listed kind.kept,
        lastMention (before.map Txn.change) i ≠ some kind.kept) ∧
      ∀ i ∈ txn.change.listed kind.kept.opposite,
        lastMention (before.map Txn.change) i = some kind.kept) ∧
    ∀ (txn : Txn Nat) (authorize : (edit owner : Bool) → Except Raised Unit),
      txn.request.revocRegDefId = id → dynamicValidation authorize final txn.request = .ok () →
      ∀ sortLegacy, ∃ next, updateState sortLegacy final txn = .ok next ∧
        Run id start (history ++ [txn]) next := by
  have holds := run.holds fresh
  refine ⟨fun empty => (holds.unwritten empty).1,?_,?_,?_⟩
  · intro started
    obtain ⟨entry,stored,record,_⟩ := holds.written started
    exact ⟨entry,record,stored.tracks,stored.merged⟩
  · intro before txn after split later
    exact run.moves fresh before after txn split later
  · intro txn authorize mine passes sortLegacy
    obtain ⟨next,written⟩ := holds.writes txn mine sortLegacy
    exact ⟨next,written,.entry history final next txn authorize sortLegacy run mine passes written⟩

section Samples
variable {ι : Type}

def sampleState : DomainState ι := Function.update (fun _ => none) "did:4:cred:CL_ACCUM:tag"
  (some ⟨.definition ⟨"CL_ACCUM","ISSUANCE_BY_DEFAULT"⟩,1,10⟩)

private theorem registry_named : "did:4:cred:CL_ACCUM:tag" ≠ "" := by decide

private theorem author_named : "did" ≠ "" := by decide

def sampleTxn (prevAccum : Option String) (accum : String) (issued revoked : List ι) (seqNo : Nat) : Txn ι :=
  ⟨⟨"did",seqNo,"did:4:cred:CL_ACCUM:tag","CL_ACCUM",⟨prevAccum,accum,some issued,some revoked⟩,
    author_named,registry_named⟩,seqNo + 1,seqNo + 20,Nat.succ_pos _,Nat.succ_pos _⟩

theorem sampleState_fresh : Fresh "did:4:cred:CL_ACCUM:tag" revokedStrategy (sampleState : DomainState ι) where
  defined := ⟨_,_,_,rfl,rfl⟩
  noEntry := Function.update_of_ne (revocEntryPath_ne_self _) _ _
  noAccum := Function.update_of_ne (revocAccumPath_ne_self _) _ _

end Samples

theorem stored_indices_after_two_entries :
    ∃ final, Run "did:4:cred:CL_ACCUM:tag" sampleState
        [sampleTxn none "a" [] [1,8] 1,sampleTxn (some "a") "b" [1] [3] 2] final ∧
      ∃ entry, final (revocEntryPath "did:4:cred:CL_ACCUM:tag") =
          some ⟨.entry entry,entry.seqNo,entry.txnTime⟩ ∧
        (entry.value.change.listed .revoked).Nodup ∧ entry.value.change.listed .issued = [] := by
  have first := (stored_indices_follow_mentions _ revokedStrategy sampleState sampleState []
    sampleState_fresh .start).2.2.2 (sampleTxn none "a" [] [1,8] 1) (fun _ _ => .ok ()) rfl
    (by decide) false
  obtain ⟨middle,written,run⟩ := first
  have second := (stored_indices_follow_mentions _ revokedStrategy sampleState middle _
    sampleState_fresh run).2.2.2 (sampleTxn (some "a") "b" [1] [3] 2) (fun _ _ => .ok ()) rfl
    (by obtain rfl := Except.ok.inj written; decide) true
  obtain ⟨final,_,run⟩ := second
  obtain ⟨entry,record,_,merged⟩ := (stored_indices_follow_mentions _ revokedStrategy sampleState
    final _ sampleState_fresh run).2.1 (by simp)
  exact ⟨final,run,entry,record,merged (by simp)⟩

end IndyNode.Revocation

import IndyNode.Revocation.Canonical

/-! When a legacy write ends. Indices are arbitrary integers; the probe sequence
of a negative hash may circle through occupied slots forever, so a write ends
exactly when each of its searches meets a free slot or the index itself. -/
namespace IndyNode.Revocation
open Semantics.Registry CompatSet

section Writes
variable {ι : Type} [DecidableEq ι] [PyHash ι]

/-- The searches of the write that follows the entry in force all settle. The
first entry of a registry is stored without any search. -/
def Kind.settled (kind : Kind) (current : Option (EntryRecord ι)) (value : EntryValue ι) : Bool :=
  match current with
  | none => true
  | some entry => settledWrite (entry.value.change.listed kind.kept)
      (value.change.listed kind.kept.opposite) (value.change.listed kind.kept)

variable [LE ι] [DecidableLE ι]

theorem writtenValue_iff (kind : Kind) (current : Option (EntryRecord ι)) (value : EntryValue ι) :
    (∃ written, kind.writtenValue true current value = .ok written) ↔
      kind.settled current value = true := by
  cases current with
  | none => simp [Kind.writtenValue,Kind.settled]
  | some entry =>
    have guarded := legacyIndices_guarded (entry.value.change.listed kind.kept)
      (value.change.listed kind.kept.opposite) (value.change.listed kind.kept)
    rw [Kind.settled,← guarded.returns_iff]
    constructor
    · rintro ⟨written,ok⟩
      obtain ⟨indices,ends,_⟩ := bind_success _ _ _ ok
      exact ⟨indices,ends⟩
    · rintro ⟨indices,ends⟩
      exact ⟨_,by simp [Kind.writtenValue,Kind.resultIndices,ends,pure,Except.pure]; rfl⟩

private theorem writtenValue_mem (kind : Kind) (sortLegacy : Bool) (current : Option (EntryRecord ι))
    (value written : EntryValue ι) (ok : kind.writtenValue sortLegacy current value = .ok written)
    (i : ι) (member : i ∈ written.change.listed kind.kept) :
    i ∈ value.change.listed kind.kept ∨
      ∃ entry, current = some entry ∧ i ∈ entry.value.change.listed kind.kept := by
  cases current with
  | none =>
    obtain rfl := Except.ok.inj ok
    exact .inl member
  | some entry =>
    obtain ⟨indices,ends,stored⟩ := bind_success _ _ _ ok
    obtain rfl := Except.ok.inj stored
    rw [withIndices_kept] at member
    rcases ((resultIndices_spec kind sortLegacy entry value indices ends).2 i).mp member with ⟨old,_⟩ | added
    · exact .inr ⟨entry,rfl,old⟩
    · exact .inl added

end Writes

section Runs
variable {ι : Type} [DecidableEq ι] [PyStr ι] [PyHash ι] [LE ι] [DecidableLE ι]

theorem Run.inForce {id : String} {kind : Kind} {start final : DomainState ι} {history : List (Txn ι)}
    (run : Run id start history final) (fresh : Fresh id kind start) :
    ∃ current, InForce id kind current final ∧
      ∀ entry ∈ current, ∀ i ∈ entry.value.change.listed kind.kept,
        ∃ txn ∈ history, i ∈ txn.change.listed kind.kept := by
  induction run with
  | start => exact ⟨none,fresh.inForce,by simp⟩
  | entry history before after txn authorize sortLegacy _ mine passes writes ih =>
    obtain ⟨current,force,listed⟩ := ih
    rw [force.updates sortLegacy txn mine] at writes
    obtain ⟨value,written,stored⟩ := bind_success _ _ _ writes
    obtain rfl := Except.ok.inj stored
    refine ⟨_,force.stores txn mine value,?_⟩
    intro entry same i member
    obtain rfl := Option.some.inj same
    rcases writtenValue_mem kind sortLegacy current _ value written i member with added | ⟨entry,known,old⟩
    · exact ⟨txn,by simp,added⟩
    · obtain ⟨earlier,early,mentioned⟩ := listed entry known i old
      exact ⟨earlier,by simp [early],mentioned⟩
  | foreign history before after _ untouched ih =>
    obtain ⟨current,force,listed⟩ := ih
    exact ⟨current,force.foreign untouched,listed⟩

end Runs

private theorem listed_nonneg (change : Change Int) (status : Status)
    (nonneg : ∀ i ∈ change.issued ++ change.revoked, 0 ≤ i) : Inner.Plain (change.listed status) := by
  intro i member
  apply hash_int_nonneg
  apply nonneg
  cases status with
  | issued => exact List.mem_append_left _ member
  | revoked => exact List.mem_append_right _ member

/-- A search or a clean insertion ends, in any number of rounds, exactly when the
index settles; a legacy write after any run ends exactly when its searches
settle, and it always does in a run without negative indices. -/
theorem legacy_write_ends_iff (id : String) (kind : Kind) (start final : DomainState Int)
    (history : List (Txn Int)) (txn : Txn Int) (fresh : Fresh id kind start)
    (run : Run id start history final) (mine : txn.request.revocRegDefId = id) :
    (∀ (s : Inner Int) (elem : Int), s.Sound →
      ((∃ rounds index, lookLoop s.table s.mask (.fromElem elem) rounds
          (pyAnd (PyHash.hash elem) s.mask) (PyHash.hash elem) none = .ok index) ↔
        s.settles elem = true) ∧
      (elem ∉ s.elems → ((∃ rounds index, cleanLoop s.table s.mask rounds
          (pyAnd (PyHash.hash elem) s.mask) (PyHash.hash elem) = .ok index) ↔
        s.settles elem = true))) ∧
    ∃ current, currentEntry final id = .ok current ∧
      ((∃ next, updateState true final txn = .ok next) ↔
        kind.settled current txn.request.value = true) ∧
      ((∀ past ∈ history ++ [txn], ∀ i ∈ past.change.issued ++ past.change.revoked, 0 ≤ i) →
        ∃ next, updateState true final txn = .ok next) := by
  refine ⟨fun s elem sound => ⟨sound.lookLoop_ends_iff elem,sound.cleanLoop_ends_iff elem⟩,?_⟩
  obtain ⟨current,force,listed⟩ := run.inForce fresh
  have written : (∃ next, updateState true final txn = .ok next) ↔
      kind.settled current txn.request.value = true := by
    rw [← writtenValue_iff,force.updates true txn mine]
    constructor
    · rintro ⟨next,ok⟩
      obtain ⟨value,ends,_⟩ := bind_success _ _ _ ok
      exact ⟨value,ends⟩
    · rintro ⟨value,ends⟩
      exact ⟨_,by rw [ends]; rfl⟩
  refine ⟨current,?_,written,fun nonneg => written.mpr ?_⟩
  · have entry := force.entry
    cases current <;> simp [currentEntry,entry]
  · cases current with
    | none => rfl
    | some entry =>
      have own := nonneg txn (by simp)
      refine (legacyIndices_guarded _ _ _).sure ⟨?_,listed_nonneg _ _ own,listed_nonneg _ _ own⟩
      intro i member
      obtain ⟨past,early,mentioned⟩ := listed entry rfl i member
      exact listed_nonneg past.change kind.kept (nonneg past (by simp [early])) i mentioned

private theorem SortedRun.toRun {ι : Type} [LinearOrder ι] [PyStr ι] [PyHash ι] {id : String}
    {start final : DomainState ι} {history : List (Txn ι)} (run : SortedRun id start history final) :
    Run id start history final := by
  induction run with
  | start => exact .start
  | entry history before after txn authorize _ mine passes writes ih =>
    exact .entry history before after txn authorize false ih mine passes writes
  | foreign history before after _ untouched ih => exact .foreign history before after ih untouched

theorem legacy_write_of_negative_index :
    ∃ next, updateState true (afterFirst [] [1,-2]) (sampleTxn (some "a") "b" [1] [-8] 2) =
      .ok next := by
  obtain ⟨current,found,ends,_⟩ := (legacy_write_ends_iff _ revokedStrategy sampleState
    (afterFirst [] [1,-2]) _ (sampleTxn (some "a") "b" [1] [-8] 2) sampleState_fresh
    (afterFirst_run [] [1,-2] (by simp)).toRun rfl).2
  apply ends.mpr
  obtain rfl := Except.ok.inj found
  decide

/-- The index `-8` hashes to the slot of `0`, and its probe sequence never
leaves that slot. -/
theorem legacy_write_never_ends :
    Run "did:4:cred:CL_ACCUM:tag" sampleState [sampleTxn none "a" [] [0] 1] (afterFirst [] [0]) ∧
      dynamicValidation (fun _ _ => .ok ()) (afterFirst [] [0])
        (sampleTxn (some "a") "b" [] [-8] 2).request = .ok () ∧
      updateState true (afterFirst [] [0]) (sampleTxn (some "a") "b" [] [-8] 2) =
        .error .diverges ∧
      ∀ rounds index, lookLoop [.live (.fromElem 0),.empty,.empty,.empty,.empty,.empty,.empty,.empty]
        7 (.fromElem (-8 : Int)) rounds (pyAnd (-8) 7) (-8) none ≠ .ok index := by
  refine ⟨(afterFirst_run [] [0] (by simp)).toRun,by decide,rfl,?_⟩
  intro rounds index ends
  have sound : (⟨1,7,0,[.live (.fromElem 0),.empty,.empty,.empty,.empty,.empty,.empty,.empty],1⟩ :
      Inner Int).Sound := by
    have built : init [(0 : Int)] =
        .ok ⟨1,7,0,[.live (.fromElem 0),.empty,.empty,.empty,.empty,.empty,.empty,.empty],1⟩ := by
      decide
    exact ((init_guarded _).good_of_ok _ built).1.toSound
  have settled := (sound.lookLoop_ends_iff (-8)).mp ⟨rounds,index,ends⟩
  exact absurd settled (by decide)

end IndyNode.Revocation

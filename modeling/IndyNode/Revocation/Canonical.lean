import IndyNode.Revocation.Run

/-! The stored form of an entry written with sorting. From the second entry on
the tracked list is strictly increasing and the other list empty; the first
entry is stored as its author wrote it. -/
namespace IndyNode.Revocation
open Semantics.Registry

section Values
variable {ι : Type} [LinearOrder ι]

/-- The tracked list is strictly increasing, the other list is empty. -/
def Canonical (kind : Kind) (value : EntryValue ι) : Prop :=
  (value.change.listed kind.kept).Pairwise (· < ·) ∧ value.change.listed kind.kept.opposite = []

private theorem sortedIndices_increasing (indices removed added : List ι) :
    (sortedIndices indices removed added).Pairwise (· < ·) := by
  have ordered : (sortedIndices indices removed added).Pairwise (· ≤ ·) :=
    List.pairwise_insertionSort (· ≤ ·) _
  have distinct := (sortedIndices_spec indices removed added).1
  exact (ordered.and distinct).imp (fun both => lt_of_le_of_ne both.1 both.2)

private theorem withIndices_canonical (kind : Kind) (value : EntryValue ι) (indices removed added : List ι) :
    Canonical kind (kind.withIndices value (sortedIndices indices removed added)) := by
  refine ⟨?_,withIndices_opposite kind value _⟩
  rw [withIndices_kept]
  exact sortedIndices_increasing indices removed added

private theorem Canonical.determined {kind : Kind} {value other : EntryValue ι}
    (canonical : Canonical kind value) (canonical_other : Canonical kind other)
    (same : ∀ i, i ∈ value.change.listed kind.kept ↔ i ∈ other.change.listed kind.kept) :
    value.change = other.change := by
  have tracked : value.change.listed kind.kept = other.change.listed kind.kept := by
    have perm : (value.change.listed kind.kept).Perm (other.change.listed kind.kept) :=
      (List.perm_ext_iff_of_nodup (canonical.1.imp ne_of_lt) (canonical_other.1.imp ne_of_lt)).mpr same
    exact perm.eq_of_pairwise (fun _ _ _ _ below above => absurd below (not_lt_of_gt above))
      canonical.1 canonical_other.1
  have opposite := canonical.2.trans canonical_other.2.symm
  cases status : kind.kept with
  | issued =>
    rw [status] at tracked opposite
    exact congrArg₂ Change.mk tracked opposite
  | revoked =>
    rw [status] at tracked opposite
    exact congrArg₂ Change.mk opposite tracked

end Values

section Runs
variable {ι : Type} [LinearOrder ι] [PyStr ι] [PyHash ι]

/-- Accepted entries of one registry, each written with sorting, between
arbitrary transactions that do not concern it. -/
inductive SortedRun (id : String) (start : DomainState ι) : List (Txn ι) → DomainState ι → Prop
  | start : SortedRun id start [] start
  | entry (history : List (Txn ι)) (before after : DomainState ι) (txn : Txn ι)
      (authorize : (edit owner : Bool) → Except Raised Unit)
      (earlier : SortedRun id start history before) (mine : txn.request.revocRegDefId = id)
      (passes : dynamicValidation authorize before txn.request = .ok ())
      (writes : updateState false before txn = .ok after) :
      SortedRun id start (history ++ [txn]) after
  | foreign (history : List (Txn ι)) (before after : DomainState ι)
      (earlier : SortedRun id start history before) (untouched : Untouched id before after) :
      SortedRun id start history after

/-- The entry in force after a run: none, the first one as it came, or a
canonical one. -/
inductive Sorted (kind : Kind) : List (Txn ι) → Option (EntryRecord ι) → Prop
  | unwritten : Sorted kind [] none
  | first (txn : Txn ι) : Sorted kind [txn] (some (txn.record txn.request.value))
  | later (first : Txn ι) (rest : List (Txn ι)) (entry : EntryRecord ι) (more : rest ≠ [])
      (canonical : Canonical kind entry.value) : Sorted kind (first::rest) (some entry)

private theorem SortedRun.inForce {id : String} {kind : Kind} {start final : DomainState ι}
    {history : List (Txn ι)} (run : SortedRun id start history final) (fresh : Fresh id kind start) :
    ∃ current, InForce id kind current final ∧ Sorted kind history current := by
  induction run with
  | start => exact ⟨none,fresh.inForce,.unwritten⟩
  | entry history before after txn authorize _ mine passes writes ih =>
    obtain ⟨current,force,sorted⟩ := ih
    rw [force.updates false txn mine] at writes
    obtain ⟨value,written,stored⟩ := bind_success _ _ _ writes
    obtain rfl := Except.ok.inj stored
    refine ⟨_,force.stores txn mine value,?_⟩
    cases current with
    | none =>
      cases sorted
      obtain rfl := Except.ok.inj written
      exact .first txn
    | some entry =>
      obtain rfl := Except.ok.inj written
      have canonical := withIndices_canonical kind txn.request.value
        (entry.value.change.listed kind.kept) (txn.request.value.change.listed kind.kept.opposite)
        (txn.request.value.change.listed kind.kept)
      cases sorted with
      | first => exact .later _ [txn] _ (by simp) canonical
      | later first rest => exact .later first (rest ++ [txn]) _ (by simp) canonical
  | foreign history before after _ untouched ih =>
    obtain ⟨current,force,sorted⟩ := ih
    exact ⟨current,force.foreign untouched,sorted⟩

private theorem SortedRun.canonical_iff {id : String} {kind : Kind} {start final : DomainState ι}
    {first : Txn ι} {rest : List (Txn ι)} (run : SortedRun id start (first::rest) final)
    (fresh : Fresh id kind start) :
    ∃ entry, final (revocEntryPath id) = some ⟨.entry entry,entry.seqNo,entry.txnTime⟩ ∧
      (Canonical kind entry.value ↔ rest ≠ [] ∨ Canonical kind first.request.value) := by
  obtain ⟨current,force,sorted⟩ := run.inForce fresh
  cases sorted with
  | first => exact ⟨_,force.entry,by simp⟩
  | later _ _ entry more canonical => exact ⟨entry,force.entry,by simp [more,canonical]⟩

private theorem SortedRun.split {id : String} {start final : DomainState ι} {history : List (Txn ι)}
    (run : SortedRun id start history final) (earlier later : List (Txn ι)) (cut : history = earlier ++ later) :
    ∃ middle, SortedRun id start earlier middle ∧ SortedRun id middle later final := by
  induction run generalizing later with
  | start =>
    obtain ⟨rfl,rfl⟩ := List.append_eq_nil_iff.mp cut.symm
    exact ⟨start,.start,.start⟩
  | entry history before after txn authorize reached mine passes writes ih =>
    cases later using List.reverseRecOn with
    | nil =>
      rw [List.append_nil] at cut
      exact ⟨after,cut ▸ .entry history before after txn authorize reached mine passes writes,.start⟩
    | append_singleton later last _ =>
      rw [← List.append_assoc] at cut
      obtain ⟨same,rfl⟩ := List.append_singleton_inj.mp cut
      obtain ⟨middle,head,tail⟩ := ih later same
      exact ⟨middle,head,.entry later before after txn authorize tail mine passes writes⟩
  | foreign history before after _ untouched ih =>
    obtain ⟨middle,head,tail⟩ := ih later cut
    exact ⟨middle,head,.foreign later before after tail untouched⟩

/-- After each entry of the run the stored value is canonical. -/
def CanonicalThroughout (id : String) (kind : Kind) (start : DomainState ι) (history : List (Txn ι))
    (final : DomainState ι) : Prop :=
  ∀ earlier later middle, history = earlier ++ later → earlier ≠ [] → SortedRun id start earlier middle →
    SortedRun id middle later final →
    ∃ entry, middle (revocEntryPath id) = some ⟨.entry entry,entry.seqNo,entry.txnTime⟩ ∧
      Canonical kind entry.value

private theorem SortedRun.throughout_iff {id : String} {kind : Kind} {start final : DomainState ι}
    {first : Txn ι} {rest : List (Txn ι)} (run : SortedRun id start (first::rest) final)
    (fresh : Fresh id kind start) :
    CanonicalThroughout id kind start (first::rest) final ↔ Canonical kind first.request.value := by
  constructor
  · intro throughout
    obtain ⟨middle,head,tail⟩ := run.split [first] rest rfl
    obtain ⟨entry,stored,canonical⟩ := throughout [first] rest middle rfl (by simp) head tail
    obtain ⟨entry',stored',exact⟩ := head.canonical_iff fresh
    rw [stored] at stored'
    obtain rfl : entry = entry' := by simpa using (congrArg (Option.map Leaf.record) stored')
    simpa using exact.mp canonical
  · intro canonical earlier later middle cut started head _
    cases earlier with
    | nil => exact absurd rfl started
    | cons txn more =>
      obtain ⟨rfl,_⟩ := List.cons.inj cut
      obtain ⟨entry,stored,exact⟩ := head.canonical_iff fresh
      exact ⟨entry,stored,exact.mpr (.inr canonical)⟩

end Runs

/-- After every run of sorted writes the stored value is canonical, except that
the first entry is canonical only if its author wrote it so, and then it is after
every entry. The lists of two runs that end in canonical values depend on the set of tracked indices alone. -/
theorem sorted_entry_canonical_iff (id : String) (kind : Kind)
    (start start_other final final_other : DomainState Int) (first first_other : Txn Int)
    (rest rest_other : List (Txn Int)) (fresh : Fresh id kind start)
    (fresh_other : Fresh id kind start_other) (run : SortedRun id start (first::rest) final)
    (run_other : SortedRun id start_other (first_other::rest_other) final_other) :
    (CanonicalThroughout id kind start (first::rest) final ↔ Canonical kind first.request.value) ∧
    ∃ entry entry_other,
      final (revocEntryPath id) = some ⟨.entry entry,entry.seqNo,entry.txnTime⟩ ∧
      final_other (revocEntryPath id) =
        some ⟨.entry entry_other,entry_other.seqNo,entry_other.txnTime⟩ ∧
      (Canonical kind entry.value ↔ rest ≠ [] ∨ Canonical kind first.request.value) ∧
      ((rest ≠ [] ∨ Canonical kind first.request.value) →
        (rest_other ≠ [] ∨ Canonical kind first_other.request.value) →
        (∀ i, i ∈ entry.value.change.listed kind.kept ↔
          i ∈ entry_other.value.change.listed kind.kept) →
        entry.value.change = entry_other.value.change) := by
  obtain ⟨entry,stored,exact⟩ := run.canonical_iff fresh
  obtain ⟨entry_other,stored_other,exact_other⟩ := run_other.canonical_iff fresh_other
  refine ⟨run.throughout_iff fresh,entry,entry_other,stored,stored_other,exact,?_⟩
  intro regular regular_other same
  exact (exact.mpr regular).determined (exact_other.mpr regular_other) same

def afterFirst (issued revoked : List Int) : DomainState Int :=
  setToState sampleState (sampleTxn none "a" issued revoked 1)
    (sampleTxn none "a" issued revoked 1).request.value

theorem afterFirst_run (issued revoked : List Int) (disjoint : ∀ i ∈ issued, i ∉ revoked) :
    SortedRun "did:4:cred:CL_ACCUM:tag" sampleState [sampleTxn none "a" issued revoked 1]
      (afterFirst issued revoked) := by
  refine .entry [] sampleState _ _ (fun _ _ => .ok ()) .start rfl ?_ ?_
  · rw [sampleState_fresh.inForce.validates _ rfl,ok_bind,validate_ok]
    exact ⟨disjoint,rfl⟩
  · rw [sampleState_fresh.inForce.updates false _ rfl]
    rfl

def afterSecond (first issued revoked : List Int) : DomainState Int :=
  setToState (afterFirst [] first) (sampleTxn (some "a") "b" issued revoked 2)
    (revokedStrategy.withIndices (sampleTxn (some "a") "b" issued revoked 2).request.value
      (sortedIndices first issued revoked))

/-- Two registries reach the same set of revoked indices over different entries. -/
theorem same_indices_stored_alike :
    ∃ entry entry_other,
      afterSecond [5,-3] [5] [1] (revocEntryPath "did:4:cred:CL_ACCUM:tag") =
        some ⟨.entry entry,entry.seqNo,entry.txnTime⟩ ∧
      afterSecond [1] [] [-3] (revocEntryPath "did:4:cred:CL_ACCUM:tag") =
        some ⟨.entry entry_other,entry_other.seqNo,entry_other.txnTime⟩ ∧
      Canonical revokedStrategy entry.value ∧ entry.value.change = entry_other.value.change ∧
      ¬CanonicalThroughout "did:4:cred:CL_ACCUM:tag" revokedStrategy sampleState
        [sampleTxn none "a" [] [5,-3] 1,sampleTxn (some "a") "b" [5] [1] 2] (afterSecond [5,-3] [5] [1]) := by
  have run : SortedRun _ sampleState [sampleTxn none "a" [] [5,-3] 1,sampleTxn (some "a") "b" [5] [1] 2]
      (afterSecond [5,-3] [5] [1]) :=
    .entry _ _ _ _ (fun _ _ => .ok ()) (afterFirst_run [] [5,-3] (by simp)) rfl (by decide) rfl
  have run_other : SortedRun _ sampleState [sampleTxn none "a" [] [1] 1,sampleTxn (some "a") "b" [] [-3] 2]
      (afterSecond [1] [] [-3]) :=
    .entry _ _ _ _ (fun _ _ => .ok ()) (afterFirst_run [] [1] (by simp)) rfl (by decide) rfl
  obtain ⟨throughout,entry,entry_other,stored,stored_other,exact,alike⟩ := sorted_entry_canonical_iff _ _ _ _ _ _
    _ _ _ _ sampleState_fresh sampleState_fresh run run_other
  have tracked : entry.value.change.revoked = [-3,1] ∧ entry_other.value.change.revoked = [-3,1] := by
    cases stored
    cases stored_other
    decide
  refine ⟨entry,entry_other,stored,stored_other,exact.mpr (.inl (by simp)),
    alike (.inl (by simp)) (.inl (by simp)) fun i => ?_,fun regular => ?_⟩
  · rw [show revokedStrategy.kept = .revoked from rfl,Change.listed,Change.listed,tracked.1,tracked.2]
  · exact absurd (throughout.mp regular).1 (by decide)

/-- The list of a first entry is neither sorted nor freed of repetitions, and
the issued indices stay next to it. -/
theorem first_entry_stored_as_written :
    SortedRun "did:4:cred:CL_ACCUM:tag" sampleState [sampleTxn none "a" [7] [5,3,3] 1]
        (afterFirst [7] [5,3,3]) ∧
      ∃ entry, afterFirst [7] [5,3,3] (revocEntryPath "did:4:cred:CL_ACCUM:tag") =
          some ⟨.entry entry,entry.seqNo,entry.txnTime⟩ ∧
        entry.value.change = ⟨[7],[5,3,3]⟩ ∧ ¬Canonical revokedStrategy entry.value := by
  refine ⟨afterFirst_run [7] [5,3,3] (by decide),_,rfl,rfl,?_⟩
  intro canonical
  have sorted : [(5 : Int),3,3].Pairwise (· < ·) := canonical.1
  exact absurd sorted (by decide)

end IndyNode.Revocation

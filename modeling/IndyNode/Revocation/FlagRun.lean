import IndyNode.Revocation.Flag
import IndyNode.Revocation.Run

/-! Nodes that settle the flag before they use it compute the domain state of a
caught-up node; a node that applies an entry while the flag is still uncommitted
need not. -/
namespace IndyNode.Revocation
open Semantics.Registry

/-- The flag's record after a list of batches. -/
def flagAfter (batches : List ConfigBatch) : Option FlagState :=
  batches.foldl ConfigBatch.apply (fun _ => none) (flagPath compatOrdering)

def carriesFlag (batch : ConfigBatch) : Bool := batch.flags.any (·.name = compatOrdering)

private theorem flagPath_injective (first second : String) (same : flagPath first = flagPath second) :
    first = second := by
  have lists := congrArg String.toList same
  exact String.toList_inj.mp (by simpa [flagPath] using lists)

private theorem apply_other (batch : ConfigBatch) (state : ConfigState)
    (other : carriesFlag batch = false) :
    batch.apply state (flagPath compatOrdering) = state (flagPath compatOrdering) := by
  simp only [carriesFlag,List.any_eq_false,decide_eq_true_eq] at other
  unfold ConfigBatch.apply
  generalize batch.flags = flags at other
  induction flags generalizing state with
  | nil => rfl
  | cons txn flags ih =>
    rw [List.foldl_cons,ih _ (fun later member => other later (by simp [member])),setFlag]
    apply Function.update_of_ne
    intro same
    exact other txn (by simp) (flagPath_injective _ _ same).symm

private theorem apply_congr (batch : ConfigBatch) (first second : ConfigState)
    (same : first (flagPath compatOrdering) = second (flagPath compatOrdering)) :
    batch.apply first (flagPath compatOrdering) = batch.apply second (flagPath compatOrdering) := by
  unfold ConfigBatch.apply
  generalize batch.flags = flags
  induction flags generalizing first second with
  | nil => exact same
  | cons txn flags ih =>
    rw [List.foldl_cons,List.foldl_cons]
    apply ih
    simp only [setFlag,Function.update_apply,same]

/-- Batches without the flag can be left out. -/
private theorem flagAfter_filter (batches : List ConfigBatch) :
    flagAfter batches = flagAfter (batches.filter carriesFlag) := by
  unfold flagAfter
  have general : ∀ first second : ConfigState,
      first (flagPath compatOrdering) = second (flagPath compatOrdering) →
      batches.foldl ConfigBatch.apply first (flagPath compatOrdering) =
        (batches.filter carriesFlag).foldl ConfigBatch.apply second (flagPath compatOrdering) := by
    induction batches with
    | nil => exact fun first second same => same
    | cons batch batches ih =>
      intro first second same
      cases carries : carriesFlag batch with
      | true =>
        rw [List.filter_cons_of_pos carries]
        exact ih _ _ (apply_congr batch first second same)
      | false =>
        rw [List.filter_cons_of_neg (by simp [carries])]
        apply ih
        rw [apply_other batch first carries,same]
  exact general _ _ rfl

private theorem configRoots_snoc (state : ConfigState) (batches : List ConfigBatch)
    (batch : ConfigBatch) : configRoots state (batches ++ [batch]) =
      configRoots state batches ++
        [(batch.time,(batches ++ [batch]).foldl ConfigBatch.apply state)] := by
  induction batches generalizing state with
  | nil => rfl
  | cons first batches ih =>
    rw [List.cons_append,configRoots,configRoots,ih]
    rfl

private theorem flagBatches_eq (batches : List ConfigBatch) (txnTime : Nat) :
    flagBatches batches txnTime = (batches.filter (·.time ≤ txnTime)).filter carriesFlag := by
  rw [List.filter_filter,flagBatches]
  apply List.filter_congr
  intro batch _
  rw [Bool.eq_iff_iff]
  simp [carriesFlag,and_comm]

/-- The lookup sees the committed batches with the flag and nothing else. -/
theorem lookupKey_eq (batches : List ConfigBatch) (txnTime : Nat)
    (sorted : batches.Pairwise (·.time ≤ ·.time)) :
    lookupKey batches compatOrdering txnTime = flagAfter (flagBatches batches txnTime) := by
  rw [flagBatches_eq,← flagAfter_filter]
  unfold lookupKey
  induction batches using List.reverseRecOn with
  | nil => rfl
  | append_singleton batches batch ih =>
    obtain ⟨earlier,_,order⟩ := List.pairwise_append.mp sorted
    rw [configRoots_snoc,List.filter_append,List.filter_append]
    by_cases reached : batch.time ≤ txnTime
    · have every : batches.filter (·.time ≤ txnTime) = batches := by
        apply List.filter_eq_self.mpr
        intro other member
        have bound := order other member batch (by simp)
        rw [decide_eq_true_eq]
        omega
      simp [reached,every,flagAfter]
    · simp only [reached,List.filter_cons,List.filter_nil,decide_false,Bool.false_eq_true,if_false,
        List.append_nil]
      exact ih earlier

private theorem useLegacySort_congr (legacySortConfig : Bool) (committed batches : List ConfigBatch)
    (txnTime : Nat) (sorted : committed.Pairwise (·.time ≤ ·.time))
    (sorted_all : batches.Pairwise (·.time ≤ ·.time))
    (same : flagBatches committed txnTime = flagBatches batches txnTime) :
    useLegacySort legacySortConfig committed txnTime =
      useLegacySort legacySortConfig batches txnTime := by
  unfold useLegacySort
  rw [lookupKey_eq committed txnTime sorted,lookupKey_eq batches txnTime sorted_all,same]

private theorem schedules_config_first {ι : Type} (batches : List ConfigBatch) (txns : List (Txn ι)) :
    Schedules batches txns (batches.map .commitConfig ++ txns.map .applyEntry) where
  config := by
    have none_config : (txns.map (Event.applyEntry : Txn ι → Event ι)).filterMap Event.config? = [] := by
      simp [List.filterMap_map,Event.config?]
    have all_config : (batches.map (Event.commitConfig : ConfigBatch → Event ι)).filterMap
        Event.config? = batches := by
      simp [List.filterMap_map,Function.comp_def,Event.config?]
    rw [List.filterMap_append,none_config,all_config,List.append_nil]
  domain := by
    have none_entry : (batches.map (Event.commitConfig : ConfigBatch → Event ι)).filterMap
        Event.entry? = [] := by
      simp [List.filterMap_map,Event.entry?]
    have all_entry : (txns.map (Event.applyEntry : Txn ι → Event ι)).filterMap Event.entry? = txns := by
      simp [List.filterMap_map,Function.comp_def,Event.entry?]
    rw [List.filterMap_append,none_entry,all_entry,List.nil_append]

section Nodes
variable {ι : Type} [DecidableEq ι] [PyHash ι] [LE ι] [DecidableLE ι]

/-- What a node computes that has the whole config ledger from the start. -/
def caughtUp (legacySortConfig : Bool) (batches : List ConfigBatch) (start : DomainState ι)
    (txns : List (Txn ι)) : Except Raised (DomainState ι) :=
  txns.foldlM (fun domain txn =>
    updateState (useLegacySort legacySortConfig batches txn.txnTime) domain txn) start

/-- The first entry of a registry is stored as it came, in either mode. -/
private theorem updateState_first (domain : DomainState ι) (txn : Txn ι) (first second : Bool)
    (absent : domain (revocEntryPath txn.request.revocRegDefId) = none) :
    updateState first domain txn = updateState second domain txn := by
  simp [updateState,getCurrentRevocEntryAndRevocDef,currentEntry,absent,Kind.writtenValue]
  cases domain txn.request.revocRegDefId <;> rfl

private theorem settled_step (legacySortConfig : Bool) (batches : List ConfigBatch)
    (sorted : batches.Pairwise (·.time ≤ ·.time)) (node : Node ι) (txn : Txn ι)
    (committed : node.committed <+: batches)
    (clear : settled legacySortConfig batches node (.applyEntry txn) = true) :
    updateState (useLegacySort legacySortConfig node.committed txn.txnTime) node.domain txn =
      updateState (useLegacySort legacySortConfig batches txn.txnTime) node.domain txn := by
  simp only [settled,Bool.or_eq_true,Bool.not_eq_true',Option.isNone_iff_eq_none,decide_eq_true_eq]
    at clear
  rcases clear with (off | first) | flags
  · have sorts (committed : List ConfigBatch) : useLegacySort false committed txn.txnTime = false := by
      unfold useLegacySort
      split <;> simp
    rw [off,sorts,sorts]
  · exact updateState_first node.domain txn _ _ first
  · rw [useLegacySort_congr legacySortConfig node.committed batches txn.txnTime
      (sorted.sublist committed.sublist) sorted flags]

/-- A settled schedule computes what a caught-up node computes. -/
theorem settled_run (legacySortConfig : Bool) (batches : List ConfigBatch)
    (sorted : batches.Pairwise (·.time ≤ ·.time)) (events : List (Event ι)) (node : Node ι)
    (committed : node.committed ++ events.filterMap Event.config? <+: batches)
    (clear : permitted (nodeStep legacySortConfig) (settled legacySortConfig batches) events node =
      true) :
    (do return (← events.foldlM (nodeStep legacySortConfig) node).domain) =
      caughtUp legacySortConfig batches node.domain (events.filterMap Event.entry?) := by
  induction events generalizing node with
  | nil => rfl
  | cons event events ih =>
    rw [permitted,Bool.and_eq_true] at clear
    cases event with
    | commitConfig batch =>
      refine ih {node with committed := node.committed ++ [batch]} ?_ clear.2
      simpa [Event.config?] using committed
    | applyEntry txn =>
      have early : node.committed <+: batches := (List.prefix_append _ _).trans committed
      have same := settled_step legacySortConfig batches sorted node txn early clear.1
      have later := clear.2
      simp only [List.foldlM_cons,List.filterMap_cons,Event.entry?,caughtUp,nodeStep,same] at later ⊢
      cases written : updateState (useLegacySort legacySortConfig batches txn.txnTime) node.domain txn with
      | error error => simp
      | ok domain =>
        rw [written] at later
        exact ih {node with domain := domain} committed later

private theorem settled_entries (legacySortConfig : Bool) (batches : List ConfigBatch)
    (txns : List (Txn ι)) (node : Node ι) (complete : node.committed = batches) :
    permitted (nodeStep legacySortConfig) (settled legacySortConfig batches)
      (txns.map .applyEntry) node = true := by
  refine permitted_of_invariant _ _ (fun events state => state.committed = batches ∧
    ∀ event ∈ events, event.config? = none) _ _ ⟨complete,by simp [Event.config?]⟩ ?_ ?_
  · intro event rest state next ⟨whole,entries⟩ steps
    refine ⟨?_,fun later member => entries later (by simp [member])⟩
    cases event with
    | commitConfig batch => simp [Event.config?] at entries
    | applyEntry txn =>
      obtain ⟨domain,_,done⟩ := bind_success _ _ _ steps
      rw [← Except.ok.inj done]
      exact whole
  · intro event rest state ⟨whole,entries⟩
    cases event with
    | commitConfig batch => rfl
    | applyEntry txn => simp [settled,whole]

private theorem settled_config_first (legacySortConfig : Bool) (batches : List ConfigBatch)
    (txns : List (Txn ι)) (start : DomainState ι) :
    Settled legacySortConfig batches start (batches.map .commitConfig ++ txns.map .applyEntry) := by
  have general : ∀ later done, done ++ later = batches →
      permitted (nodeStep legacySortConfig) (settled legacySortConfig batches)
        (later.map .commitConfig ++ txns.map .applyEntry) ⟨done,start⟩ = true := by
    intro later
    induction later with
    | nil =>
      intro done complete
      exact settled_entries legacySortConfig batches txns ⟨done,start⟩ (by simpa using complete)
    | cons batch later ih =>
      intro done complete
      exact ih (done ++ [batch]) (by simpa using complete)
  exact general batches [] rfl

end Nodes

/-- All nodes whose schedules are settled, among them every node that commits
the config ledger first, compute one domain state. -/
theorem settled_schedules_agree (legacySortConfig : Bool) (batches : List ConfigBatch)
    (txns : List (Txn Int)) (start : DomainState Int)
    (sorted : batches.Pairwise (·.time ≤ ·.time)) :
    (∀ first second : List (Event Int),
      Schedules batches txns first → Settled legacySortConfig batches start first →
      Schedules batches txns second → Settled legacySortConfig batches start second →
      runNode legacySortConfig start first = runNode legacySortConfig start second) ∧
    Schedules batches txns (batches.map .commitConfig ++ txns.map .applyEntry) ∧
    Settled legacySortConfig batches start (batches.map .commitConfig ++ txns.map .applyEntry) := by
  have computes (events : List (Event Int)) (schedule : Schedules batches txns events)
      (clear : Settled legacySortConfig batches start events) :
      runNode legacySortConfig start events = caughtUp legacySortConfig batches start txns := by
    rw [← schedule.domain]
    exact settled_run legacySortConfig batches sorted events ⟨[],start⟩
      (by simpa using schedule.config) clear
  refine ⟨?_,?_,?_⟩
  · intro first second schedule clear schedule_two clear_two
    rw [computes first schedule clear,computes second schedule_two clear_two]
  · exact schedules_config_first batches txns
  · exact settled_config_first legacySortConfig batches txns start

def sampleBatches : List ConfigBatch := [⟨30,[⟨compatOrdering,some "False",1⟩]⟩]

def sampleEntries : List (Txn Int) :=
  [sampleTxn none "a" [] [1] 1,sampleTxn (some "a") "b" [] [8] 11]

/-- The first entry, then the config batch, then the second entry. -/
def flagInBetween : List (Event Int) :=
  [.applyEntry (sampleTxn none "a" [] [1] 1),.commitConfig ⟨30,[⟨compatOrdering,some "False",1⟩]⟩,
    .applyEntry (sampleTxn (some "a") "b" [] [8] 11)]

/-- The second entry, whose time is later than that of the config batch, is
applied while the batch is uncommitted. -/
def flagTooLate : List (Event Int) :=
  [.applyEntry (sampleTxn none "a" [] [1] 1),.applyEntry (sampleTxn (some "a") "b" [] [8] 11),
    .commitConfig ⟨30,[⟨compatOrdering,some "False",1⟩]⟩]

theorem settled_flag_in_between :
    runNode true sampleState flagInBetween =
      runNode true sampleState
        (sampleBatches.map .commitConfig ++ sampleEntries.map .applyEntry) := by
  have general := settled_schedules_agree true sampleBatches sampleEntries sampleState (by decide)
  exact general.1 _ _ ⟨⟨[],rfl⟩,rfl⟩ rfl general.2.1 general.2.2

/-- The revoked list a run has stored. -/
def storedRevoked (run : Except Raised (DomainState Int)) (id : String) : Option (List Int) :=
  match run with
  | .ok state =>
    match state (revocEntryPath id) with
    | some ⟨.entry entry,_,_⟩ => entry.value.revoked
    | _ => none
  | .error _ => none

theorem flag_too_late_differs :
    Schedules sampleBatches sampleEntries flagInBetween ∧
      Schedules sampleBatches sampleEntries flagTooLate ∧
      storedRevoked (runNode true sampleState flagInBetween) "did:4:cred:CL_ACCUM:tag" = some [1,8] ∧
      storedRevoked (runNode true sampleState flagTooLate) "did:4:cred:CL_ACCUM:tag" = some [8,1] :=
  ⟨⟨⟨[],rfl⟩,rfl⟩,⟨⟨[],rfl⟩,rfl⟩,by decide,by decide⟩

end IndyNode.Revocation

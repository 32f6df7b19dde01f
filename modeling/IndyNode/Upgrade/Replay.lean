import IndyNode.Upgrade.Upgrader

/-! The upgrade that stands after a sequence of transactions, for a node that handled
them one by one and for one that starts on their ledger. -/
namespace IndyNode.Upgrade

section Orders
variable {V : Type} (setup : UpgradeSetup V)

def startData (txn : UpgradeTxn) : Option (UpgradeLogData V) :=
  match order setup txn with
  | some (.start data _) => some data
  | _ => none

def cancelVersion (txn : UpgradeTxn) : Option V :=
  match order setup txn with
  | some (.cancel version) => some version
  | _ => none

theorem startData_isStart (txn : UpgradeTxn) (data : UpgradeLogData V)
    (started : startData setup txn = some data) : isStart txn = true := by
  rw [startData,order] at started
  cases parsed : setup.srcVersionCls (txn.payload.package.getD setup.upgradeEntry) txn.payload.version with
  | none => simp [parsed] at started
  | some version =>
    cases kind : txn.payload.action with
    | start => simp [isStart,kind]
    | cancel => simp [parsed,kind] at started

variable [DecidableEq V]

/-- The last START this node follows, unless a later CANCEL is for its version. -/
def standing (txns : List UpgradeTxn) : Option (UpgradeLogData V) :=
  (lastWith (startData setup) txns).bind fun found =>
    if found.2.any (fun txn => cancelVersion setup txn = some found.1.version) then none
    else some found.1

end Orders

section Live
variable {V : Type} [DecidableEq V] (setup : UpgradeSetup V)

/-- No upgrade has been started: the log tells of scheduling only. -/
def Unstarted (log : List (LogEvent V)) : Prop :=
  ∀ event ∈ log, event.evType = .scheduled ∨ event.evType = .cancelled

omit [DecidableEq V] in
private theorem Unstarted.not_performed {up : Upgrader V} (unstarted : Unstarted up.actionLog) (id : String) :
    up.performed id = false := by
  rw [Upgrader.performed]
  split
  · rfl
  · rename_i event last
    rcases unstarted event (List.mem_of_getLast? last) with kind | kind <;> simp [kind]

omit [DecidableEq V] in
private theorem Unstarted.append {up : Upgrader V} (unstarted : Unstarted up.actionLog) (kind : EventType)
    (data : UpgradeLogData V) (planned : kind = .scheduled ∨ kind = .cancelled) :
    Unstarted (up.append kind data).actionLog := by
  intro event member
  rcases List.mem_append.mp member with old | new
  · exact unstarted event old
  · rw [List.mem_singleton.mp new]
    exact planned

omit [DecidableEq V] in
private theorem Unstarted.cancelled {up : Upgrader V} (unstarted : Unstarted up.actionLog) :
    Unstarted up.cancelScheduledUpgrade.actionLog := by
  rw [Upgrader.cancelScheduledUpgrade]
  split
  · exact unstarted
  · rename_i data _
    have still : Unstarted up.unscheduleAction.actionLog := unstarted
    exact still.append .cancelled data (.inr rfl)

private theorem Unstarted.handled {up : Upgrader V} (unstarted : Unstarted up.actionLog) (now : Nat)
    (txn : UpgradeTxn) : Unstarted (handleUpgradeTxn now up setup txn).actionLog := by
  rw [handleUpgradeTxn]
  split
  · exact unstarted
  · rename_i asked _
    cases asked with
    | start data failTimeout =>
      rw [Upgrader.follow]
      split
      · exact unstarted
      · split
        · exact unstarted
        · exact unstarted.cancelled.append _ _ (.inl rfl)
    | cancel version =>
      rw [Upgrader.follow]
      split
      · exact unstarted.cancelled
      · exact unstarted

private theorem handled_scheduled {up : Upgrader V} (unstarted : Unstarted up.actionLog) (now : Nat)
    (txn : UpgradeTxn) : (handleUpgradeTxn now up setup txn).scheduledAction =
      (startData setup txn).or
        (if cancelVersion setup txn = up.scheduledAction.map (·.version) then none else up.scheduledAction) := by
  rw [handleUpgradeTxn,startData,cancelVersion]
  cases order setup txn with
  | none => cases up.scheduledAction <;> simp
  | some asked =>
    cases asked with
    | start data failTimeout =>
      simp only [Upgrader.follow,unstarted.not_performed,Bool.false_eq_true,if_false,Option.some_or]
      split
      · assumption
      · rfl
    | cancel version =>
      simp only [Upgrader.follow,Option.none_or]
      by_cases same : up.scheduledAction.map (·.version) = some version
      · rw [if_pos same,if_pos same.symm]
        exact cancelled_scheduled up
      · rw [if_neg same,if_neg fun equal => same equal.symm]

private theorem standing_snoc (txns : List UpgradeTxn) (txn : UpgradeTxn) :
    standing setup (txns ++ [txn]) = (startData setup txn).or
      (if cancelVersion setup txn = (standing setup txns).map (·.version) then none
        else standing setup txns) := by
  rw [standing,lastWith_snoc]
  cases startData setup txn with
  | some data => simp
  | none =>
    rw [standing]
    cases lastWith (startData setup) txns with
    | none => simp
    | some found =>
      obtain ⟨data,later⟩ := found
      simp only [Option.map_none,Option.map_some,Option.none_or,Option.bind_some,List.any_append,
        List.any_cons,List.any_nil,Bool.or_false]
      cases later.any fun txn => cancelVersion setup txn = some data.version with
      | true => simp
      | false => by_cases now : cancelVersion setup txn = some data.version <;> simp [now]

/-- A node that handles every transaction of the ledger when it is committed. -/
def live (clock : Nat → Nat) (up : Upgrader V) (txns : List UpgradeTxn) : Upgrader V :=
  txns.foldl (fun up txn => handleUpgradeTxn (clock txn.seqNo) up setup txn) up

private theorem live_standing (clock : Nat → Nat) (up : Upgrader V) (idle : up.scheduledAction = none)
    (unstarted : Unstarted up.actionLog) (txns : List UpgradeTxn) :
    (live setup clock up txns).scheduledAction = standing setup txns ∧
      Unstarted (live setup clock up txns).actionLog := by
  induction txns using List.reverseRecOn with
  | nil => exact ⟨idle,unstarted⟩
  | append_singleton txns txn ih =>
    rw [live,List.foldl_append]
    refine ⟨?_,ih.2.handled setup _ txn⟩
    rw [List.foldl_cons,List.foldl_nil,standing_snoc,← ih.1]
    exact handled_scheduled setup ih.2 _ txn

end Live

section Ledger

theorem numbered_sorted (ledger : List LedgerTxn) :
    (numbered ledger).Pairwise fun first second => first.seqNo < second.seqNo := by
  have indices : (ledger.zipIdx 1).Pairwise fun first second => first.2 < second.2 := by
    rw [← List.pairwise_map (f := Prod.snd) (R := (· < ·)),List.zipIdx_map_snd]
    exact List.pairwise_lt_range'
  rw [numbered,List.pairwise_filterMap]
  refine indices.imp ?_
  rintro ⟨first,i⟩ ⟨second,j⟩ less
  cases first <;> cases second <;> simp_all

private theorem numbered_bounds (ledger : List LedgerTxn) (txn : UpgradeTxn) (member : txn ∈ numbered ledger) :
    1 ≤ txn.seqNo ∧ txn.seqNo ≤ ledger.length := by
  obtain ⟨⟨entry,index⟩,listed,made⟩ := List.mem_filterMap.mp member
  have range := List.mem_zipIdx listed
  cases entry with
  | other => simp at made
  | poolUpgrade payload =>
    obtain rfl := Option.some.inj made
    refine ⟨range.1,?_⟩
    change index ≤ ledger.length
    omega

private theorem filter_after (before later : List UpgradeTxn) (txn : UpgradeTxn)
    (sorted : (before ++ txn :: later).Pairwise fun first second => first.seqNo < second.seqNo) :
    (before ++ txn :: later).filter (fun other => txn.seqNo + 1 ≤ other.seqNo) = later := by
  obtain ⟨_,after,apart⟩ := List.pairwise_append.mp sorted
  have none : before.filter (fun other => txn.seqNo + 1 ≤ other.seqNo) = [] := by
    apply List.filter_eq_nil_iff.mpr
    intro other member
    have less := apart other member txn (List.mem_cons_self ..)
    simp only [decide_eq_true_eq]
    omega
  have all : later.filter (fun other => txn.seqNo + 1 ≤ other.seqNo) = later := by
    apply List.filter_eq_self.mpr
    intro other member
    exact decide_eq_true ((List.pairwise_cons.mp after).1 other member)
  rw [List.filter_append,List.filter_cons,none,all]
  simp

/-- What a start on the ledger looks at: the last START, and every later CANCEL. -/
theorem startInForce_eq (ledger : List LedgerTxn) :
    startInForce ledger = (lastWith (Option.guard isStart) (numbered ledger)).bind fun found =>
      if found.2.any (repeatsVersion found.1) then none else some found.1 := by
  have every : (numbered ledger).filter (fun txn => txn.seqNo ≤ (none : Option Nat).getD ledger.length) =
      numbered ledger :=
    List.filter_eq_self.mpr fun txn member => decide_eq_true (numbered_bounds ledger txn member).2
  rw [startInForce,getUpgradeTxn,if_pos rfl,every,find_reverse]
  cases last : lastWith (Option.guard isStart) (numbered ledger) with
  | none => rfl
  | some found =>
    obtain ⟨started,later⟩ := found
    obtain ⟨before,txn,shape,chosen,_⟩ := (lastWith_some _ _ _ _).mp last
    obtain rfl : txn = started := (Option.guard_eq_some_iff.mp chosen).1
    have after := filter_after before later txn (shape ▸ numbered_sorted ledger)
    simp only [Option.map_some,Option.bind_some,getUpgradeTxn,Bool.false_eq_true,if_false,
      Option.getD_some,shape,after]
    cases cancelled : later.find? (repeatsVersion txn) with
    | none => simp [List.any_eq_false.mpr (List.find?_eq_none.mp cancelled)]
    | some cancel =>
      have repeated : later.any (repeatsVersion txn) = true :=
        List.any_eq_true.mpr ⟨cancel,List.mem_of_find?_eq_some cancelled,List.find?_some cancelled⟩
      simp [repeated]

end Ledger

section Restart
variable {V : Type} [DecidableEq V] (setup : UpgradeSetup V)

omit [DecidableEq V] in
private theorem Unstarted.restarted {up : Upgrader V} (unstarted : Unstarted up.actionLog) (succeeded : Bool) :
    Unstarted (up.restarted succeeded).actionLog := by
  rw [Upgrader.restarted,firstRunLog]
  split
  · rename_i data last
    rcases unstarted _ (List.mem_of_getLast? last) with kind | kind <;> simp at kind
  · exact unstarted

private theorem restarted_scheduled (up : Upgrader V) (unstarted : Unstarted up.actionLog) (now : Nat)
    (succeeded : Bool) (ledger : List LedgerTxn) :
    (processLedger setup now (up.restarted succeeded) ledger).scheduledAction =
      (startInForce ledger).bind (startData setup) := by
  rw [processLedger]
  cases startInForce ledger with
  | none => rfl
  | some started =>
    rw [handled_scheduled setup (unstarted.restarted succeeded)]
    change (startData setup started).or (if _ then none else none) = startData setup started
    split <;> exact Option.or_none

/-- If this node follows the last START, the later CANCELs for its version are those
that repeat its text; if not, no earlier START is left standing. -/
def Reproduced (txns : List UpgradeTxn) (started : UpgradeTxn) (later : List UpgradeTxn) : Prop :=
  match startData setup started with
  | some data => later.any (repeatsVersion started) =
      later.any fun txn => cancelVersion setup txn = some data.version
  | none => ∀ data after, lastWith (startData setup) txns = some (data,after) →
      after.any (fun txn => cancelVersion setup txn = some data.version) = true

def Reproducible (txns : List UpgradeTxn) : Prop :=
  ∀ started later, lastWith (Option.guard isStart) txns = some (started,later) →
    Reproduced setup txns started later

private theorem reproducible_last (txns later : List UpgradeTxn) (started : UpgradeTxn)
    (last : lastWith (Option.guard isStart) txns = some (started,later)) :
    Reproducible setup txns ↔ Reproduced setup txns started later := by
  constructor
  · intro all
    exact all started later last
  · intro holds other after found
    obtain ⟨rfl,rfl⟩ := Prod.mk.inj (Option.some.inj (last.symm.trans found))
    exact holds

omit [DecidableEq V] in
private theorem startData_guard (txn : UpgradeTxn) (passed : Option.guard isStart txn = none) :
    startData setup txn = none := by
  cases started : startData setup txn with
  | none => rfl
  | some data => simp [Option.guard,startData_isStart setup txn data started] at passed

private theorem standing_none (txns : List UpgradeTxn) :
    standing setup txns = none ↔ ∀ data after, lastWith (startData setup) txns = some (data,after) →
      after.any (fun txn => cancelVersion setup txn = some data.version) = true := by
  rw [standing]
  cases lastWith (startData setup) txns with
  | none => simp
  | some found =>
    obtain ⟨data,after⟩ := found
    simp only [Option.bind_some,Option.some.injEq,Prod.mk.injEq]
    constructor
    · rintro gone _ _ ⟨rfl,rfl⟩
      by_contra kept
      rw [if_neg kept] at gone
      exact Option.some_ne_none _ gone
    · intro cancelled
      rw [if_pos (cancelled data after ⟨rfl,rfl⟩)]

/-- After no START, both schedule nothing. After one that this node follows, both look
for a CANCEL behind it, each by its own comparison. Past one that it does not follow,
only the node that was running can still have an upgrade. -/
theorem restart_schedules_same_iff (up : Upgrader V) (idle : up.scheduledAction = none)
    (unstarted : Unstarted up.actionLog) (clock : Nat → Nat) (now : Nat) (succeeded : Bool)
    (ledger : List LedgerTxn) :
    (processLedger setup now ((live setup clock up (numbered ledger)).restarted succeeded)
        ledger).scheduledAction = (live setup clock up (numbered ledger)).scheduledAction ↔
      Reproducible setup (numbered ledger) := by
  obtain ⟨standingNow,still⟩ := live_standing setup clock up idle unstarted (numbered ledger)
  rw [restarted_scheduled setup _ still,startInForce_eq,standingNow]
  cases last : lastWith (Option.guard isStart) (numbered ledger) with
  | none =>
    have none : lastWith (startData setup) (numbered ledger) = none :=
      (lastWith_none _ _).mpr fun txn member =>
        startData_guard setup txn ((lastWith_none _ _).mp last txn member)
    simp [Reproducible,last,standing,none]
  | some found =>
    obtain ⟨started,later⟩ := found
    obtain ⟨before,txn,shape,chosen,follows⟩ := lastWith_narrow _ (startData setup) _ _ _
      (startData_guard setup) last
    obtain rfl : txn = started := (Option.guard_eq_some_iff.mp chosen).1
    rw [reproducible_last setup _ later txn last,Reproduced]
    cases followed : startData setup txn with
    | some data =>
      rw [standing,follows data followed]
      simp only [Option.bind_some]
      cases later.any (repeatsVersion txn) <;>
        cases later.any fun txn => cancelVersion setup txn = some data.version <;> simp [followed]
    | none =>
      have nothing : ((some (txn,later)).bind fun found => if found.2.any (repeatsVersion found.1) then none
          else some found.1).bind (startData setup) = none := by
        simp only [Option.bind_some]
        split <;> simp [followed]
      rw [nothing,eq_comm,standing_none]

end Restart

section Samples

theorem cancelled_start_reproduced :
    (processLedger sampleSetup 0 ((live sampleSetup id idleUpgrader (numbered
        [.poolUpgrade (startFor "Alpha" "1.1" false 5),.other,.poolUpgrade (cancelOf "1.1" 6)])).restarted true)
      [.poolUpgrade (startFor "Alpha" "1.1" false 5),.other,.poolUpgrade (cancelOf "1.1" 6)]).scheduledAction =
    (live sampleSetup id idleUpgrader (numbered
      [.poolUpgrade (startFor "Alpha" "1.1" false 5),.other,.poolUpgrade (cancelOf "1.1" 6)])).scheduledAction := by
  apply (restart_schedules_same_iff sampleSetup idleUpgrader rfl (by simp [idleUpgrader,Unstarted]) id 0 true _).mpr
  intro started later last
  obtain ⟨rfl,rfl⟩ := Prod.mk.inj (Option.some.inj last)
  rfl

/-- A second START, forced and for another node only, is what the restarted node looks at. -/
theorem other_node_start_forgets :
    (live sampleSetup id idleUpgrader (numbered [.poolUpgrade (startFor "Alpha" "1.1" false 5),
        .poolUpgrade (startFor "Beta" "1.2" true 6)])).scheduledAction.map (·.version) = some "1.1" ∧
      (processLedger sampleSetup 0 ((live sampleSetup id idleUpgrader (numbered
          [.poolUpgrade (startFor "Alpha" "1.1" false 5),.poolUpgrade (startFor "Beta" "1.2" true 6)])).restarted true)
        [.poolUpgrade (startFor "Alpha" "1.1" false 5),
          .poolUpgrade (startFor "Beta" "1.2" true 6)]).scheduledAction = none :=
  ⟨rfl,rfl⟩

end Samples
end IndyNode.Upgrade

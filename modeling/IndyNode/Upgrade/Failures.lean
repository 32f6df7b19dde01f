import IndyNode.Upgrade.Pending
import IndyNode.Upgrade.Replay

/-! What the failure of one upgrade does to another. A timeout and a control service that
cannot be reached both empty the one slot for a scheduled upgrade, whichever upgrade is
in it; after a timeout the ledger is read again. -/
namespace IndyNode.Upgrade

section Logs
variable {V : Type}

def Upgrader.Recorded (up : Upgrader V) : Prop :=
  ∀ data, up.scheduledAction = some data → up.actionLog.getLast? = some ⟨.scheduled,data⟩

private theorem Upgrader.Recorded.idle {up : Upgrader V} (idle : up.scheduledAction = none) : up.Recorded := by
  intro data scheduled
  simp [idle] at scheduled

private theorem scheduleUpgrade_recorded (up : Upgrader V) (now : Nat) (data : UpgradeLogData V)
    (failTimeout : Nat) : (up.scheduleUpgrade now data failTimeout).Recorded := by
  intro other scheduled
  obtain rfl := Option.some.inj scheduled
  simp [Upgrader.scheduleUpgrade,Upgrader.append]

private theorem Upgrader.Recorded.unperformed {up : Upgrader V} (recorded : up.Recorded) {data : UpgradeLogData V}
    (scheduled : up.scheduledAction = some data) (upgradeId : String) : up.performed upgradeId = false := by
  rw [Upgrader.performed,recorded data scheduled]
  simp

variable [DecidableEq V]

private theorem Upgrader.Recorded.obey {up : Upgrader V} (recorded : up.Recorded) (now : Nat)
    (asked : Option (Order V)) : (up.obey now asked).Recorded := by
  cases asked with
  | none => exact recorded
  | some asked =>
    cases asked with
    | start data failTimeout =>
      rw [Upgrader.obey,follow_start]
      split
      · exact scheduleUpgrade_recorded _ now data failTimeout
      · exact recorded
    | cancel version =>
      rw [Upgrader.obey,Upgrader.follow]
      split
      · exact .idle (cancelled_scheduled up)
      · exact recorded

variable (setup : UpgradeSetup V)

private theorem Effect.recorded {world : World V} {event : Event} {up : Upgrader V}
    (effect : Effect setup world event up) (recorded : world.up.Recorded) : up.Recorded := by
  cases effect with
  | obeys event delivers => exact recorded.obey world.now _
  | releases => exact recorded
  | calls data failTimeout rest first => exact .idle rfl
  | forgets data rest first known => exact recorded
  | expires data rest first unsettled => exact (Upgrader.Recorded.idle rfl).obey world.now _
  | sent index data failTimeout listed => exact recorded
  | unsent index data failTimeout listed => exact .idle rfl
  | restarts succeeded => exact (Upgrader.Recorded.idle rfl).obey world.now _

private theorem Reached.recorded {start final : World V} {permit : World V → Event → Prop}
    (reached : Reached setup permit start final) (idle : start.up.scheduledAction = none) :
    final.up.Recorded := by
  refine reached.invariant setup permit Upgrader.Recorded (.idle idle) ?_
  intro world event up recorded _ effect
  exact effect.recorded setup recorded

end Logs

section Failures
variable {V : Type} [DecidableEq V] (setup : UpgradeSetup V) (world : World V)

/-- The started upgrade that fails with an event: its time is up, or all attempts to
reach the control service have failed. -/
def World.failure : Event → Option (UpgradeLogData V)
  | .runJob =>
    match world.up.actions.queue with
    | .timesUp data :: _ => if world.up.actionLog.getLast? = some ⟨.failed,data⟩ then none else some data
    | _ => none
  | .answered index false => world.up.sending[index]?.map Prod.fst
  | _ => none

def Upgrader.Awaits (up : Upgrader V) (data : UpgradeLogData V) : Prop :=
  up.scheduledAction = some data ∧ data ∈ up.calls

/-- The START that the ledger is left with is the one of the upgrade. -/
def InForce (ledger : List LedgerTxn) (data : UpgradeLogData V) : Prop :=
  (startInForce ledger).bind (startData setup) = some data

def CancelledIn (ledger : List LedgerTxn) (started : UpgradeTxn) : Prop :=
  ∃ cancel ∈ numbered ledger, started.seqNo < cancel.seqNo ∧ repeatsVersion started cancel = true

/-- The START of the upgrade is in the ledger, and behind it a CANCEL of its version or a newer
START that this node follows and has scheduled by now. -/
def Removed (ledger : List LedgerTxn) (data : UpgradeLogData V) (up : Upgrader V) : Prop :=
  ∃ started ∈ numbered ledger, startData setup started = some data ∧ (CancelledIn ledger started ∨
    ∃ newer ∈ numbered ledger, started.seqNo < newer.seqNo ∧
      ∃ next, startData setup newer = some next ∧ up.Awaits next)

/-- The START of the upgrade is in the ledger, and a CANCEL of its version stands behind it or the
START that the ledger is left with is one that this node follows. -/
def Covered (ledger : List LedgerTxn) (data : UpgradeLogData V) : Prop :=
  ∃ started ∈ numbered ledger, startData setup started = some data ∧
    (CancelledIn ledger started ∨ ∃ next, InForce setup ledger next)

private theorem startInForce_start (ledger : List LedgerTxn) (txn : UpgradeTxn)
    (found : startInForce ledger = some txn) : txn ∈ numbered ledger ∧ isStart txn = true ∧
      ∀ other ∈ numbered ledger, isStart other = true → other = txn ∨ other.seqNo < txn.seqNo := by
  rw [startInForce_eq] at found
  obtain ⟨⟨started,later⟩,last,kept⟩ := Option.bind_eq_some_iff.mp found
  obtain ⟨before,item,shape,chosen,free⟩ := (lastWith_some _ _ _ _).mp last
  obtain ⟨rfl,isLast⟩ := Option.guard_eq_some_iff.mp chosen
  obtain rfl : item = txn := by
    split at kept
    · cases kept
    · exact Option.some.inj kept
  have sorted := shape ▸ numbered_sorted ledger
  rw [shape]
  refine ⟨by simp,isLast,fun other member start => ?_⟩
  rcases List.mem_append.mp member with earlier | here
  · exact .inr ((List.pairwise_append.mp sorted).2.2 other earlier item List.mem_cons_self)
  · rcases List.mem_cons.mp here with same | behind
    · exact .inl same
    · have unpicked := free other behind
      simp [Option.guard,start] at unpicked

omit [DecidableEq V] in
theorem inForce_order (ledger : List LedgerTxn) (asked : Order V)
    (found : (startInForce ledger).bind (order setup) = some asked) :
    ∃ data failTimeout, asked = .start data failTimeout := by
  obtain ⟨txn,last,ordered⟩ := Option.bind_eq_some_iff.mp found
  have started : txn.payload.action = .start := of_decide_eq_true (startInForce_start ledger txn last).2.1
  simp only [order,started,Option.bind_eq_bind,Option.bind_eq_some_iff] at ordered
  obtain ⟨version,_,text,_,made⟩ := ordered
  exact ⟨_,_,(Option.some.inj made).symm⟩

omit [DecidableEq V] in
private theorem inForce_iff (ledger : List LedgerTxn) (data : UpgradeLogData V) : InForce setup ledger data ↔
    ∃ failTimeout, (startInForce ledger).bind (order setup) = some (.start data failTimeout) := by
  rw [InForce]
  cases startInForce ledger with
  | none => simp
  | some txn =>
    simp only [Option.bind_some,startData]
    cases order setup txn with
    | none => simp
    | some asked => cases asked <;> simp

private theorem obey_awaits_iff (up : Upgrader V) (now : Nat) (idle : up.scheduledAction = none)
    (ledger : List LedgerTxn) (data : UpgradeLogData V) (undone : up.performed data.upgradeId = false) :
    (up.obey now ((startInForce ledger).bind (order setup))).Awaits data ↔ InForce setup ledger data := by
  rw [inForce_iff]
  cases found : (startInForce ledger).bind (order setup) with
  | none =>
    refine iff_of_false ?_ (by simp)
    rintro ⟨scheduled,_⟩
    simp [Upgrader.obey,idle] at scheduled
  | some asked =>
    obtain ⟨other,failTimeout,rfl⟩ := inForce_order setup ledger asked found
    rw [Upgrader.obey,follow_start]
    by_cases new : up.schedules other
    · rw [if_pos new]
      constructor
      · rintro ⟨scheduled,_⟩
        obtain rfl := Option.some.inj scheduled
        exact ⟨failTimeout,rfl⟩
      · rintro ⟨_,same⟩
        obtain ⟨rfl,_⟩ := Order.start.inj (Option.some.inj same)
        exact ⟨rfl,(calls_scheduleUpgrade _ now other failTimeout).mem_iff.mpr (by simp)⟩
    · rw [if_neg new]
      refine iff_of_false ?_ ?_
      · rintro ⟨scheduled,_⟩
        simp [idle] at scheduled
      · rintro ⟨_,same⟩
        obtain ⟨rfl,_⟩ := Order.start.inj (Option.some.inj same)
        simp [Upgrader.schedules,undone,idle] at new

private theorem failure_effect (event : Event) (next : World V) (stepped : world.step setup event = some next)
    (failed : UpgradeLogData V) (fails : world.failure event = some failed) :
    (event = .runJob ∧ ∃ up : Upgrader V, up.scheduledAction = none ∧ up.actionLog = world.up.actionLog ∧
      next.up = up.obey world.now ((startInForce world.ledger).bind (order setup))) ∨
    (∃ index, event = .answered index false) ∧ next.up.scheduledAction = none := by
  have effect := world.step_effect setup next event stepped
  generalize next.up = up at effect
  cases effect with
  | obeys event delivers => cases event <;> simp [Event.delivers,World.failure] at delivers fails
  | releases => simp [World.failure] at fails
  | calls data failTimeout rest first => simp [World.failure,first] at fails
  | forgets data rest first known => simp [World.failure,first,known] at fails
  | expires data rest first unsettled =>
    exact .inl ⟨rfl,
      { world.up with actions := { world.up.actions with queue := rest } }.unscheduleAction,rfl,rfl,rfl⟩
  | sent index data failTimeout listed => simp [World.failure] at fails
  | unsent index data failTimeout listed => exact .inr ⟨⟨index,rfl⟩,rfl⟩
  | restarts succeeded => simp [World.failure] at fails

omit [DecidableEq V] in
private theorem inForce_newer {ledger : List LedgerTxn} {data next : UpgradeLogData V} {started : UpgradeTxn}
    (member : started ∈ numbered ledger) (asks : startData setup started = some data)
    (left : InForce setup ledger next) : next = data ∨
      ∃ newer ∈ numbered ledger, started.seqNo < newer.seqNo ∧ startData setup newer = some next := by
  obtain ⟨last,found,follows⟩ := Option.bind_eq_some_iff.mp left
  obtain ⟨listed,_,latest⟩ := startInForce_start ledger last found
  rcases latest started member (startData_isStart setup started data asks) with rfl | before
  · exact .inl (Option.some.inj (follows.symm.trans asks))
  · exact .inr ⟨last,listed,before,follows⟩

/-- In every world that is reached: when a started upgrade fails, another one that is
scheduled then stays so with its agent call, or is removed by a CANCEL or a newer START of the
ledger that is read again, exactly if it is a timeout and the other one is covered there. -/
theorem other_upgrade_kept_iff (start : World V) (idle : start.up.scheduledAction = none)
    (reached : Reached setup (fun _ _ => True) start world) (event : Event) (next : World V)
    (stepped : world.step setup event = some next) (failed : UpgradeLogData V)
    (fails : world.failure event = some failed) (other : UpgradeLogData V)
    (scheduled : world.up.scheduledAction = some other) :
    (next.up.Awaits other ∨ event = .runJob ∧ Removed setup world.ledger other next.up) ↔
      event = .runJob ∧ Covered setup world.ledger other := by
  have recorded := reached.recorded setup idle
  rcases failure_effect setup world event next stepped failed fails with
    ⟨rfl,up,free,sameLog,after⟩ | ⟨⟨index,rfl⟩,lost⟩
  · have awaits : ∀ data, next.up.Awaits data ↔ InForce setup world.ledger data := by
      intro data
      have undone : up.performed data.upgradeId = false := by
        rw [Upgrader.performed,sameLog]
        exact recorded.unperformed scheduled data.upgradeId
      rw [after,obey_awaits_iff setup up world.now free world.ledger data undone]
    simp only [true_and,Removed,Covered,awaits]
    constructor
    · rintro (kept | ⟨started,member,asks,cancelled | ⟨newer,_,_,data,_,left⟩⟩)
      · obtain ⟨last,found,follows⟩ := Option.bind_eq_some_iff.mp kept
        exact ⟨last,(startInForce_start _ last found).1,follows,.inr ⟨other,kept⟩⟩
      · exact ⟨started,member,asks,.inl cancelled⟩
      · exact ⟨started,member,asks,.inr ⟨data,left⟩⟩
    · rintro ⟨started,member,asks,cancelled | ⟨data,left⟩⟩
      · exact .inr ⟨started,member,asks,.inl cancelled⟩
      · rcases inForce_newer setup member asks left with rfl | ⟨newer,listed,before,follows⟩
        · exact .inl left
        · exact .inr ⟨started,member,asks,.inr ⟨newer,listed,before,data,follows,left⟩⟩
  · have gone : ¬next.up.Awaits other := by
      rintro ⟨still,_⟩
      simp [lost] at still
    simp [gone]

end Failures

section Samples

private theorem steps_reached (start final : World String) (events : List Event)
    (stepped : start.steps events = some final) :
    Reached sampleSetup (fun _ _ => True) start final := by
  induction events using List.reverseRecOn generalizing final with
  | nil =>
    obtain rfl := Option.some.inj stepped
    exact .start
  | append_singleton events event ih =>
    rw [World.steps,List.foldlM_append] at stepped
    obtain ⟨before,earlier,last⟩ := Option.bind_eq_some_iff.mp stepped
    rw [List.foldlM_cons] at last
    obtain ⟨next,now,same⟩ := Option.bind_eq_some_iff.mp last
    obtain rfl := Option.some.inj same
    exact .step before next event (ih before earlier) trivial now

def hastyStart : PoolUpgrade := ⟨.start,"1.1",[("Alpha","noon")],none,some 0,false,5⟩

def laterStart (force : Bool) : PoolUpgrade := ⟨.start,"1.2",[("Alpha","midnight")],none,none,force,6⟩

def laterData (upgradeId : String) : UpgradeLogData String := ⟨8,"1.2",upgradeId,"indy-node"⟩

def startedEvents : List Event :=
  [.commit (.poolUpgrade hastyStart),.tick 5,.beginService,.runJob,.endService]

def expiredWorld : World String :=
  ⟨⟨some (laterData "62"),[⟨.scheduled,plannedData⟩,⟨.started,plannedData⟩,⟨.scheduled,laterData "62"⟩],
    ⟨[.timesUp plannedData],[(8,.callAgent (laterData "62") 10)]⟩,[]⟩,
    [.poolUpgrade hastyStart,.poolUpgrade (laterStart false)],5,true⟩

theorem upgrade_in_ledger_kept : ∃ next, expiredWorld.step sampleSetup .runJob = some next ∧
    next.up.Awaits (laterData "62") := by
  have reached : Reached sampleSetup (fun _ _ => True) (worldAt 0) expiredWorld :=
    steps_reached _ _ (startedEvents ++ [.answered 0 true,.commit (.poolUpgrade (laterStart false)),.beginService])
      rfl
  have listed : (⟨laterStart false,2⟩ : UpgradeTxn) ∈ numbered expiredWorld.ledger := by decide
  refine ⟨_,rfl,?_⟩
  have kept := (other_upgrade_kept_iff sampleSetup expiredWorld (worldAt 0) rfl reached .runJob _ rfl plannedData rfl
    (laterData "62") rfl).mpr ⟨rfl,⟨laterStart false,2⟩,listed,rfl,.inr ⟨laterData "62",rfl⟩⟩
  rcases kept with waiting | ⟨_,started,member,asks,behind⟩
  · exact waiting
  · -- its START is the last transaction of the ledger
    have two : numbered expiredWorld.ledger = [⟨hastyStart,1⟩,⟨laterStart false,2⟩] := rfl
    have second : started.seqNo = 2 := by
      rw [two,List.mem_pair] at member
      rcases member with rfl | rfl
      · exact absurd (Option.some.inj asks) (by decide)
      · rfl
    have last : ∀ txn ∈ numbered expiredWorld.ledger, ¬started.seqNo < txn.seqNo := by
      rw [two,second]
      decide
    rcases behind with ⟨cancel,inside,after,_⟩ | ⟨newer,inside,after,_⟩
    · exact absurd after (last cancel inside)
    · exact absurd after (last newer inside)

/-- A START in the ledger that has no time for this node. -/
def foreignStart : PoolUpgrade := startFor "Beta" "1.3" true 7

/-- A forced upgrade that is not in the ledger is scheduled when the first one fails: it is
lost when the control service cannot be reached, and at a timeout the first one takes its
place again. At a timeout an upgrade in the ledger is lost behind a START for other nodes. -/
theorem forced_upgrade_lost :
    ((worldAt 0).steps (startedEvents ++ [.applyForced (laterStart true)])).map
        (fun world => (world.up.scheduledAction,world.up.calls,world.failure (.answered 0 false))) =
      some (some (laterData "6"),[laterData "6"],some plannedData) ∧
    ((worldAt 0).steps (startedEvents ++ [.applyForced (laterStart true),.answered 0 false])).map
        (fun world => (world.up.scheduledAction,world.up.calls)) = some (none,[]) ∧
    ((worldAt 0).steps (startedEvents ++ [.answered 0 true,.applyForced (laterStart true),.beginService,
        .runJob])).map (fun world => (world.up.scheduledAction,world.up.calls)) =
      some (some plannedData,[plannedData]) ∧
    ((worldAt 0).steps (startedEvents ++ [.answered 0 true,.commit (.poolUpgrade (laterStart false)),
        .applyForced foreignStart,.commit (.poolUpgrade foreignStart),.beginService])).map
        (fun world => (world.up.scheduledAction,world.up.calls,world.failure .runJob)) =
      some (some (laterData "62"),[laterData "62"],some plannedData) ∧
    ((worldAt 0).steps (startedEvents ++ [.answered 0 true,.commit (.poolUpgrade (laterStart false)),
        .applyForced foreignStart,.commit (.poolUpgrade foreignStart),.beginService,.runJob])).map
        (fun world => (world.up.scheduledAction,world.up.calls)) = some (none,[]) :=
  ⟨rfl,rfl,rfl,rfl,rfl⟩

end Samples
end IndyNode.Upgrade

import IndyNode.Foundation.Traces
import IndyNode.Upgrade.Failures
import IndyNode.Upgrade.Once
import IndyNode.Upgrade.PoolVersion

/-! What a node tells the pool about its upgrades. Here the callbacks of the upgrader are
those of the node: a notice goes out when the agent is called, and after a restart that
finds a started upgrade another one tells how it ended. -/
namespace IndyNode.Upgrade

section Logs
variable {V : Type}

private theorem cancelScheduledUpgrade_log (up : Upgrader V) :
    ∃ extra, up.cancelScheduledUpgrade.actionLog = up.actionLog ++ extra := by
  rw [Upgrader.cancelScheduledUpgrade]
  split
  · exact ⟨[],by simp⟩
  · exact ⟨_,rfl⟩

private theorem firstRunLog_log (succeeded : Bool) (log : List (LogEvent V)) :
    ∃ extra, firstRunLog succeeded log = log ++ extra := by
  rw [firstRunLog]
  split
  · exact ⟨_,rfl⟩
  · exact ⟨[],by simp⟩

variable [DecidableEq V]

private theorem obey_log (up : Upgrader V) (now : Nat) (asked : Option (Order V)) :
    ∃ extra, (up.obey now asked).actionLog = up.actionLog ++ extra := by
  cases asked with
  | none => exact ⟨[],by simp [Upgrader.obey]⟩
  | some asked =>
    cases asked with
    | start data failTimeout =>
      obtain ⟨extra,log⟩ := cancelScheduledUpgrade_log up
      rw [Upgrader.obey,follow_start]
      split
      · exact ⟨extra ++ [⟨.scheduled,data⟩],by simp [Upgrader.scheduleUpgrade,Upgrader.append,log]⟩
      · exact ⟨[],by simp⟩
    | cancel version =>
      rw [Upgrader.obey,Upgrader.follow]
      split
      · exact cancelScheduledUpgrade_log up
      · exact ⟨[],by simp⟩

/-- Nothing that is in the log is ever taken out or changed. -/
theorem Effect.log {setup : UpgradeSetup V} {world : World V} {event : Event} {up : Upgrader V}
    (effect : Effect setup world event up) : ∃ extra, up.actionLog = world.up.actionLog ++ extra := by
  cases effect with
  | obeys event delivers => exact obey_log _ _ _
  | releases => exact ⟨[],by simp⟩
  | calls data failTimeout rest first => exact ⟨[⟨.started,data⟩],rfl⟩
  | forgets data rest first known => exact ⟨[],by simp⟩
  | expires data rest first unsettled => exact obey_log _ _ _
  | sent index data failTimeout listed => exact ⟨[],by simp [Upgrader.requestSent]⟩
  | unsent index data failTimeout listed => exact ⟨[],by simp [Upgrader.unscheduleAction]⟩
  | restarts succeeded =>
    obtain ⟨first,began⟩ := firstRunLog_log succeeded world.up.actionLog
    obtain ⟨extra,later⟩ := obey_log (world.up.restarted succeeded) world.now (world.asked setup (.restart succeeded))
    refine ⟨first ++ extra,?_⟩
    rw [later,Upgrader.restarted,began,List.append_assoc]

end Logs

/-- The data of NODE_UPGRADE. -/
structure Notice (V : Type) where
  action : NodeUpgradeAction
  version : V
deriving DecidableEq

def Notice.isResult {V : Type} (notice : Notice V) : Bool := notice.action ≠ .inProgress

/-- `installed` gives the upstream version of a package, if it is there. -/
structure Station (V : Type) where
  world : World V
  installed : String → Option V
  sent : List (Notice V)

inductive StationEvent (V : Type) where
  | upgrader (event : Event)
  | install (pkgName : String) (version : Option V)
  | restart (txns : List LedgerTxn)

section Station
variable {V : Type} [DecidableEq V] (setup : UpgradeSetup V)

omit [DecidableEq V] in
def isActionStarted (log : List (LogEvent V)) : Bool := log.getLast?.any (·.evType = .started)

def didLastExecutedUpgradeSucceeded (installed : String → Option V) (log : List (LogEvent V)) : Bool :=
  match log.getLast? with
  | none => false
  | some event => installed event.data.pkgName = some event.data.version

def resultOf (installed : String → Option V) (data : UpgradeLogData V) : Notice V :=
  ⟨if installed data.pkgName = some data.version then .complete else .fail,data.version⟩

/-- The last event is read when the ledger has been processed. -/
def acknowledgeUpgrade (installed : String → Option V) (shouldNotify : Bool) (log : List (LogEvent V)) :
    List (Notice V) :=
  if shouldNotify then
    log.getLast?.toList.map fun event =>
      ⟨if didLastExecutedUpgradeSucceeded installed log then .complete else .fail,event.data.version⟩
  else []

variable (station : Station V)

/-- The agent is called for the first job. The notice takes its version from the scheduled
upgrade; with none scheduled that is an AttributeError, which leaves the service. -/
def Station.callAgent (data : UpgradeLogData V) (rest : List (Job V)) : Option (Station V) :=
  match station.world.up.scheduledAction with
  | none =>
    let popped := { station.world.up with actions := { station.world.up.actions with queue := rest } }
    some { station with world := { station.world with up := popped.append .started data, servicing := false } }
  | some action =>
    (station.world.step setup .runJob).map fun next =>
      { station with world := next, sent := station.sent ++ [⟨.inProgress,action.version⟩] }

/-- The ledger that a started node processes first is the one it has caught up with. -/
def Station.step : StationEvent V → Option (Station V)
  | .install pkgName version =>
    some { station with installed := Function.update station.installed pkgName version }
  | .restart txns =>
    let log := station.world.up.actionLog
    let caughtUp := { station.world with ledger := station.world.ledger ++ txns }
    (caughtUp.step setup (.restart (didLastExecutedUpgradeSucceeded station.installed log))).map fun next =>
      { station with
        world := next
        sent := station.sent ++ acknowledgeUpgrade station.installed (isActionStarted log) next.up.actionLog }
  | .upgrader (.restart _) => none
  | .upgrader event =>
    match event,station.world.servicing,station.world.up.actions.queue with
    | .runJob,true,.callAgent data _ :: rest => station.callAgent setup data rest
    | _,_,_ => (station.world.step setup event).map fun next => { station with world := next }

end Station

section Sending
variable {V : Type} [DecidableEq V] (setup : UpgradeSetup V)

/-- The upgrade that the notice after a restart is about: the one that was started, unless
the ledger has the START of another one in force. -/
def reported (ledger : List LedgerTxn) (data : UpgradeLogData V) : UpgradeLogData V :=
  match (startInForce ledger).bind (order setup) with
  | some (.start other _) => if other.upgradeId = data.upgradeId then data else other
  | _ => data

private theorem restarted_log (up : Upgrader V) (now : Nat) (succeeded : Bool) (ledger : List LedgerTxn)
    {data : UpgradeLogData V} (last : up.actionLog.getLast? = some ⟨.started,data⟩) :
    ∃ kind, kind ≠ EventType.started ∧
      ((up.restarted succeeded).obey now ((startInForce ledger).bind (order setup))).actionLog.getLast? =
        some ⟨kind,reported setup ledger data⟩ := by
  obtain ⟨kind,ended,log⟩ : ∃ kind, kind ∈ [EventType.succeeded,.failed] ∧
      (up.restarted succeeded).actionLog = up.actionLog ++ [⟨kind,data⟩] := by
    rw [Upgrader.restarted,firstRunLog,last]
    cases succeeded with
    | true => exact ⟨.succeeded,by simp,rfl⟩
    | false => exact ⟨.failed,by simp,rfl⟩
  have other : kind ≠ .started := by
    rintro rfl
    simp at ended
  have performed (id : String) : (up.restarted succeeded).performed id = decide (data.upgradeId = id) := by
    rw [Upgrader.performed,log,List.getLast?_concat]
    simp [ended]
  rw [reported]
  cases found : (startInForce ledger).bind (order setup) with
  | none => exact ⟨kind,other,by rw [Upgrader.obey,log,List.getLast?_concat]⟩
  | some asked =>
    obtain ⟨again,failTimeout,rfl⟩ := inForce_order setup ledger asked found
    rw [Upgrader.obey,Upgrader.follow,performed]
    by_cases same : again.upgradeId = data.upgradeId
    · rw [if_pos (by simp [same])]
      exact ⟨kind,other,by simp [log,same]⟩
    · rw [if_neg (by simpa using Ne.symm same),if_neg (by simp [Upgrader.restarted])]
      refine ⟨.scheduled,by simp,?_⟩
      simp [Upgrader.scheduleUpgrade,Upgrader.append,same]

/-- What a step can put out and do to the log. -/
inductive Station.Moves (station : Station V) : StationEvent V → Station V → Prop where
  | quiet (event : StationEvent V) (next : Station V) (same : next.sent = station.sent)
      (log : ∃ extra, next.world.up.actionLog = station.world.up.actionLog ++ extra) : Moves station event next
  | starts (next : Station V) (data action : UpgradeLogData V) (failTimeout : Nat) (rest : List (Job V))
      (first : station.world.up.actions.queue = .callAgent data failTimeout :: rest)
      (scheduled : station.world.up.scheduledAction = some action)
      (tells : next.sent = station.sent ++ [⟨.inProgress,action.version⟩])
      (log : ∃ extra, next.world.up.actionLog = station.world.up.actionLog ++ extra) :
      Moves station (.upgrader .runJob) next
  | acknowledges (txns : List LedgerTxn) (next : Station V) (data : UpgradeLogData V)
      (last : station.world.up.actionLog.getLast? = some ⟨.started,data⟩)
      (tells : next.sent = station.sent ++
        [resultOf station.installed (reported setup (station.world.ledger ++ txns) data)])
      (log : ∃ extra, next.world.up.actionLog = station.world.up.actionLog ++ extra)
      (settled : isActionStarted next.world.up.actionLog = false) : Moves station (.restart txns) next

private theorem acknowledgeUpgrade_last (installed : String → Option V) {log : List (LogEvent V)} {kind : EventType}
    {data : UpgradeLogData V} (last : log.getLast? = some ⟨kind,data⟩) :
    acknowledgeUpgrade installed true log = [resultOf installed data] := by
  simp [acknowledgeUpgrade,didLastExecutedUpgradeSucceeded,last,resultOf]

omit [DecidableEq V] in
private theorem isActionStarted_iff (log : List (LogEvent V)) :
    isActionStarted log = true ↔ ∃ data, log.getLast? = some ⟨.started,data⟩ := by
  rw [isActionStarted,Option.any_eq_true]
  constructor
  · rintro ⟨⟨kind,data⟩,last,started⟩
    obtain rfl := of_decide_eq_true started
    exact ⟨data,last⟩
  · rintro ⟨data,last⟩
    exact ⟨_,last,rfl⟩

private theorem Station.callAgent_moves (station next : Station V) (data : UpgradeLogData V) (failTimeout : Nat)
    (rest : List (Job V)) (first : station.world.up.actions.queue = .callAgent data failTimeout :: rest)
    (called : station.callAgent setup data rest = some next) :
    station.Moves setup (.upgrader .runJob) next := by
  rw [Station.callAgent] at called
  split at called
  · obtain rfl := Option.some.inj called
    exact .quiet _ _ rfl ⟨[⟨.started,data⟩],rfl⟩
  · rename_i action scheduled
    obtain ⟨after,taken,rfl⟩ := Option.map_eq_some_iff.mp called
    exact .starts _ data action failTimeout rest first scheduled rfl
      (station.world.step_effect setup after .runJob taken).log

theorem Station.step_moves (station next : Station V) (event : StationEvent V)
    (stepped : station.step setup event = some next) : station.Moves setup event next := by
  cases event with
  | install pkgName version =>
    obtain rfl := Option.some.inj stepped
    exact .quiet _ _ rfl ⟨[],by simp⟩
  | restart txns =>
    simp only [Station.step,Option.map_eq_some_iff] at stepped
    obtain ⟨after,taken,rfl⟩ := stepped
    have grown := (World.step_effect setup _ after _ taken).log
    cases started : isActionStarted station.world.up.actionLog with
    | false => exact .quiet _ _ (by simp [acknowledgeUpgrade]) grown
    | true =>
      obtain ⟨data,last⟩ := (isActionStarted_iff _).mp started
      obtain rfl := Option.some.inj taken
      obtain ⟨kind,other,ended⟩ := restarted_log setup station.world.up station.world.now
        (didLastExecutedUpgradeSucceeded station.installed station.world.up.actionLog)
        (station.world.ledger ++ txns) last
      refine .acknowledges txns _ data last ?_ grown ?_
      · exact congrArg (station.sent ++ ·) (acknowledgeUpgrade_last station.installed ended)
      · have last := congrArg (Option.any fun event => decide (event.evType = .started)) ended
        exact last.trans (decide_eq_false other)
  | upgrader event =>
    have plain (taken : ((station.world.step setup event).map fun after => { station with world := after }) =
        some next) : station.Moves setup (.upgrader event) next := by
      obtain ⟨after,inner,rfl⟩ := Option.map_eq_some_iff.mp taken
      exact .quiet _ _ rfl (station.world.step_effect setup after event inner).log
    cases event with
    | restart succeeded => cases stepped
    | runJob =>
      simp only [Station.step] at stepped
      split at stepped
      · rename_i data failTimeout rest _ _ first
        exact station.callAgent_moves setup next data failTimeout rest first stepped
      · exact plain stepped
    | _ => exact plain stepped

/-- Why a notice is sent, and what it says. -/
inductive Station.Tells (station : Station V) : StationEvent V → Notice V → Prop where
  | begun (data action : UpgradeLogData V) (failTimeout : Nat) (rest : List (Job V))
      (first : station.world.up.actions.queue = .callAgent data failTimeout :: rest)
      (scheduled : station.world.up.scheduledAction = some action)
      (right : station.world.up.Exact → action = data) :
      Tells station (.upgrader .runJob) ⟨.inProgress,action.version⟩
  | ended (txns : List LedgerTxn) (data : UpgradeLogData V)
      (last : station.world.up.actionLog.getLast? = some ⟨.started,data⟩) :
      Tells station (.restart txns)
        (resultOf station.installed (reported setup (station.world.ledger ++ txns) data))

theorem Station.Moves.tells {station next : Station V} {event : StationEvent V}
    (moves : station.Moves setup event next) :
    ∃ added, next.sent = station.sent ++ added ∧ ∀ notice ∈ added, station.Tells setup event notice := by
  cases moves with
  | quiet event next same log => exact ⟨[],by simp [same],by simp⟩
  | starts next data action failTimeout rest first scheduled tells log =>
    refine ⟨_,tells,?_⟩
    rw [List.forall_mem_singleton]
    refine .begun data action failTimeout rest first scheduled ?_
    intro exact
    exact Option.some.inj (scheduled.symm.trans (exact.running first).1)
  | acknowledges txns next data last tells log settled =>
    refine ⟨_,tells,?_⟩
    rw [List.forall_mem_singleton]
    exact .ended txns data last

end Sending

section Counting
variable {V : Type}

def Station.results (station : Station V) : Nat := station.sent.countP Notice.isResult

/-- The started upgrade whose result is still to be told. -/
def owed (log : List (LogEvent V)) : Nat := if isActionStarted log then 1 else 0

def startCount (log : List (LogEvent V)) : Nat := log.countP (·.evType = .started)

private theorem owed_append (log extra : List (LogEvent V)) : owed (log ++ extra) + startCount log ≤
    owed log + startCount (log ++ extra) := by
  rw [startCount,startCount,List.countP_append]
  cases extra using List.reverseRecOn with
  | nil => simp
  | append_singleton extra event =>
    have here : owed (log ++ (extra ++ [event])) ≤ (extra ++ [event]).countP (·.evType = .started) := by
      rw [owed,isActionStarted,← List.append_assoc,List.getLast?_concat,List.countP_append,List.countP_singleton]
      by_cases started : event.evType = .started <;> simp [started]
    omega

private theorem owed_le (log : List (LogEvent V)) : owed log ≤ startCount log := by
  have grown := owed_append [] log
  simpa [owed,isActionStarted,startCount] using grown

variable [DecidableEq V] (setup : UpgradeSetup V)

/-- Every result that was told or is owed belongs to a start of its own. -/
theorem Station.Moves.results {station next : Station V} {event : StationEvent V}
    (moves : station.Moves setup event next)
    (bound : station.results + owed station.world.up.actionLog ≤ startCount station.world.up.actionLog) :
    next.results + owed next.world.up.actionLog ≤ startCount next.world.up.actionLog := by
  have grown (extra : List (LogEvent V))
      (log : next.world.up.actionLog = station.world.up.actionLog ++ extra) :
      owed next.world.up.actionLog + startCount station.world.up.actionLog ≤
        owed station.world.up.actionLog + startCount next.world.up.actionLog := log ▸ owed_append _ extra
  cases moves with
  | quiet event next same log =>
    obtain ⟨extra,log⟩ := log
    have told : next.results = station.results := by rw [Station.results,same]; rfl
    have := grown extra log
    omega
  | starts next data action failTimeout rest first scheduled tells log =>
    obtain ⟨extra,log⟩ := log
    have told : next.results = station.results := by
      simp [Station.results,tells,Notice.isResult]
    have := grown extra log
    omega
  | acknowledges txns next data last tells log settled =>
    obtain ⟨extra,log⟩ := log
    have told : next.results = station.results + 1 := by
      have result (data : UpgradeLogData V) : (resultOf station.installed data).isResult = true := by
        rw [resultOf,Notice.isResult]
        split <;> rfl
      simp [Station.results,tells,result]
    have before : owed station.world.up.actionLog = 1 := if_pos ((isActionStarted_iff _).mpr ⟨data,last⟩)
    have after : owed next.world.up.actionLog = 0 := by simp [owed,settled]
    have kept : startCount station.world.up.actionLog ≤ startCount next.world.up.actionLog := by
      rw [startCount,startCount,log,List.countP_append]
      exact Nat.le_add_right _ _
    omega

/-- At most one result is told for every start of an upgrade, restarts included. A notice
of a start carries the version that is scheduled, which is the one that starts if the queue
follows the schedule; a notice of a result is about the upgrade in force. -/
theorem notices_traced (start final : Station V) (fresh : start.sent = []) (events : List (StationEvent V))
    (ran : traced (Station.step setup) start events = some final) :
    final.results + owed final.world.up.actionLog ≤ startCount final.world.up.actionLog ∧
      ∀ notice ∈ final.sent, ∃ k before event,
        TakenAt (Station.step setup) start events k before event ∧ before.Tells setup event notice := by
  constructor
  · refine traced_invariant (Station.step setup)
      (fun station => station.results + owed station.world.up.actionLog ≤ startCount station.world.up.actionLog)
      ?_ ?_ ran
    · intro before event next bound stepped
      exact (before.step_moves setup next event stepped).results setup bound
    · simpa [Station.results,fresh] using owed_le start.world.up.actionLog
  · intro notice told
    refine traced_output (Station.step setup) Station.sent (Station.Tells setup) ?_ fresh ran told
    intro before event next stepped
    exact (before.step_moves setup next event stepped).tells setup

end Counting

section Samples

def stationAt (now : Nat) : Station String := ⟨worldAt now,fun _ => some "1.0",[]⟩

/-- The upgrade to 1.1 is done, and while the node was down another one has been ordered. -/
def overtakenEvents : List (StationEvent String) :=
  [.upgrader (.commit (.poolUpgrade hastyStart)),.upgrader (.tick 5),.upgrader .beginService,.upgrader .runJob,
    .upgrader .endService,.install "indy-node" (some "1.1"),.restart [.poolUpgrade (laterStart false)]]

/-- The node reports a failure of the upgrade that has not begun. -/
theorem overtaken_result : ∃ final,
    traced (Station.step sampleSetup) (stationAt 0) overtakenEvents = some final ∧
    final.installed "indy-node" = some "1.1" ∧ final.sent = [⟨.inProgress,"1.1"⟩,⟨.fail,"1.2"⟩] ∧
    final.results ≤ startCount final.world.up.actionLog := by
  refine ⟨_,rfl,rfl,rfl,?_⟩
  have bound := (notices_traced sampleSetup (stationAt 0) _ rfl overtakenEvents rfl).1
  exact Nat.le_trans (Nat.le_add_right _ _) bound

end Samples
end IndyNode.Upgrade

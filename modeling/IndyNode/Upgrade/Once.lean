import IndyNode.Upgrade.Pending

/-! How often the agent is called for one upgrade. Every call is preceded by a started
record, and the log is kept over restarts. -/
namespace IndyNode.Upgrade

section Uses
variable {V : Type} (up : Upgrader V)

def LogEvent.start? (event : LogEvent V) : Option (UpgradeLogData V) :=
  if event.evType = .started then some event.data else none

def Upgrader.started : List (UpgradeLogData V) := up.actionLog.filterMap LogEvent.start?

def named (id : String) (list : List (UpgradeLogData V)) : Nat := list.countP (·.upgradeId = id)

/-- The calls of the agent for an upgrade, with those that are still to come. -/
def Upgrader.uses (id : String) : Nat := named id up.started + named id up.calls

def Upgrader.Once : Prop := ∀ id, up.uses id ≤ 1

private theorem started_append (evType : EventType) (data : UpgradeLogData V) (other : evType ≠ .started) :
    (up.append evType data).started = up.started := by
  simp [Upgrader.started,Upgrader.append,LogEvent.start?,other]

private theorem started_cancelScheduledUpgrade : up.cancelScheduledUpgrade.started = up.started := by
  rw [Upgrader.cancelScheduledUpgrade]
  split
  · rfl
  · exact started_append _ _ _ (by simp)

private theorem started_scheduleUpgrade (now : Nat) (data : UpgradeLogData V) (failTimeout : Nat) :
    (up.scheduleUpgrade now data failTimeout).started = up.started :=
  started_append up _ data (by simp)

private theorem started_restarted (succeeded : Bool) : (up.restarted succeeded).started = up.started := by
  simp only [Upgrader.restarted,Upgrader.started,firstRunLog]
  split
  · cases succeeded <;> simp [LogEvent.start?]
  · rfl

private theorem dueCalls_le (id : String) : named id up.dueCalls ≤ named id up.calls :=
  (List.sublist_append_left _ _).countP_le

private theorem uses_schedule (now : Nat) (data : UpgradeLogData V) (failTimeout : Nat) (id : String) :
    (up.scheduleUpgrade now data failTimeout).uses id =
      up.uses id + if data.upgradeId = id then 1 else 0 := by
  have calls := (calls_scheduleUpgrade up now data failTimeout).countP_eq (·.upgradeId = id)
  rw [Upgrader.uses,Upgrader.uses,started_scheduleUpgrade,named,named,calls,List.countP_append,
    List.countP_singleton]
  simp only [named,decide_eq_true_eq,Nat.add_assoc]

private theorem scheduleUpgrade_once (once : up.Once) (now : Nat) (data : UpgradeLogData V) (failTimeout : Nat) :
    (up.scheduleUpgrade now data failTimeout).Once ↔ up.uses data.upgradeId = 0 := by
  constructor
  · intro after
    have bound := after data.upgradeId
    rw [uses_schedule,if_pos rfl] at bound
    omega
  · intro unused id
    rw [uses_schedule]
    split
    · rename_i same
      subst same
      omega
    · exact once id

private theorem Upgrader.Once.fewer {up next : Upgrader V} (once : up.Once) (log : next.started = up.started)
    (calls : ∀ id, named id next.calls ≤ named id up.calls) : next.Once := by
  intro id
  rw [Upgrader.uses,log]
  exact Nat.le_trans (Nat.add_le_add_left (calls id) _) (once id)

private theorem named_perm {first second : List (UpgradeLogData V)} (perm : first.Perm second) (id : String) :
    named id first = named id second := perm.countP_eq _

private theorem calls_pop (job : Job V) (rest : List (Job V)) (first : up.actions.queue = job :: rest) :
    up.calls = job.agentCall.toList ++
      Upgrader.calls { up with actions := { up.actions with queue := rest } } :=
  up.actions.pending_pop Job.agentCall job rest first

private theorem Upgrader.Once.cancelled {up : Upgrader V} (once : up.Once) : up.cancelScheduledUpgrade.Once := by
  refine once.fewer (started_cancelScheduledUpgrade up) fun id => ?_
  rw [calls_cancelScheduledUpgrade]
  split
  · exact Nat.le_refl _
  · exact dueCalls_le up id

private theorem Upgrader.Once.unscheduled {up : Upgrader V} (once : up.Once) : up.unscheduleAction.Once := by
  refine once.fewer rfl fun id => ?_
  rw [calls_unscheduleAction]
  exact dueCalls_le up id

private theorem Upgrader.Once.popped {up : Upgrader V} (once : up.Once) {job : Job V} {rest : List (Job V)}
    (first : up.actions.queue = job :: rest) (other : job.agentCall = none) :
    Upgrader.Once { up with actions := { up.actions with queue := rest } } := by
  refine once.fewer rfl fun id => Nat.le_of_eq ?_
  rw [calls_pop up job rest first,other]
  rfl

private theorem Upgrader.Once.called {up : Upgrader V} (once : up.Once) (data : UpgradeLogData V) (failTimeout : Nat)
    (rest : List (Job V)) (first : up.actions.queue = .callAgent data failTimeout :: rest) :
    (Upgrader.callUpgradeAgent { up with actions := { up.actions with queue := rest } } data failTimeout).Once := by
  intro id
  have bound := once id
  rw [Upgrader.uses,calls_pop up _ rest first,named,named,List.countP_append] at bound
  have log : (Upgrader.callUpgradeAgent { up with actions := { up.actions with queue := rest } }
      data failTimeout).started = up.started ++ [data] := by
    simp [Upgrader.callUpgradeAgent,Upgrader.append,Upgrader.started,LogEvent.start?]
  rw [Upgrader.uses,log,named,named,List.countP_append]
  simp only [Job.agentCall,Option.toList_some] at bound
  exact Nat.le_trans (Nat.le_of_eq (Nat.add_assoc ..)) bound

end Uses

section Steps
variable {V : Type} [DecidableEq V] (setup : UpgradeSetup V)

/-- The upgrade has a started record, or an agent call that is left when what is scheduled is
cancelled. -/
def Upgrader.Begun (up : Upgrader V) (upgradeId : String) : Prop :=
  (∃ event ∈ up.actionLog, event.evType = .started ∧ event.data.upgradeId = upgradeId) ∨
    ∃ data ∈ up.cancelScheduledUpgrade.calls, data.upgradeId = upgradeId

/-- A START of an upgrade that has begun is seen to be one: by the last record, which says that
the upgrade has come to an end, or as what is scheduled. -/
def Upgrader.Recognises (up : Upgrader V) (asked : Option (Order V)) : Prop :=
  ∀ data failTimeout, asked = some (.start data failTimeout) → up.Begun data.upgradeId →
    up.performed data.upgradeId = true ∨ up.scheduledAction = some data

omit [DecidableEq V] in
private theorem uses_zero_iff (up : Upgrader V) (id : String) :
    up.cancelScheduledUpgrade.uses id = 0 ↔ ¬up.Begun id := by
  rw [Upgrader.uses,started_cancelScheduledUpgrade,Nat.add_eq_zero_iff,Upgrader.Begun,not_or]
  refine and_congr ?_ ?_
  · simp only [named,Upgrader.started,List.countP_eq_zero,List.mem_filterMap,LogEvent.start?,
      Option.ite_none_right_eq_some,Option.some.injEq,decide_eq_true_eq]
    constructor
    · rintro none ⟨event,member,started,same⟩
      exact none event.data ⟨event,member,started,rfl⟩ same
    · rintro none data ⟨event,member,started,rfl⟩ same
      exact none ⟨event,member,started,same⟩
  · simp [named,List.countP_eq_zero]

omit [DecidableEq V] in
private theorem recognises_quiet (up : Upgrader V) (asked : Option (Order V))
    (quiet : ∀ data failTimeout, asked ≠ some (.start data failTimeout)) : up.Recognises asked := by
  intro data failTimeout started
  exact absurd started (quiet data failTimeout)

private theorem recognises_start (up : Upgrader V) (data : UpgradeLogData V) (failTimeout : Nat) :
    up.Recognises (some (.start data failTimeout)) ↔
      (up.schedules data = true → up.cancelScheduledUpgrade.uses data.upgradeId = 0) := by
  have known : up.schedules data = true ↔
      ¬(up.performed data.upgradeId = true ∨ up.scheduledAction = some data) := by
    simp [Upgrader.schedules]
  rw [known,uses_zero_iff,not_imp_not]
  constructor
  · intro recognises
    exact recognises data failTimeout rfl
  · intro recognises other timeout same
    obtain ⟨rfl,_⟩ := Order.start.inj (Option.some.inj same)
    exact recognises

private theorem obey_once (up : Upgrader V) (now : Nat) (once : up.Once) (asked : Option (Order V)) :
    (up.obey now asked).Once ↔ up.Recognises asked := by
  have kept := once.cancelled
  cases asked with
  | none => exact iff_of_true once (recognises_quiet up _ (by simp))
  | some asked =>
    cases asked with
    | cancel version =>
      refine iff_of_true ?_ (recognises_quiet up _ (by simp))
      rw [Upgrader.obey,Upgrader.follow]
      split
      · exact kept
      · exact once
    | start data failTimeout =>
      rw [recognises_start,Upgrader.obey,follow_start]
      by_cases new : up.schedules data
      · rw [if_pos new,scheduleUpgrade_once _ kept]
        exact ⟨fun unused _ => unused,fun unused => unused new⟩
      · rw [if_neg new]
        exact iff_of_true once fun scheduled => absurd scheduled new

/-- The state in which an event's transaction is handled, and what it asks. -/
def Fresh (world : World V) : Event → Prop
  | .runJob => ∀ data rest, world.up.actions.queue = .timesUp data :: rest →
      world.up.actionLog.getLast? ≠ some ⟨.failed,data⟩ →
      { world.up with actions := { world.up.actions with queue := rest } }.unscheduleAction.Recognises
        ((startInForce world.ledger).bind (order setup))
  | .restart succeeded =>
    (world.up.restarted succeeded).Recognises (world.asked setup (.restart succeeded))
  | event => world.up.Recognises (world.asked setup event)

private theorem Effect.once_iff {world : World V} {event : Event} {up : Upgrader V}
    (effect : Effect setup world event up) (once : world.up.Once) :
    up.Once ↔ Fresh setup world event := by
  cases effect with
  | obeys event delivers =>
    have fresh : Fresh setup world event ↔ world.up.Recognises (world.asked setup event) := by
      cases event <;> first | rfl | simp [Event.delivers] at delivers
    rw [fresh]
    exact obey_once world.up world.now once _
  | releases =>
    refine iff_of_true (once.fewer rfl fun id => Nat.le_of_eq ?_) (recognises_quiet world.up none (by simp))
    exact named_perm (world.up.actions.pending_release Job.agentCall world.now) id
  | calls data failTimeout rest first =>
    exact iff_of_true (once.called data failTimeout rest first) fun other later waiting => by
      simp [first] at waiting
  | forgets data rest first known =>
    refine iff_of_true (once.popped first rfl) ?_
    exact (timesUp_first first _).mpr fun unsettled => absurd known unsettled
  | expires data rest first unsettled =>
    rw [obey_once _ _ (once.popped first rfl).unscheduled]
    exact ((timesUp_first first _).trans ⟨fun fresh => fresh unsettled,fun fresh _ => fresh⟩).symm
  | sent index data failTimeout listed =>
    refine iff_of_true (once.fewer rfl fun id => Nat.le_of_eq ?_) (recognises_quiet world.up none (by simp))
    exact named_perm (calls_requestSent _ world.now data failTimeout) id
  | unsent index data failTimeout listed =>
    refine iff_of_true (Upgrader.Once.unscheduled ?_) (recognises_quiet world.up none (by simp))
    exact once.fewer rfl fun id => Nat.le_refl _
  | restarts succeeded =>
    refine obey_once _ _ (once.fewer (started_restarted world.up succeeded) fun id => ?_) _
    exact Nat.zero_le _

theorem agent_called_once (start final : World V) (initial : start.up.Once)
    (reached : Reached setup (Fresh setup) start final) :
    (∀ id, named id final.up.started ≤ 1) ∧
      ∀ event next, final.step setup event = some next → (next.up.Once ↔ Fresh setup final event) := by
  have once : final.up.Once := by
    refine reached.invariant setup (Fresh setup) Upgrader.Once initial ?_
    intro world event up once fresh effect
    exact (effect.once_iff setup once).mpr fresh
  refine ⟨fun id => Nat.le_trans (Nat.le_add_right _ _) (once id),?_⟩
  intro event next stepped
  exact (final.step_effect setup next event stepped).once_iff setup once

end Steps

section Samples

def calledWorld : World String :=
  ⟨⟨none,[⟨.scheduled,plannedData⟩,⟨.started,plannedData⟩],.empty,[(plannedData,10)]⟩,
    [.poolUpgrade (startFor "Alpha" "1.1" false 5)],5,true⟩

private theorem called_reached : Reached sampleSetup (Fresh sampleSetup) (worldAt 0) calledWorld := by
  refine .step plannedWorld _ .runJob (.step _ _ .beginService (.step _ _ (.tick 5) (.step _ _
    (.commit (.poolUpgrade (startFor "Alpha" "1.1" false 5))) .start ?_ rfl)
      (recognises_quiet _ none (by simp)) rfl) (recognises_quiet _ none (by simp)) rfl) ?_ rfl
  · intro data failTimeout _ begun
    rcases begun with ⟨event,member,_⟩ | ⟨other,member,_⟩ <;> cases member
  · intro data rest waiting
    simp [plannedWorld] at waiting

theorem planned_called_once : named plannedData.upgradeId calledWorld.up.started ≤ 1 :=
  (agent_called_once sampleSetup (worldAt 0) calledWorld (fun _ => Nat.zero_le 1) called_reached).1 _

/-- The first run ends with a timeout: nothing in the log says that the upgrade failed, and
the ledger is processed again. In the second a forced upgrade, which is not in the
ledger, writes the last record before the restart. -/
theorem upgrades_called_twice :
    ((worldAt 10).steps [.commit (.poolUpgrade (startFor "Alpha" "1.1" false 5)),.beginService,.runJob,
      .endService,.answered 0 true,.tick 1000,.beginService,.runJob,.runJob]).map (·.up.started) =
        some [plannedData,plannedData] ∧
    ((worldAt 0).steps [.commit (.poolUpgrade (startFor "Alpha" "1.1" false 5)),.tick 5,.beginService,.runJob,
      .endService,.restart true,.applyForced (startFor "Alpha" "1.2" true 7),.restart true,
      .beginService,.runJob]).map (·.up.started) = some [plannedData,plannedData] :=
  ⟨rfl,rfl⟩

end Samples
end IndyNode.Upgrade

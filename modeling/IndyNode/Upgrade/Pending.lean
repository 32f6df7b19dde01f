import IndyNode.Upgrade.Run

/-! The agent calls that wait in the action queue against the upgrade that the node
has scheduled. Unscheduling empties the stash and leaves the queue as it is. -/
namespace IndyNode.Upgrade

section Calls
variable {V : Type}

def Job.agentCall : Job V → Option (UpgradeLogData V)
  | .callAgent data _ => some data
  | .timesUp _ => none

variable (up : Upgrader V)

def Upgrader.calls : List (UpgradeLogData V) := up.actions.pending Job.agentCall

/-- The calls that unscheduling does not reach. -/
def Upgrader.dueCalls : List (UpgradeLogData V) := up.actions.ready Job.agentCall

/-- One call for the scheduled upgrade, or none if nothing is scheduled. -/
def Upgrader.Exact : Prop := up.calls = up.scheduledAction.toList

private theorem perm_toList {α : Type} (list : List α) (option : Option α) :
    list.Perm option.toList ↔ list = option.toList := by
  cases option with
  | none => exact List.perm_nil
  | some value => exact List.perm_singleton

theorem calls_scheduleUpgrade (now : Nat) (data : UpgradeLogData V) (failTimeout : Nat) :
    (up.scheduleUpgrade now data failTimeout).calls.Perm (up.calls ++ [data]) :=
  up.actions.pending_schedule Job.agentCall now _ (.callAgent data failTimeout)

theorem calls_cancelScheduledUpgrade :
    up.cancelScheduledUpgrade.calls = if up.scheduledAction = none then up.calls else up.dueCalls := by
  rw [Upgrader.cancelScheduledUpgrade]
  split
  · rename_i idle
    rw [if_pos idle]
  · rename_i data scheduled
    rw [if_neg (by simp [scheduled])]
    exact up.actions.pending_clearStash Job.agentCall

theorem calls_unscheduleAction : up.unscheduleAction.calls = up.dueCalls :=
  up.actions.pending_clearStash Job.agentCall

theorem calls_requestSent (now : Nat) (data : UpgradeLogData V) (failTimeout : Nat) :
    (up.requestSent now data failTimeout).calls.Perm up.calls := by
  unfold Upgrader.calls Upgrader.requestSent
  cases getTimeout failTimeout with
  | none => exact .refl _
  | some delay =>
    have scheduled := up.actions.pending_schedule Job.agentCall now delay (.timesUp data)
    rwa [show (Job.timesUp data).agentCall.toList = [] from rfl,List.append_nil] at scheduled

private theorem scheduleUpgrade_exact (now : Nat) (data : UpgradeLogData V) (failTimeout : Nat) :
    (up.scheduleUpgrade now data failTimeout).Exact ↔ up.calls = [] := by
  have calls := calls_scheduleUpgrade up now data failTimeout
  have single : (up.scheduleUpgrade now data failTimeout).Exact ↔
      (up.scheduleUpgrade now data failTimeout).calls.Perm [data] :=
    (perm_toList _ (some data)).symm
  rw [single,calls.congr_left]
  constructor
  · intro perm
    have length := perm.length_eq
    simpa using length
  · intro none
    rw [none]
    exact .refl _

theorem Upgrader.Exact.running {up : Upgrader V} (exact : up.Exact) {data : UpgradeLogData V}
    {failTimeout : Nat} {rest : List (Job V)} (first : up.actions.queue = .callAgent data failTimeout :: rest) :
    up.scheduledAction = some data ∧ { up.actions with queue := rest }.pending Job.agentCall = [] := by
  have calls := up.actions.pending_pop Job.agentCall _ rest first
  have pair := calls.symm.trans exact
  cases scheduled : up.scheduledAction with
  | none => simp [scheduled,Job.agentCall] at pair
  | some other =>
    rw [scheduled] at pair
    obtain ⟨same,none⟩ := List.cons.inj pair
    exact ⟨congrArg some same.symm,none⟩

end Calls

section Orders
variable {V : Type} [DecidableEq V] (up : Upgrader V) (now : Nat)

/-- A START that is neither done already nor scheduled as it is. -/
def Upgrader.schedules (data : UpgradeLogData V) : Bool :=
  ¬up.performed data.upgradeId ∧ up.scheduledAction ≠ some data

def Upgrader.unschedules : Order V → Bool
  | .start data _ => up.scheduledAction ≠ none ∧ up.schedules data
  | .cancel version => up.scheduledAction.map (·.version) = some version

theorem follow_start (data : UpgradeLogData V) (failTimeout : Nat) :
    up.follow now (.start data failTimeout) = if up.schedules data then
      up.cancelScheduledUpgrade.scheduleUpgrade now data failTimeout else up := by
  rw [Upgrader.follow,Upgrader.schedules]
  by_cases done : up.performed data.upgradeId
  · simp [done]
  · by_cases same : up.scheduledAction = some data <;> simp [done,same]

private theorem unschedules_idle (idle : up.scheduledAction = none) (asked : Order V) :
    up.unschedules asked = false := by
  cases asked <;> simp [Upgrader.unschedules,idle]

private theorem follow_exact (exact : up.Exact) (asked : Order V) :
    (up.follow now asked).Exact ↔ (up.unschedules asked = true → up.dueCalls = []) := by
  cases asked with
  | start data failTimeout =>
    rw [follow_start]
    by_cases new : up.schedules data
    · rw [if_pos new,scheduleUpgrade_exact,calls_cancelScheduledUpgrade]
      by_cases idle : up.scheduledAction = none
      · rw [if_pos idle,exact,idle]
        simp [Upgrader.unschedules,idle]
      · rw [if_neg idle]
        simp [Upgrader.unschedules,idle,new]
    · rw [if_neg new]
      simp [Upgrader.unschedules,new,exact]
  | cancel version =>
    rw [Upgrader.follow,Upgrader.unschedules,decide_eq_true_eq]
    by_cases same : up.scheduledAction.map (·.version) = some version
    · have scheduled : up.scheduledAction ≠ none := fun idle => by simp [idle] at same
      rw [if_pos same,Upgrader.Exact,calls_cancelScheduledUpgrade,if_neg scheduled,
        cancelled_scheduled]
      exact ⟨fun none _ => none,fun none => none same⟩
    · rw [if_neg same]
      exact ⟨fun _ equal => absurd equal same,fun _ => exact⟩

private theorem obey_exact (exact : up.Exact) (asked : Option (Order V)) : (up.obey now asked).Exact ↔
    ∀ order, asked = some order → up.unschedules order = true → up.dueCalls = [] := by
  cases asked with
  | none => simp [Upgrader.obey,exact]
  | some asked =>
    rw [Upgrader.obey,follow_exact up now exact asked]
    simp

private theorem obey_idle (idle : up.scheduledAction = none) (asked : Option (Order V)) :
    (up.obey now asked).Exact ↔ up.calls = [] := by
  have same : up.Exact ↔ up.calls = [] := by rw [Upgrader.Exact,idle]; rfl
  cases asked with
  | none => exact same
  | some asked =>
    cases asked with
    | start data failTimeout =>
      rw [Upgrader.obey,follow_start]
      by_cases new : up.schedules data
      · rw [if_pos new,scheduleUpgrade_exact,calls_cancelScheduledUpgrade,if_pos idle]
      · rw [if_neg new]
        exact same
    | cancel version =>
      rw [Upgrader.obey,Upgrader.follow,if_neg (by simp [idle])]
      exact same

end Orders

section Steps
variable {V : Type} [DecidableEq V] (setup : UpgradeSetup V)

/-- Whenever the event unschedules an upgrade, no agent call is in the queue. -/
def Clear (world : World V) : Event → Prop
  | .runJob => ∀ data rest, world.up.actions.queue = .timesUp data :: rest →
      world.up.actionLog.getLast? ≠ some ⟨.failed,data⟩ → rest.filterMap Job.agentCall = []
  | .answered _ false => world.up.dueCalls = []
  | .restart _ => True
  | event => ∀ asked, world.asked setup event = some asked → world.up.unschedules asked = true →
      world.up.dueCalls = []

private theorem clear_delivers (world : World V) (event : Event) (delivers : event.delivers = true) :
    Clear setup world event ↔ ∀ asked, world.asked setup event = some asked →
      world.up.unschedules asked = true → world.up.dueCalls = [] := by
  cases event <;> first | rfl | simp [Event.delivers] at delivers

private theorem clear_quiet (world : World V) (event : Event) (delivers : event = .beginService ∨
    ∃ index, event = .answered index true) : Clear setup world event := by
  rcases delivers with rfl | ⟨index,rfl⟩ <;> intro asked brought <;>
    simp [World.asked,World.handled] at brought

private theorem Effect.exact_iff {world : World V} {event : Event} {up : Upgrader V}
    (effect : Effect setup world event up) (exact : world.up.Exact) :
    up.Exact ↔ Clear setup world event := by
  cases effect with
  | obeys event delivers =>
    rw [clear_delivers setup world event delivers]
    exact obey_exact world.up world.now exact _
  | releases =>
    refine iff_of_true ?_ (clear_quiet setup world _ (.inl rfl))
    apply (perm_toList _ _).mp
    exact (world.up.actions.pending_release Job.agentCall world.now).trans
      ((perm_toList _ _).mpr exact)
  | calls data failTimeout rest first =>
    refine iff_of_true ?_ fun other later waiting => by simp [first] at waiting
    exact (exact.running first).2
  | forgets data rest first known =>
    refine iff_of_true ?_ ((timesUp_first first _).mpr fun unsettled => absurd known unsettled)
    have calls := world.up.actions.pending_pop Job.agentCall _ rest first
    exact calls.symm.trans exact
  | expires data rest first unsettled =>
    rw [obey_idle _ _ rfl,calls_unscheduleAction]
    exact ((timesUp_first first _).trans ⟨fun clear => clear unsettled,fun none _ => none⟩).symm
  | sent index data failTimeout listed =>
    refine iff_of_true ?_ (clear_quiet setup world _ (.inr ⟨index,rfl⟩))
    apply (perm_toList _ _).mp
    exact (calls_requestSent _ world.now data failTimeout).trans ((perm_toList _ _).mpr exact)
  | unsent index data failTimeout listed =>
    rw [Upgrader.Exact,calls_unscheduleAction]
    rfl
  | restarts succeeded => exact iff_of_true ((obey_idle _ _ rfl _).mpr rfl) trivial

private theorem Reached.exact {start final : World V} (reached : Reached setup (Clear setup) start final)
    (initial : start.up.Exact) : final.up.Exact := by
  refine reached.invariant setup (Clear setup) Upgrader.Exact initial ?_
  intro world event up exact clear effect
  exact (effect.exact_iff setup exact).mpr clear

theorem calls_follow_schedule (start final : World V) (initial : start.up.Exact)
    (reached : Reached setup (Clear setup) start final) :
    final.up.calls = final.up.scheduledAction.toList ∧
      (∀ data failTimeout rest, final.up.actions.queue = .callAgent data failTimeout :: rest →
        final.up.scheduledAction = some data) ∧
      ∀ event next, final.step setup event = some next →
        (next.up.calls = next.up.scheduledAction.toList ↔ Clear setup final event) := by
  have exact := reached.exact setup initial
  refine ⟨exact,?_,?_⟩
  · intro data failTimeout rest first
    exact (exact.running first).1
  · intro event next stepped
    exact (final.step_effect setup next event stepped).exact_iff setup exact

end Steps

section Samples

def worldAt (now : Nat) : World String := ⟨idleUpgrader,[],now,false⟩

def World.steps (world : World String) (events : List Event) : Option (World String) :=
  events.foldlM (World.step sampleSetup) world

def plannedData : UpgradeLogData String := ⟨4,"1.1","51","indy-node"⟩

def plannedWorld : World String :=
  ⟨⟨some plannedData,[⟨.scheduled,plannedData⟩],⟨[.callAgent plannedData 10],[]⟩,[]⟩,
    [.poolUpgrade (startFor "Alpha" "1.1" false 5)],5,true⟩

private theorem planned_reached : Reached sampleSetup (Clear sampleSetup) (worldAt 0) plannedWorld := by
  refine .step _ _ .beginService (.step _ _ (.tick 5) (.step _ _
    (.commit (.poolUpgrade (startFor "Alpha" "1.1" false 5))) .start ?_ rfl) ?_ rfl) ?_ rfl
  · intro asked _ unscheduled
    simp [unschedules_idle (worldAt 0).up rfl asked] at unscheduled
  · intro asked brought
    simp [World.asked,World.handled] at brought
  · exact clear_quiet sampleSetup _ _ (.inl rfl)

theorem planned_call_waits : plannedWorld.up.calls = plannedWorld.up.scheduledAction.toList ∧
    plannedWorld.up.scheduledAction = some plannedData := by
  obtain ⟨exact,called,_⟩ := calls_follow_schedule sampleSetup (worldAt 0) plannedWorld rfl planned_reached
  exact ⟨exact,called plannedData 10 [] rfl⟩

def replacingData : UpgradeLogData String := ⟨4,"1.2","62","indy-node"⟩

/-- An upgrade that is due when it is committed stays in the queue when it is cancelled or when
another START takes its place, and is called all the same. -/
theorem cancelled_upgrade_called :
    ((worldAt 10).steps [.commit (.poolUpgrade (startFor "Alpha" "1.1" false 5)),
      .commit (.poolUpgrade (cancelOf "1.1" 6))]).map (fun world =>
        (world.up.scheduledAction,world.up.calls)) = some (none,[plannedData]) ∧
    ((worldAt 10).steps [.commit (.poolUpgrade (startFor "Alpha" "1.1" false 5)),
      .commit (.poolUpgrade (startFor "Alpha" "1.2" false 6))]).map (fun world =>
        (world.up.scheduledAction,world.up.calls)) = some (some replacingData,[plannedData,replacingData]) ∧
    ((worldAt 10).steps [.commit (.poolUpgrade (startFor "Alpha" "1.1" false 5)),
      .commit (.poolUpgrade (startFor "Alpha" "1.2" false 6)),.beginService,.runJob]).map (fun world =>
        (world.up.actionLog,world.up.sending)) =
      some ([⟨.scheduled,plannedData⟩,⟨.cancelled,plannedData⟩,⟨.scheduled,replacingData⟩,
        ⟨.started,plannedData⟩],[(plannedData,10)]) :=
  ⟨rfl,rfl,rfl⟩

end Samples
end IndyNode.Upgrade

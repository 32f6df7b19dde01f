import IndyNode.Upgrade.Upgrader

/-! The restarter of a node. It asks the control service for a restart at the scheduled time,
tries again where it is not reached, and waits for the timeout where it is. -/
namespace IndyNode.Upgrade

structure RestartLogData where
  when : Nat
deriving DecidableEq, Repr

inductive RestartJob where
  | callAgent (data : RestartLogData) (failTimeout : Nat)
  | timesUp (data : RestartLogData)
deriving DecidableEq, Repr

/-- `sending` holds the requests to the control service that are not answered yet. The
callbacks are counted. -/
structure Restarter where
  scheduledAction : Option RestartLogData
  actionLog : List (EventType × RestartLogData)
  actions : ActionQueue RestartJob
  sending : List (RestartLogData × Nat)
  startCallbacks : Nat
  failedCallbacks : Nat
deriving DecidableEq

inductive RestartError where
  | typeError
  | overflowError
deriving DecidableEq, Repr

/-- What is written before an exception stays written. -/
abbrev Restarting := ExceptT RestartError (StateM Restarter)

inductive RestartOrder where
  | start (when failTimeout : Option Nat)
  | cancel
deriving DecidableEq, Repr

section Programs

def appendEvent (evType : EventType) (data : RestartLogData) : Restarting Unit :=
  modify fun self => { self with actionLog := self.actionLog ++ [(evType,data)] }

def scheduleJob (now delay : Nat) (job : RestartJob) : Restarting Unit :=
  modify fun self => { self with actions := self.actions.schedule now delay job }

def unscheduleAction : Restarting Unit :=
  modify fun self => { self with actions := self.actions.clearStash, scheduledAction := none }

def cancelScheduledRestart : Restarting Unit := do
  match (← get).scheduledAction with
  | none => pure ()
  | some data =>
    unscheduleAction
    appendEvent .cancelled data

def scheduleRestart (now : Nat) (data : RestartLogData) (failTimeout : Nat) : Restarting Unit := do
  appendEvent .scheduled data
  modify fun self => { self with scheduledAction := some data }
  scheduleJob now (if now < data.when then data.when - now else 0) (.callAgent data failTimeout)

/-- A restart whose time has come is asked for at once, with no second attempt. -/
def requestRestart (now : Nat) (when failTimeout : Option Nat) : Restarting Unit := do
  let self ← get
  if self.scheduledAction ≠ none ∧ self.scheduledAction.map RestartLogData.when = when then pure ()
  else
    cancelScheduledRestart
    match when with
    | none => pure ()
    | some when =>
      if when ≤ now then pure ()
      else scheduleRestart now ⟨when⟩ (failTimeout.getD defaultActionTimeout)

def handleRestartRequest (now : Nat) : RestartOrder → Restarting Unit
  | .start when failTimeout => requestRestart now when failTimeout
  | .cancel => cancelScheduledRestart

def callRestartAgent (data : RestartLogData) (failTimeout : Nat) : Restarting Unit := do
  appendEvent .started data
  modify fun self => { self with
    startCallbacks := self.startCallbacks + 1
    scheduledAction := none
    sending := self.sending ++ [(data,failTimeout)] }

/-- `_action_failed(self, *, ev_data, reason=None, external_reason=False)` writes to the text
log only. Its arguments are taken by keyword. -/
def actionFailed (positional : List RestartLogData) (evData : Option RestartLogData) : Restarting Unit :=
  if positional = [] ∧ evData ≠ none then pure () else throw .typeError

def actionFailedCallback : Restarting Unit :=
  modify fun self => { self with failedCallbacks := self.failedCallbacks + 1 }

def retryLimit : Nat := 3

/-- What is left of the limit after the attempts from the given one on. -/
def attemptsLeft (reached : Nat → Bool) : Nat → Nat → Nat
  | 0,_ => 0
  | limit + 1,attempt => if reached attempt then limit + 1 else attemptsLeft reached limit (attempt + 1)

def sendUpdateRequest (now : Nat) (data : RestartLogData) (failTimeout : Nat) (reached : Nat → Bool) :
    Restarting Unit := do
  if attemptsLeft reached retryLimit 0 = 0 then
    actionFailed [data] none
    unscheduleAction
    actionFailedCallback
  else
    match getTimeout failTimeout with
    | none => throw .overflowError
    | some delay => scheduleJob now delay (.timesUp data)

def declareTimeoutExceeded (data : RestartLogData) : Restarting Unit := do
  if (← get).actionLog.getLast? = some (.failed,data) then pure ()
  else
    actionFailed [data] none
    unscheduleAction
    actionFailedCallback

def RestartJob.run : RestartJob → Restarting Unit
  | .callAgent data failTimeout => callRestartAgent data failTimeout
  | .timesUp data => declareTimeoutExceeded data

end Programs

section Events

/-- `answered` ends the attempts of a request; `reached` tells which of them succeed. -/
inductive RestartStep where
  | request (order : RestartOrder)
  | pass (seconds : Nat)
  | release
  | runJob
  | answered (index : Nat) (reached : Nat → Bool)

structure RestartWorld where
  now : Nat
  self : Restarter

def RestartStep.program (now : Nat) : RestartStep → Restarting Unit
  | .request order => handleRestartRequest now order
  | .pass _ => pure ()
  | .release => modify fun self => { self with actions := self.actions.release now }
  | .runJob => do
    match (← get).actions.queue with
    | [] => pure ()
    | job :: rest =>
      modify fun self => { self with actions := { self.actions with queue := rest } }
      job.run
  | .answered index reached => do
    match (← get).sending[index]? with
    | none => pure ()
    | some (data,failTimeout) =>
      modify fun self => { self with sending := self.sending.eraseIdx index }
      sendUpdateRequest now data failTimeout reached

variable (world : RestartWorld)

def RestartWorld.outcome (step : RestartStep) : Except RestartError Unit × Restarter :=
  (step.program world.now).run.run world.self

/-- An exception ends the step and not the run. -/
def RestartWorld.step (step : RestartStep) : RestartWorld where
  now := match step with
    | .pass seconds => world.now + seconds
    | _ => world.now
  self := (world.outcome step).2

def RestartWorld.after (steps : List RestartStep) : RestartWorld := steps.foldl RestartWorld.step world

/-- All attempts of a restart fail, or its timeout expires. -/
def RestartWorld.failing : RestartStep → Bool
  | .runJob =>
    match world.self.actions.queue with
    | .timesUp _ :: _ => true
    | _ => false
  | .answered index reached => index < world.self.sending.length ∧ ∀ attempt < retryLimit, reached attempt = false
  | _ => false

/-- A failure is dealt with to the end, with one call of the callback, which is not called
otherwise. -/
def RestartWorld.Handled (step : RestartStep) : Prop :=
  if world.failing step then
    (world.outcome step).1 = .ok () ∧ (world.outcome step).2.scheduledAction = none ∧
      (world.outcome step).2.actions.stash = [] ∧
      (world.outcome step).2.failedCallbacks = world.self.failedCallbacks + 1
  else (world.outcome step).2.failedCallbacks = world.self.failedCallbacks

end Events

section Callbacks

/-- The failure callback is not called. -/
def Quiet {α : Type} (program : Restarting α) : Prop :=
  ∀ self, (program.run.run self).2.failedCallbacks = self.failedCallbacks

private theorem quiet_pure {α : Type} (value : α) : Quiet (pure value) := fun _ => rfl

private theorem quiet_throw {α : Type} (error : RestartError) : Quiet (throw error : Restarting α) := fun _ => rfl

private theorem quiet_get : Quiet (get : Restarting Restarter) := fun _ => rfl

private theorem quiet_modify {change : Restarter → Restarter}
    (kept : ∀ self, (change self).failedCallbacks = self.failedCallbacks) : Quiet (modify change) := kept

private theorem quiet_bind {α β : Type} {first : Restarting α} {next : α → Restarting β} (quiet : Quiet first)
    (rest : ∀ value, Quiet (next value)) : Quiet (first >>= next) := by
  intro self
  have here := quiet self
  change (((first >>= next).run).run self).2.failedCallbacks = _
  rw [ExceptT.run_bind,StateT.run_bind]
  cases result : first.run.run self with
  | mk answer after =>
    rw [result] at here
    cases answer with
    | error error => exact here
    | ok value => exact (rest value after).trans here

private theorem quiet_cancel : Quiet cancelScheduledRestart := by
  refine quiet_bind quiet_get fun self => ?_
  split
  · exact quiet_pure ()
  · exact quiet_bind (quiet_modify fun _ => rfl) fun _ => quiet_modify fun _ => rfl

private theorem quiet_schedule (now : Nat) (data : RestartLogData) (failTimeout : Nat) :
    Quiet (scheduleRestart now data failTimeout) := by
  refine quiet_bind (quiet_modify fun _ => rfl) fun _ => ?_
  exact quiet_bind (quiet_modify fun _ => rfl) fun _ => quiet_modify fun _ => rfl

private theorem quiet_request (now : Nat) (order : RestartOrder) : Quiet (handleRestartRequest now order) := by
  cases order with
  | cancel => exact quiet_cancel
  | start when failTimeout =>
    refine quiet_bind quiet_get fun self => ?_
    split
    · exact quiet_pure ()
    · refine quiet_bind quiet_cancel fun _ => ?_
      split
      · exact quiet_pure ()
      · split
        · exact quiet_pure ()
        · exact quiet_schedule now _ _

private theorem quiet_call (data : RestartLogData) (failTimeout : Nat) : Quiet (callRestartAgent data failTimeout) :=
  quiet_bind (quiet_modify fun _ => rfl) fun _ => quiet_modify fun _ => rfl

private theorem attemptsLeft_zero (reached : Nat → Bool) (limit attempt : Nat) :
    attemptsLeft reached limit attempt = 0 ↔ ∀ index < limit, reached (attempt + index) = false := by
  induction limit generalizing attempt with
  | zero => simp [attemptsLeft]
  | succ limit ih =>
    rw [attemptsLeft,Nat.forall_lt_succ_left]
    cases first : reached attempt with
    | true => simp
    | false => simp [ih,Nat.add_assoc,Nat.add_comm 1]

private theorem unreached_iff (reached : Nat → Bool) :
    attemptsLeft reached retryLimit 0 = 0 ↔ ∀ attempt < retryLimit, reached attempt = false := by
  rw [attemptsLeft_zero]
  simp only [Nat.zero_add]

private theorem quiet_reached (now : Nat) (data : RestartLogData) (failTimeout : Nat) {reached : Nat → Bool}
    (some : ¬∀ attempt < retryLimit, reached attempt = false) :
    Quiet (sendUpdateRequest now data failTimeout reached) := by
  rw [sendUpdateRequest,if_neg (some ∘ (unreached_iff reached).mp)]
  split
  · exact quiet_throw _
  · exact quiet_modify fun _ => rfl

end Callbacks

section Failures
variable (world : RestartWorld)

/-- Without the job that is run first. -/
def Restarter.taken (self : Restarter) (rest : List RestartJob) : Restarter :=
  { self with actions := { self.actions with queue := rest } }

def Restarter.ended (self : Restarter) (index : Nat) : Restarter :=
  { self with sending := self.sending.eraseIdx index }

private theorem outcome_runJob : world.outcome .runJob =
    match world.self.actions.queue with
    | [] => (.ok (),world.self)
    | job :: rest => job.run.run.run (world.self.taken rest) := by
  change ((match world.self.actions.queue with
    | [] => pure ()
    | job :: rest => do
      modify fun self => self.taken rest
      job.run : Restarting Unit).run.run world.self) = _
  cases world.self.actions.queue <;> rfl

private theorem outcome_answered (index : Nat) (reached : Nat → Bool) : world.outcome (.answered index reached) =
    match world.self.sending[index]? with
    | none => (.ok (),world.self)
    | some (data,failTimeout) =>
      (sendUpdateRequest world.now data failTimeout reached).run.run (world.self.ended index) := by
  change ((match world.self.sending[index]? with
    | none => pure ()
    | some (data,failTimeout) => do
      modify fun self => self.ended index
      sendUpdateRequest world.now data failTimeout reached : Restarting Unit).run.run world.self) = _
  cases world.self.sending[index]? <;> rfl

/-- The job for a timeout ends at the call by position. -/
theorem timeout_raises (data : RestartLogData) (self : Restarter) :
    (declareTimeoutExceeded data).run.run self =
      (if self.actionLog.getLast? = some (.failed,data) then .ok () else .error .typeError,self) := by
  change ((if self.actionLog.getLast? = some (.failed,data) then pure () else do
    actionFailed [data] none
    unscheduleAction
    actionFailedCallback : Restarting Unit).run.run self) = _
  split <;> rfl

private theorem unreached_raises (now : Nat) (data : RestartLogData) (failTimeout : Nat) {reached : Nat → Bool}
    (none : ∀ attempt < retryLimit, reached attempt = false) (self : Restarter) :
    (sendUpdateRequest now data failTimeout reached).run.run self = (.error .typeError,self) := by
  rw [sendUpdateRequest,if_pos ((unreached_iff reached).mpr none)]
  rfl

private theorem quiet_step {step : RestartStep} (fine : world.failing step = false) :
    (world.outcome step).2.failedCallbacks = world.self.failedCallbacks := by
  cases step with
  | request order => exact quiet_request world.now order world.self
  | pass seconds => rfl
  | release => rfl
  | runJob =>
    rw [outcome_runJob]
    cases queue : world.self.actions.queue with
    | nil => rfl
    | cons job rest =>
      cases job with
      | callAgent data failTimeout => exact quiet_call data failTimeout _
      | timesUp data => simp [RestartWorld.failing,queue] at fine
  | answered index reached =>
    rw [outcome_answered]
    cases found : world.self.sending[index]? with
    | none => rfl
    | some request =>
      have within : index < world.self.sending.length := (List.getElem?_eq_some_iff.mp found).1
      refine quiet_reached world.now _ _ (fun none => ?_) _
      simp [RestartWorld.failing,within] at fine
      obtain ⟨attempt,early,once⟩ := fine
      simp [none attempt early] at once

private theorem failing_unhandled {step : RestartStep} (fails : world.failing step = true) : ¬world.Handled step := by
  rw [RestartWorld.Handled,if_pos fails]
  rintro ⟨fine,-,-,called⟩
  cases step with
  | request order => cases fails
  | pass seconds => cases fails
  | release => cases fails
  | runJob =>
    rw [RestartWorld.failing] at fails
    split at fails
    · rename_i data rest queue
      simp [outcome_runJob,queue,RestartJob.run,timeout_raises,Restarter.taken] at called
    · cases fails
  | answered index reached =>
    obtain ⟨within,none⟩ := of_decide_eq_true fails
    rw [outcome_answered,List.getElem?_eq_getElem within] at fine
    change ((sendUpdateRequest world.now world.self.sending[index].1 world.self.sending[index].2 reached).run.run
      (world.self.ended index)).1 = .ok () at fine
    rw [unreached_raises _ _ _ none] at fine
    cases fine

/-- In a run the failures of restarts are dealt with exactly if there are none. -/
theorem restart_failures_iff (world : RestartWorld) (steps : List RestartStep) :
    (∀ before step later, steps = before ++ step :: later → (world.after before).Handled step) ↔
      ∀ before step later, steps = before ++ step :: later → (world.after before).failing step = false := by
  refine forall_congr' fun before => forall_congr' fun step => forall_congr' fun later =>
    imp_congr_right fun _ => ⟨fun handled => ?_,fun fine => ?_⟩
  · rw [← Bool.not_eq_true]
    exact fun fails => failing_unhandled _ fails handled
  · rw [RestartWorld.Handled,if_neg (Bool.not_eq_true _ ▸ fine)]
    exact quiet_step _ fine

def idleRestarter : Restarter := ⟨none,[],.empty,[],0,0⟩

/-- A restart is scheduled and called, while the control service is down. -/
def downSteps : List RestartStep :=
  [.request (.start (some 100) none),.pass 101,.release,.runJob]

theorem unreached_restart_skips_callback :
    let world := (RestartWorld.mk 0 idleRestarter).after downSteps
    let outcome := world.outcome (.answered 0 fun _ => false)
    world.self.sending = [(⟨100⟩,10)] ∧ outcome.1 = .error .typeError ∧ outcome.2.failedCallbacks = 0 ∧
      ¬world.Handled (.answered 0 fun _ => false) := by
  refine ⟨by decide,by decide,by decide,?_⟩
  exact failing_unhandled _ (by decide)

end Failures

section Timeouts

private theorem getTimeout_day {minutes : Nat} (day : minutes < 1440) : getTimeout minutes = some (60 * minutes) := by
  have few : ¬999999999 < minutes * 60 / 86400 := by omega
  have short : minutes * 60 % 86400 = 60 * minutes := by omega
  rw [getTimeout,timedelta,if_neg few,Option.map_some,short]

private theorem getTimeout_lt {minutes delay : Nat} (given : getTimeout minutes = some delay) : delay < 86400 := by
  rw [getTimeout,timedelta] at given
  split at given
  · cases given
  · obtain rfl := Option.some.inj given
    exact Nat.mod_lt _ (by decide)

private theorem reached_schedules (now : Nat) (data : RestartLogData) {failTimeout delay : Nat} {reached : Nat → Bool}
    (some : ¬∀ attempt < retryLimit, reached attempt = false) (given : getTimeout failTimeout = .some delay)
    (self : Restarter) : (sendUpdateRequest now data failTimeout reached).run.run self =
      (.ok (),{ self with actions := self.actions.schedule now delay (.timesUp data) }) := by
  rw [sendUpdateRequest,if_neg (some ∘ (unreached_iff reached).mp)]
  simp only [given]
  rfl

/-- The timeouts of upgrades and restarts are counted in full minutes. -/
structure MinutesCounted (minutes : Nat) : Prop where
  delay : getTimeout minutes = some (60 * minutes)
  ordered : ∀ smaller ≤ minutes, ∀ delay, getTimeout smaller = some delay → delay ≤ 60 * minutes
  upgrade : ∀ (V : Type) (up : Upgrader V) (now : Nat) (data : UpgradeLogData V),
    up.requestSent now data minutes =
      { up with actions := up.actions.schedule now (60 * minutes) (.timesUp data) }
  restart : ∀ (self : Restarter) (now : Nat) (data : RestartLogData) (reached : Nat → Bool),
    (¬∀ attempt < retryLimit, reached attempt = false) →
      (sendUpdateRequest now data minutes reached).run.run self =
        (.ok (),{ self with actions := self.actions.schedule now (60 * minutes) (.timesUp data) })

theorem timeout_minutes_iff (minutes : Nat) : MinutesCounted minutes ↔ minutes < 1440 := by
  constructor
  · intro counted
    have bound := getTimeout_lt counted.delay
    omega
  · intro day
    have delay := getTimeout_day day
    refine ⟨delay,fun smaller least other given => ?_,fun V up now data => ?_,fun self now data reached some => ?_⟩
    · rw [getTimeout_day (Nat.lt_of_le_of_lt least day)] at given
      obtain rfl := Option.some.inj given
      omega
    · rw [Upgrader.requestSent,delay]
    · exact reached_schedules now data some delay self

theorem day_timeout_expires_at_once : getTimeout 1440 = some 0 ∧ getTimeout 1439 = some 86340 ∧
    ¬MinutesCounted 1440 := by
  refine ⟨by decide,by decide,fun counted => ?_⟩
  have delay := counted.delay
  simp [getTimeout,timedelta] at delay

end Timeouts
end IndyNode.Upgrade

import IndyNode.Upgrade.Upgrader

/-! A node with its upgrader over time. Transactions, answers of the control service
and restarts come between two services of the action queue; a service releases what is
due and runs the queue until it is empty. -/
namespace IndyNode.Upgrade

structure World (V : Type) where
  up : Upgrader V
  ledger : List LedgerTxn
  now : Nat
  servicing : Bool
deriving DecidableEq

inductive Event where
  | commit (txn : LedgerTxn)
  | applyForced (payload : PoolUpgrade)
  | tick (time : Nat)
  | beginService
  | runJob
  | endService
  | answered (index : Nat) (taken : Bool)
  | caughtUp (txns : List LedgerTxn)
  | restart (succeeded : Bool)
deriving DecidableEq

section Step
variable {V : Type} [DecidableEq V] (setup : UpgradeSetup V) (world : World V)

/-- The transaction that an event brings to `handleUpgradeTxn`. What is forced is handled
before it is in the ledger, and not again when it is committed. -/
def World.handled : Event → Option UpgradeTxn
  | .commit (.poolUpgrade payload) =>
    if payload.force then none else some ⟨payload,world.ledger.length + 1⟩
  | .applyForced payload => some ⟨payload,0⟩
  | .caughtUp txns => startInForce (world.ledger ++ txns)
  | .restart _ => startInForce world.ledger
  | _ => none

def World.asked (event : Event) : Option (Order V) := (world.handled event).bind (order setup)

/-- Nothing is asked of the upgrader by a transaction that this node does not follow. -/
def Upgrader.obey (up : Upgrader V) (now : Nat) : Option (Order V) → Upgrader V
  | none => up
  | some asked => up.follow now asked

def World.step (event : Event) : Option (World V) :=
  let handle (up : Upgrader V) := up.obey world.now (world.asked setup event)
  match event with
  | .commit txn =>
    if world.servicing then none
    else some { world with up := handle world.up, ledger := world.ledger ++ [txn] }
  | .applyForced payload =>
    if world.servicing ∨ ¬payload.force then none else some { world with up := handle world.up }
  | .tick time => if time < world.now then none else some { world with now := time }
  | .beginService =>
    if world.servicing then none
    else some { world with
      up := { world.up with actions := world.up.actions.release world.now }, servicing := true }
  | .runJob =>
    match world.servicing,world.up.actions.queue with
    | true,job :: rest => some { world with
        up := { world.up with actions := { world.up.actions with queue := rest } }.run
          setup world.now world.ledger job }
    | _,_ => none
  | .endService =>
    if world.servicing ∧ world.up.actions.queue = [] then some { world with servicing := false } else none
  | .answered index taken =>
    match world.servicing,world.up.sending[index]? with
    | false,some (data,failTimeout) =>
      let heard := { world.up with sending := world.up.sending.eraseIdx index }
      some { world with up := if taken then heard.requestSent world.now data failTimeout
        else heard.unscheduleAction }
    | _,_ => none
  | .caughtUp txns =>
    if world.servicing then none
    else some { world with up := handle world.up, ledger := world.ledger ++ txns }
  | .restart succeeded =>
    some { world with up := handle (world.up.restarted succeeded), servicing := false }

end Step

section Effects
variable {V : Type} [DecidableEq V] (setup : UpgradeSetup V)

theorem handleUpgradeTxn_eq (now : Nat) (up : Upgrader V) (txn : UpgradeTxn) :
    handleUpgradeTxn now up setup txn = up.obey now (order setup txn) := by
  rw [handleUpgradeTxn]
  cases order setup txn <;> rfl

private theorem processLedger_eq (now : Nat) (up : Upgrader V) (ledger : List LedgerTxn) :
    processLedger setup now up ledger = up.obey now ((startInForce ledger).bind (order setup)) := by
  rw [processLedger]
  cases startInForce ledger with
  | none => rfl
  | some started => exact handleUpgradeTxn_eq setup now up started

/-- Events that bring a transaction, or nothing, to a running upgrader. -/
def Event.delivers : Event → Bool
  | .commit _ | .applyForced _ | .tick _ | .endService | .caughtUp _ => true
  | _ => false

/-- What an event can do to the upgrader. -/
inductive Effect (world : World V) : Event → Upgrader V → Prop where
  | obeys (event : Event) (delivers : event.delivers = true) :
      Effect world event (world.up.obey world.now (world.asked setup event))
  | releases : Effect world .beginService
      { world.up with actions := world.up.actions.release world.now }
  | calls (data : UpgradeLogData V) (failTimeout : Nat) (rest : List (Job V))
      (first : world.up.actions.queue = .callAgent data failTimeout :: rest) :
      Effect world .runJob ({ world.up with
        actions := { world.up.actions with queue := rest } }.callUpgradeAgent data failTimeout)
  | forgets (data : UpgradeLogData V) (rest : List (Job V))
      (first : world.up.actions.queue = .timesUp data :: rest)
      (known : world.up.actionLog.getLast? = some ⟨.failed,data⟩) :
      Effect world .runJob { world.up with actions := { world.up.actions with queue := rest } }
  | expires (data : UpgradeLogData V) (rest : List (Job V))
      (first : world.up.actions.queue = .timesUp data :: rest)
      (unsettled : world.up.actionLog.getLast? ≠ some ⟨.failed,data⟩) :
      Effect world .runJob ({ world.up with
        actions := { world.up.actions with queue := rest } }.unscheduleAction.obey world.now
          ((startInForce world.ledger).bind (order setup)))
  | sent (index : Nat) (data : UpgradeLogData V) (failTimeout : Nat)
      (listed : world.up.sending[index]? = some (data,failTimeout)) :
      Effect world (.answered index true)
        ({ world.up with sending := world.up.sending.eraseIdx index }.requestSent world.now data failTimeout)
  | unsent (index : Nat) (data : UpgradeLogData V) (failTimeout : Nat)
      (listed : world.up.sending[index]? = some (data,failTimeout)) :
      Effect world (.answered index false)
        { world.up with sending := world.up.sending.eraseIdx index }.unscheduleAction
  | restarts (succeeded : Bool) : Effect world (.restart succeeded)
      ((world.up.restarted succeeded).obey world.now (world.asked setup (.restart succeeded)))

theorem World.step_effect (world next : World V) (event : Event)
    (stepped : world.step setup event = some next) : Effect setup world event next.up := by
  cases event with
  | commit txn =>
    simp only [World.step,Option.ite_none_left_eq_some,Option.some.injEq] at stepped
    obtain ⟨_,rfl⟩ := stepped
    exact .obeys _ rfl
  | applyForced payload =>
    simp only [World.step,Option.ite_none_left_eq_some,Option.some.injEq] at stepped
    obtain ⟨_,rfl⟩ := stepped
    exact .obeys _ rfl
  | tick time =>
    simp only [World.step,Option.ite_none_left_eq_some,Option.some.injEq] at stepped
    obtain ⟨_,rfl⟩ := stepped
    exact .obeys _ rfl
  | beginService =>
    simp only [World.step,Option.ite_none_left_eq_some,Option.some.injEq] at stepped
    obtain ⟨_,rfl⟩ := stepped
    exact .releases
  | runJob =>
    rw [World.step] at stepped
    split at stepped
    · rename_i job rest _ first
      obtain rfl := Option.some.inj stepped
      cases job with
      | callAgent data failTimeout => exact .calls data failTimeout rest first
      | timesUp data =>
        simp only [Upgrader.run,Upgrader.declareTimeoutExceeded,processLedger_eq]
        split
        · exact .forgets data rest first (by assumption)
        · exact .expires data rest first (by assumption)
    · simp at stepped
  | endService =>
    simp only [World.step,Option.ite_none_right_eq_some,Option.some.injEq] at stepped
    obtain ⟨_,rfl⟩ := stepped
    exact .obeys _ rfl
  | answered index taken =>
    rw [World.step] at stepped
    split at stepped
    · rename_i data failTimeout _ listed
      obtain rfl := Option.some.inj stepped
      cases taken with
      | true => exact .sent index data failTimeout listed
      | false => exact .unsent index data failTimeout listed
    · simp at stepped
  | caughtUp txns =>
    simp only [World.step,Option.ite_none_left_eq_some,Option.some.injEq] at stepped
    obtain ⟨_,rfl⟩ := stepped
    exact .obeys _ rfl
  | restart succeeded =>
    obtain rfl := Option.some.inj stepped
    exact .restarts succeeded

end Effects

/-- What is asked of every expiry at the head of the queue is asked of the one there. -/
theorem timesUp_first {V : Type} {up : Upgrader V} {data : UpgradeLogData V} {rest : List (Job V)}
    (first : up.actions.queue = .timesUp data :: rest) (holds : UpgradeLogData V → List (Job V) → Prop) :
    (∀ other later, up.actions.queue = .timesUp other :: later → holds other later) ↔ holds data rest := by
  constructor
  · intro all
    exact all data rest first
  · intro here other later waiting
    obtain ⟨same,rfl⟩ := List.cons.inj (first.symm.trans waiting)
    rw [← Job.timesUp.inj same]
    exact here

section Runs
variable {V : Type} [DecidableEq V] (setup : UpgradeSetup V) (permit : World V → Event → Prop)

/-- The worlds reached by steps that are all permitted where they are taken. -/
inductive Reached (start : World V) : World V → Prop where
  | start : Reached start start
  | step (before next : World V) (event : Event) (earlier : Reached start before)
      (permitted : permit before event) (stepped : before.step setup event = some next) : Reached start next

theorem Reached.invariant {start final : World V} (reached : Reached setup permit start final)
    (good : Upgrader V → Prop) (initial : good start.up)
    (advance : ∀ world event up, good world.up → permit world event → Effect setup world event up → good up) :
    good final.up := by
  induction reached with
  | start => exact initial
  | step before next event _ permitted stepped ih =>
    exact advance before event next.up ih permitted (before.step_effect setup next event stepped)

end Runs
end IndyNode.Upgrade

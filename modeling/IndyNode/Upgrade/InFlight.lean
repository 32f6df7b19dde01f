import IndyNode.Upgrade.Package
import IndyNode.Authorize.Unambiguous

/-! POOL_UPGRADE requests in flight. Validation reads the status of an upgrade off the
committed part of the config ledger, while transactions accepted earlier may wait for
their commit. -/
namespace IndyNode.Upgrade
open Authorize
open Nym (raiseIf raiseIf_ok)

/-- An entry of the config ledger. Of the other types of transactions none has both a
name and a version. -/
inductive ConfigEntry where
  | upgrade (op : UpgradeOperation)
  | other (payload : ConfigPayload) (unnamed : payload.name = none ∨ payload.version = none)

def ConfigEntry.payload : ConfigEntry → ConfigPayload
  | .upgrade op => ⟨some op.name,some op.version,some op.action.text⟩
  | .other payload _ => payload

/-- The entries of a ledger with and without their commit, in the order of the ledger. -/
structure ConfigLog where
  committed : List ConfigEntry
  uncommitted : List ConfigEntry

def ConfigLog.entries (log : ConfigLog) : List ConfigEntry := log.committed ++ log.uncommitted

def ConfigLog.append (log : ConfigLog) (entry : ConfigEntry) : ConfigLog :=
  ⟨log.committed,log.uncommitted ++ [entry]⟩

/-- The first entries that wait are committed. -/
def ConfigLog.commit (log : ConfigLog) (count : Nat) : ConfigLog :=
  ⟨log.committed ++ log.uncommitted.take count,log.uncommitted.drop count⟩

/-- All but the first entries that wait are taken back. -/
def ConfigLog.revert (log : ConfigLog) (kept : Nat) : ConfigLog :=
  ⟨log.committed,log.uncommitted.take kept⟩

/-- What happens at a node. Roles may change between two requests. -/
inductive OrderingEvent where
  | order (cache : IdrCache) (req : Request) (op : UpgradeOperation)
  | other (payload : ConfigPayload) (unnamed : payload.name = none ∨ payload.version = none)
  | commit (count : Nat)
  | revert (kept : Nat)

section Steps
variable {V : Type} [DecidableEq V] (auth : ValidatorConfig) (setup : UpgradeSetup V)
  (system : PackageSystem V)

def ConfigLog.accepts (log : ConfigLog) (cache : IdrCache) (req : Request) (op : UpgradeOperation) : Prop :=
  additionalDynamicValidation auth cache (log.committed.map ConfigEntry.payload) setup system req op = .ok ()

def ConfigLog.step (log : ConfigLog) : OrderingEvent → ConfigLog
  | .order cache req op =>
    match additionalDynamicValidation auth cache (log.committed.map ConfigEntry.payload) setup system req op with
    | .ok () => log.append (.upgrade op)
    | .error _ => log
  | .other payload unnamed => log.append (.other payload unnamed)
  | .commit count => log.commit count
  | .revert kept => log.revert kept

/-- The logs reached one after another, the first one included. -/
def ConfigLog.reached (log : ConfigLog) (events : List OrderingEvent) : List ConfigLog :=
  events.scanl (ConfigLog.step auth setup system) log

end Steps

section Actions

/-- The actions recorded for a name and a version. -/
def actionsFor (name version : String) (entries : List ConfigEntry) : List UpgradeAction :=
  entries.filterMap fun entry => match entry with
    | .upgrade op => if op.name = name ∧ op.version = version then some op.action else none
    | .other _ _ => none

@[simp] theorem actionsFor_append (name version : String) (earlier later : List ConfigEntry) :
    actionsFor name version (earlier ++ later) =
      actionsFor name version earlier ++ actionsFor name version later :=
  List.filterMap_append

@[simp] theorem actionsFor_upgrade (name version : String) (op : UpgradeOperation) :
    actionsFor name version [.upgrade op] =
      if op.name = name ∧ op.version = version then [op.action] else [] := by
  by_cases own : op.name = name ∧ op.version = version <;> simp [actionsFor,own]

@[simp] theorem actionsFor_other (name version : String) (payload : ConfigPayload)
    (unnamed : payload.name = none ∨ payload.version = none) :
    actionsFor name version [.other payload unnamed] = [] := rfl

private theorem upgradeStatus_actions (entries : List ConfigEntry) (op : UpgradeOperation) :
    upgradeStatus (entries.map ConfigEntry.payload) op =
      ((actionsFor op.name op.version entries).getLast?.map UpgradeAction.text).getD "*" := by
  induction entries using List.reverseRecOn with
  | nil => rfl
  | append_singleton entries entry ih =>
    rw [upgradeStatus] at ih ⊢
    rw [List.map_append,List.reverse_append,actionsFor_append]
    cases entry with
    | upgrade last =>
      by_cases own : last.name = op.name ∧ last.version = op.version
      · simp [ConfigEntry.payload,own]
      · have apart : ¬(some last.name = some op.name ∧ some last.version = some op.version) := by simpa using own
        simp only [List.map_cons,List.map_nil,List.reverse_singleton,List.singleton_append,ConfigEntry.payload,
          List.find?_cons,apart,decide_false,actionsFor_upgrade,own,if_false,List.append_nil]
        exact ih
    | other payload unnamed =>
      have apart : ¬(payload.name = some op.name ∧ payload.version = some op.version) := by
        rintro ⟨name,version⟩
        rcases unnamed with missing | missing
        · simp [missing] at name
        · simp [missing] at version
      simp only [List.map_cons,List.map_nil,List.reverse_singleton,List.singleton_append,ConfigEntry.payload,
        List.find?_cons,apart,decide_false,actionsFor_other,List.append_nil]
      exact ih

/-- The only ways through the default rules: a first START, and a CANCEL after a START. -/
theorem accepted_action {V : Type} [DecidableEq V] (setup : UpgradeSetup V) (system : PackageSystem V)
    (policy : AuthPolicy) (describe : Request → String) (log : ConfigLog) (cache : IdrCache) (req : Request)
    (op : UpgradeOperation) (accepted : log.accepts (defaultConfig policy describe) setup system cache req op) :
    (actionsFor op.name op.version log.committed).getLast? = none ∧ op.action = .start ∨
      (actionsFor op.name op.version log.committed).getLast? = some .start ∧ op.action = .cancel := by
  rw [ConfigLog.accepts,additionalDynamicValidation] at accepted
  obtain ⟨_,fresh,rest⟩ := bind_success _ _ _ accepted
  obtain ⟨_,valid,_⟩ := bind_success _ _ _ rest
  have notTwice := raiseIf_ok req _ _ fresh
  rw [upgradeStatus_actions] at notTwice valid
  -- Every other action has no rule in the map.
  have unruled : ∀ action : AuthAction, action.actionDef.Clean →
      (authRules.find? fun rule => rule.1.actionDef.accepts action.actionDef) = none →
      validate (defaultConfig policy describe) cache req [action] ≠ .ok () := by
    intro action clean none valid
    obtain ⟨constraint,found,_⟩ := (validate_iff _ _ _ _ _).mp valid
    rw [getAuthConstraint_default policy describe action clean,none] at found
    simp at found
  generalize (actionsFor op.name op.version log.committed).getLast? = last at *
  cases last with
  | none =>
    cases action : op.action with
    | start => exact .inl ⟨rfl,rfl⟩
    | cancel =>
      have asked : upgradeAuthAction "*" op = .add "109" "action" "cancel" true := by
        simp [upgradeAuthAction,action,UpgradeAction.text]
      simp only [Option.map_none,Option.getD_none,asked] at valid
      exact absurd valid (unruled _ (by decide) (by decide))
  | some last =>
    cases last with
    | start =>
      cases action : op.action with
      | start => simp [action,UpgradeAction.text] at notTwice
      | cancel => exact .inr ⟨rfl,rfl⟩
    | cancel =>
      have asked : upgradeAuthAction "cancel" op = .edit "109" "action" "cancel" op.action.text true := by
        simp [upgradeAuthAction]
      simp only [Option.map_some,Option.getD_some,UpgradeAction.text,asked] at valid
      cases action : op.action with
      | start =>
        rw [action] at valid
        exact absurd valid (unruled _ (by decide) (by decide))
      | cancel =>
        rw [action] at valid
        exact absurd valid (unruled _ (by decide) (by decide))

end Actions

section Shape

/-- A START, then a CANCEL, then nothing more, for every upgrade. -/
def ConfigLog.Shaped (log : ConfigLog) : Prop :=
  ∀ name version, actionsFor name version log.entries <+: [.start,.cancel]

private theorem shaped_iff_commits (log : ConfigLog) : log.Shaped ↔
    ∀ count name version, actionsFor name version (log.commit count).committed <+: [.start,.cancel] := by
  constructor
  · intro shaped count name version
    have part : (log.commit count).committed <+: log.entries :=
      (List.prefix_append_right_inj log.committed).mpr (List.take_prefix count log.uncommitted)
    exact (part.filterMap _).trans (shaped name version)
  · intro every name version
    have whole := every log.uncommitted.length name version
    rwa [ConfigLog.commit,List.take_length] at whole

private theorem commit_entries (log : ConfigLog) (count : Nat) : (log.commit count).entries = log.entries := by
  simp [ConfigLog.commit,ConfigLog.entries]

private theorem ConfigLog.Shaped.revert {log : ConfigLog} (shaped : log.Shaped) (kept : Nat) :
    (log.revert kept).Shaped := by
  intro name version
  have part : (log.revert kept).entries <+: log.entries :=
    (List.prefix_append_right_inj log.committed).mpr (List.take_prefix kept log.uncommitted)
  exact (part.filterMap _).trans (shaped name version)

private theorem shaped_cases (actions : List UpgradeAction) : actions <+: [.start,.cancel] ↔
    actions = [] ∨ actions = [.start] ∨ actions = [.start,.cancel] := by
  simp only [List.prefix_cons_iff,List.prefix_nil]
  constructor
  · rintro (rfl | ⟨rest,rfl,rfl | ⟨last,rfl,rfl⟩⟩) <;> simp
  · rintro (rfl | rfl | rfl) <;> simp

private theorem snoc_shaped_iff (recorded waiting : List UpgradeAction) (action : UpgradeAction)
    (shaped : recorded ++ waiting <+: [.start,.cancel])
    (accepted : recorded.getLast? = none ∧ action = .start ∨
      recorded.getLast? = some .start ∧ action = .cancel) :
    recorded ++ waiting ++ [action] <+: [.start,.cancel] ↔ waiting = [] := by
  have known := (shaped_cases recorded).mp ((List.prefix_append recorded waiting).trans shaped)
  rw [shaped_cases]
  rcases known with rfl | rfl | rfl
  · obtain rfl : action = .start := by simpa using accepted
    cases waiting with
    | nil => simp
    | cons first rest => cases rest <;> simp
  · obtain rfl : action = .cancel := by simpa using accepted
    cases waiting <;> simp
  · simp at accepted

private theorem append_shaped_iff (log : ConfigLog) (shaped : log.Shaped) (op : UpgradeOperation)
    (accepted : (actionsFor op.name op.version log.committed).getLast? = none ∧ op.action = .start ∨
      (actionsFor op.name op.version log.committed).getLast? = some .start ∧ op.action = .cancel) :
    (log.append (.upgrade op)).Shaped ↔ actionsFor op.name op.version log.uncommitted = [] := by
  have entries : ∀ name version, actionsFor name version (log.append (.upgrade op)).entries =
      actionsFor name version log.entries ++
        if op.name = name ∧ op.version = version then [op.action] else [] := by
    intro name version
    simp [ConfigLog.append,ConfigLog.entries,← List.append_assoc]
  have own := shaped op.name op.version
  rw [ConfigLog.entries,actionsFor_append] at own
  -- Only the upgrade that was ordered has one action more than before.
  have others : (log.append (.upgrade op)).Shaped ↔ actionsFor op.name op.version log.committed ++
      actionsFor op.name op.version log.uncommitted ++ [op.action] <+: [.start,.cancel] := by
    constructor
    · intro all
      have last := all op.name op.version
      rwa [entries,if_pos ⟨rfl,rfl⟩,ConfigLog.entries,actionsFor_append] at last
    · intro last name version
      rw [entries]
      by_cases same : op.name = name ∧ op.version = version
      · obtain ⟨rfl,rfl⟩ := same
        rwa [if_pos ⟨rfl,rfl⟩,ConfigLog.entries,actionsFor_append]
      · rw [if_neg same,List.append_nil]
        exact shaped name version
  rw [others]
  exact snoc_shaped_iff _ _ op.action own accepted

end Shape

section Runs
variable {V : Type} [DecidableEq V] (setup : UpgradeSetup V) (system : PackageSystem V)
  (auth : ValidatorConfig)

/-- A request that is accepted finds no entry for its name and version waiting. -/
def ConfigLog.Alone (log : ConfigLog) : OrderingEvent → Prop
  | .order cache req op => log.accepts auth setup system cache req op →
      actionsFor op.name op.version log.uncommitted = []
  | _ => True

def ConfigLog.AllAlone (log : ConfigLog) : List OrderingEvent → Prop
  | [] => True
  | event :: events => log.Alone setup system auth event ∧
      (log.step auth setup system event).AllAlone events

private theorem step_accepted (log : ConfigLog) (cache : IdrCache) (req : Request) (op : UpgradeOperation)
    (accepted : log.accepts auth setup system cache req op) :
    log.step auth setup system (.order cache req op) = log.append (.upgrade op) := by
  rw [ConfigLog.accepts] at accepted
  rw [ConfigLog.step,accepted]

private theorem step_refused (log : ConfigLog) (cache : IdrCache) (req : Request) (op : UpgradeOperation)
    (refused : ¬log.accepts auth setup system cache req op) :
    log.step auth setup system (.order cache req op) = log := by
  rw [ConfigLog.accepts] at refused
  rw [ConfigLog.step]
  split
  · rename_i accepted
    exact absurd accepted refused
  · rfl

variable (policy : AuthPolicy) (describe : Request → String)

private theorem step_shaped_iff (log : ConfigLog) (shaped : log.Shaped) (event : OrderingEvent) :
    (log.step (defaultConfig policy describe) setup system event).Shaped ↔
      log.Alone setup system (defaultConfig policy describe) event := by
  cases event with
  | order cache req op =>
    by_cases accepted : log.accepts (defaultConfig policy describe) setup system cache req op
    · rw [step_accepted setup system _ log cache req op accepted,append_shaped_iff log shaped op
        (accepted_action setup system policy describe log cache req op accepted)]
      exact ⟨fun none _ => none,fun none => none accepted⟩
    · rw [step_refused setup system _ log cache req op accepted]
      exact iff_of_true shaped fun wrong => absurd wrong accepted
  | other payload unnamed =>
    refine iff_of_true ?_ trivial
    intro name version
    have same : actionsFor name version (log.append (.other payload unnamed)).entries =
        actionsFor name version log.entries := by
      simp [ConfigLog.append,ConfigLog.entries]
    exact same ▸ shaped name version
  | commit count =>
    refine iff_of_true ?_ trivial
    intro name version
    exact commit_entries log count ▸ shaped name version
  | revert kept => exact iff_of_true (shaped.revert kept) trivial

private theorem reached_shaped_iff (log : ConfigLog) (shaped : log.Shaped) (events : List OrderingEvent) :
    (∀ later ∈ log.reached (defaultConfig policy describe) setup system events, later.Shaped) ↔
      log.AllAlone setup system (defaultConfig policy describe) events := by
  induction events generalizing log with
  | nil => simpa [ConfigLog.reached,ConfigLog.AllAlone] using shaped
  | cons event events ih =>
    have first : log.step (defaultConfig policy describe) setup system event ∈
        (log.step (defaultConfig policy describe) setup system event).reached (defaultConfig policy describe)
          setup system events := by
      cases events <;> simp [ConfigLog.reached]
    rw [ConfigLog.reached,List.scanl_cons,List.forall_mem_cons,and_iff_right shaped,ConfigLog.AllAlone,
      ← step_shaped_iff setup system policy describe log shaped event]
    constructor
    · intro all
      have next := all _ first
      exact ⟨next,(ih _ next).mp all⟩
    · rintro ⟨next,rest⟩
      exact (ih _ next).mpr rest

/-- From an empty config ledger, whatever is committed next in any state that is reached:
START and CANCEL are recorded once each and in this order for every name and version,
exactly if no request is accepted while an entry for the same upgrade waits. -/
theorem upgrade_actions_iff (events : List OrderingEvent) :
    (∀ log ∈ ConfigLog.reached (defaultConfig policy describe) setup system ⟨[],[]⟩ events,
      ∀ count name version, actionsFor name version (log.commit count).committed <+: [.start,.cancel]) ↔
    ConfigLog.AllAlone setup system (defaultConfig policy describe) ⟨[],[]⟩ events := by
  have empty : ConfigLog.Shaped ⟨[],[]⟩ := fun _ _ => List.nil_prefix
  rw [← reached_shaped_iff setup system policy describe _ empty events]
  simp only [shaped_iff_commits]

end Runs

def askedAgain (reqId : Nat) : Request := {Nym.signedByA with reqId := reqId}

/-- A trustee asks for the same upgrade twice before the first request is committed. -/
theorem upgrade_started_twice :
    ∃ log ∈ ConfigLog.reached (defaultConfig .configLedger fun _ => "") sampleSetup sampleSystem ⟨[],[]⟩
        [.order Nym.ledgerOfTrustee.cache (askedAgain 1) (planFor none),
          .order Nym.ledgerOfTrustee.cache (askedAgain 2) (planFor none),.commit 2],
      actionsFor "plan" "1.1" log.committed = [.start,.start] := by
  have allowed : ∀ reqId, validate (defaultConfig .configLedger fun _ => "") Nym.ledgerOfTrustee.cache
      (askedAgain reqId) [startUpgrade] = .ok () := by
    intro reqId
    exact validate_rule .configLedger _ _ _ (startUpgrade,oneTrusteeConstraint)
      (List.mem_of_getElem? (i := 37) rfl) startUpgrade rfl rfl
  have accepted : ∀ reqId waiting, ConfigLog.accepts (defaultConfig .configLedger fun _ => "") sampleSetup
      sampleSystem ⟨[],waiting⟩ Nym.ledgerOfTrustee.cache (askedAgain reqId) (planFor none) := by
    intro reqId waiting
    have unplanned : upgradeAuthAction (upgradeStatus [] (planFor none)) (planFor none) = startUpgrade := rfl
    have silent : refusal sampleSetup sampleSystem (planFor none) = "" := rfl
    simp only [ConfigLog.accepts,List.map_nil,additionalDynamicValidation,unplanned,allowed,silent]
    rfl
  refine ⟨⟨[.upgrade (planFor none),.upgrade (planFor none)],[]⟩,?_,by decide⟩
  rw [ConfigLog.reached,List.scanl_cons,List.scanl_cons,List.scanl_cons,List.scanl_nil,
    step_accepted _ _ _ _ _ _ _ (accepted 1 _),ConfigLog.append,step_accepted _ _ _ _ _ _ _ (accepted 2 _)]
  simp [ConfigLog.append,ConfigLog.step,ConfigLog.commit]

end IndyNode.Upgrade

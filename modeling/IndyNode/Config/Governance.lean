import IndyNode.Config.AuthRuleRuns
import IndyNode.Nym.Privilege

/-! Roles and rules together. The rules say who may change roles and who may change the rules,
so a run that mixes NYM with AUTH_RULE and AUTH_RULES transactions is judged by what it changes
itself. Where both ways go through trustees, nothing of it changes without one of them. -/
namespace IndyNode.Config
open Authorize Nym

inductive GovernanceTxn where
  | nym (submission : Submission)
  | rules (req : RuleRequest)

def GovernanceTxn.request : GovernanceTxn → Request
  | .nym submission => submission.req.toRequest
  | .rules req => req.toRequest

structure Governance where
  nyms : NymState
  rules : RuleState

section
variable (setup : Setup) (codec : KeyCodec) (loads : String → Except Raised Json)

/-- The NYM handler with the rules in force. -/
def nymSetup (rules : RuleState) : NymSetup := ⟨setup.validator rules,codec,loads⟩

def applyRules (cache : IdrCache) (state : RuleState) (req : RuleRequest) : Except Raised RuleState := do
  staticValidation setup req
  dynamicValidation setup cache state req
  updateState state req.operation

/-- A refused transaction changes nothing. -/
def Governance.step (state : Governance) : GovernanceTxn → Governance
  | .nym submission => { state with nyms := stepNym (nymSetup setup codec loads state.rules) state.nyms submission }
  | .rules req =>
    match applyRules setup state.nyms.cache state.rules req with
    | .ok rules => { state with rules := rules }
    | .error _ => state

def Governance.run (start : Governance) (txns : List GovernanceTxn) : Governance :=
  txns.foldl (Governance.step setup codec loads) start

/-- No transaction is signed by a DID that is a trustee when it is handled. -/
def TrusteesAbstain (start : Governance) (txns : List GovernanceTxn) : Prop :=
  ∀ before txn after, txns = before ++ txn :: after →
    ¬SignedByRole (start.run setup codec loads before).nyms txn.request [.trustee]

end

/-- The constraint in force for the action, if there is one, asks for a trustee. -/
def AsksTrustee (config : ValidatorConfig) (action : AuthAction) : Prop :=
  ∀ constraint, getAuthConstraint config action.actionId = .ok (some constraint) →
    constraint.Guarded (NamesOneOf [.trustee])

/-- Changes of the rules, and of the roles that may change them or come from them, go through trustees. -/
structure Entrenched (config : ValidatorConfig) : Prop where
  rules : ∀ operation : RuleOperation, AsksTrustee config (.edit operation.txnType "*" "*" "*" true)
  added : ∀ role, role = .trustee ∨ role = .steward → AsksTrustee config (addRole role)
  changed : ∀ old new, old ≠ new → new = .trustee ∨ new = .steward ∨ old = .trustee →
    AsksTrustee config (editRole old new)

private theorem AsksTrustee.signed {config : ValidatorConfig} {action rule : AuthAction}
    (asks : AsksTrustee config rule)
    {state : NymState} {req : Request} (valid : validate config state.cache req [action] = .ok ())
    (same : action.actionId = rule.actionId) : SignedByRole state req [.trustee] := by
  obtain ⟨constraint,found,holds⟩ := (validate_iff _ _ _ _ _).mp valid
  refine AndOrTree.Guarded.eval_implies ?_ constraint (asks constraint (same ▸ found)) holds
  intro leaf ⟨named,counts,onLedger⟩ passed
  obtain ⟨role,allowed,role_eq⟩ := List.mem_map.mp named
  rw [leafHolds,Bool.and_eq_true] at passed
  obtain ⟨signer,signs,has⟩ := named_role_signed state.cache req leaf action counts onLedger role role_eq.symm passed.1
  exact ⟨signer,signs,role,allowed,has⟩

private theorem asksTrustee_default (policy : AuthPolicy) (describe : Request → String) (action : AuthAction)
    (clean : action.actionDef.Clean) (names : RuleNames [.trustee] action) :
    AsksTrustee (defaultConfig policy describe) action := by
  intro constraint found
  rw [getAuthConstraint_default policy describe action clean] at found
  obtain ⟨rule,first,rfl⟩ := Option.map_eq_some_iff.mp (Except.ok.inj found)
  rw [RuleNames,first,Option.all_some,decide_eq_true_eq] at names
  exact names

/-- The default rules are of this kind. -/
theorem default_entrenched (policy : AuthPolicy) (describe : Request → String) :
    Entrenched (defaultConfig policy describe) := by
  refine ⟨fun operation => ?_,fun role privileged => ?_,fun old new differ privileged => ?_⟩
  · cases operation with
    | authRule rule => exact asksTrustee_default policy describe Authorize.authRule (by decide) (by decide)
    | authRules rules => exact asksTrustee_default policy describe authRulesEdit (by decide) (by decide)
  · exact asksTrustee_default policy describe _ (role_actions_clean role role).1 (add_trusted role privileged)
  · exact asksTrustee_default policy describe _ (role_actions_clean old new).2 (edit_trusted old new differ privileged)

section
variable (setup : Setup) (codec : KeyCodec) (loads : String → Except Raised Json)

/-- Rules and trustees are the same, and nobody has become a steward. -/
structure Unmoved (before after : Governance) : Prop where
  rules : after.rules = before.rules
  trustees : ∀ did, roleIn after.nyms did = some .trustee ↔ roleIn before.nyms did = some .trustee
  stewards : ∀ did, roleIn after.nyms did = some .steward → roleIn before.nyms did = some .steward

private theorem Unmoved.refl (state : Governance) : Unmoved state state := ⟨rfl,fun _ => Iff.rfl,fun _ => id⟩

private theorem Unmoved.trans {first second third : Governance} (earlier : Unmoved first second)
    (later : Unmoved second third) : Unmoved first third :=
  ⟨later.rules.trans earlier.rules,fun did => (later.trustees did).trans (earlier.trustees did),
    fun did has => earlier.stewards did (later.stewards did has)⟩

private theorem change_asks {config : ValidatorConfig} (entrenched : Entrenched config) {state : NymState}
    {req : Request}
    {new : Role} {before : Option Role} (changes : before ≠ some new)
    (privileged : new = .trustee ∨ new = .steward ∨ before = some .trustee)
    (valid : ChangeValidated config state req new before) : SignedByRole state req [.trustee] := by
  cases before with
  | none =>
    have granted : new = .trustee ∨ new = .steward := by simpa using privileged
    exact (entrenched.added new granted).signed valid rfl
  | some old =>
    obtain ⟨_,valid⟩ := valid
    have differ : old ≠ new := fun same => changes (same ▸ rfl)
    exact (entrenched.changed old new differ (by simpa using privileged)).signed valid rfl

private theorem nym_unmoved {state : Governance} (entrenched : Entrenched (setup.validator state.rules))
    (submission : Submission) (unsigned : ¬SignedByRole state.nyms submission.req.toRequest [.trustee]) :
    Unmoved state (state.step setup codec loads (.nym submission)) := by
  have kept : ∀ did, roleIn (state.step setup codec loads (.nym submission)).nyms did = roleIn state.nyms did ∨
      ∃ new, roleIn (state.step setup codec loads (.nym submission)).nyms did = some new ∧
        ¬(new = .trustee ∨ new = .steward ∨ roleIn state.nyms did = some .trustee) := by
    intro did
    rw [Governance.step,stepNym]
    cases applied : applyNym (nymSetup setup codec loads state.rules) state.nyms submission with
    | error raised => exact .inl rfl
    | ok next =>
      rcases role_change _ state.nyms next submission applied did with same | ⟨new,now,valid⟩
      · exact .inl same
      · by_cases unchanged : roleIn state.nyms did = some new
        · exact .inl (now.trans unchanged.symm)
        · exact .inr ⟨new,now,fun privileged => unsigned (change_asks entrenched unchanged privileged valid)⟩
  refine ⟨rfl,fun did => ?_,fun did has => ?_⟩
  · rcases kept did with same | ⟨new,now,plain⟩
    · rw [same]
    · rw [now]
      refine ⟨fun trustee => absurd (.inl (Option.some.inj trustee)) plain,
        fun trustee => absurd (.inr (.inr trustee)) plain⟩
  · rcases kept did with same | ⟨new,now,plain⟩
    · rwa [same] at has
    · rw [now] at has
      exact absurd (.inr (.inl (Option.some.inj has))) plain

private theorem rules_unmoved {state : Governance} (entrenched : Entrenched (setup.validator state.rules))
    (req : RuleRequest) (unsigned : ¬SignedByRole state.nyms req.toRequest [.trustee]) :
    Unmoved state (state.step setup codec loads (.rules req)) := by
  rw [Governance.step]
  cases applied : applyRules setup state.nyms.cache state.rules req with
  | error raised => exact .refl state
  | ok rules =>
    obtain ⟨_,_,allowed⟩ := bind_success _ _ _ applied
    obtain ⟨_,valid,_⟩ := bind_success _ _ _ allowed
    exact absurd ((entrenched.rules req.operation).signed valid rfl) unsigned

/-- As long as no trustee signs, the rules stay what they are, nobody becomes or ceases to be a
trustee and nobody becomes a steward, in whatever order NYMs and rules are submitted. -/
theorem governance_needs_trustee (start : Governance) (entrenched : Entrenched (setup.validator start.rules))
    (txns : List GovernanceTxn) (abstain : TrusteesAbstain setup codec loads start txns) :
    Unmoved start (start.run setup codec loads txns) := by
  induction txns generalizing start with
  | nil => exact .refl start
  | cons txn txns ih =>
    have unsigned := abstain [] txn txns rfl
    have moved : Unmoved start (start.step setup codec loads txn) := by
      cases txn with
      | nym submission => exact nym_unmoved setup codec loads entrenched submission unsigned
      | rules req => exact rules_unmoved setup codec loads entrenched req unsigned
    refine moved.trans (ih (start.step setup codec loads txn) (moved.rules ▸ entrenched) ?_)
    intro before other after shape
    exact abstain (txn::before) other after (by rw [shape]; rfl)

end

def plainRules : Setup := ⟨authMap,fun _ => ""⟩

def trusteeForB : Submission :=
  ⟨⟨signedByB,nymType,some "B",some (some "0"),some (some "keyB"),none,none⟩,2,none⟩

def onlyTrusteeA : Governance := ⟨ledgerOfTrustee,fun _ => none⟩

private theorem signedByB_untrusted (state : NymState) (plain : roleIn state didB ≠ some .trustee) :
    ¬SignedByRole state signedByB [.trustee] := by
  rintro ⟨signer,signs,role,allowed,has⟩
  obtain rfl : role = .trustee := List.mem_singleton.mp allowed
  rcases signs with ⟨_,own⟩ | listed
  · rw [Option.some.inj own] at plain
    exact plain has
  · exact absurd listed List.not_mem_nil

/-- `B` makes itself a trustee and writes a rule; without `A` neither is done. -/
theorem seizure_refused :
    Unmoved onlyTrusteeA (onlyTrusteeA.run plainRules plainSetup.codec plainSetup.loads
      [.nym trusteeForB,.rules ⟨signedByB,forbidSchemas⟩]) := by
  have entrenched : Entrenched (plainRules.validator onlyTrusteeA.rules) := default_entrenched .configLedger fun _ => ""
  have first : ¬SignedByRole onlyTrusteeA.nyms signedByB [.trustee] := signedByB_untrusted _ (by decide)
  have moved := nym_unmoved plainRules plainSetup.codec plainSetup.loads entrenched trusteeForB first
  refine governance_needs_trustee _ _ _ onlyTrusteeA entrenched _ fun before txn after shape => ?_
  match before,shape with
  | [],shape =>
    obtain ⟨rfl,_⟩ := List.cons.inj shape
    exact first
  | [earlier],shape =>
    obtain ⟨rfl,rest⟩ := List.cons.inj shape
    obtain ⟨rfl,_⟩ := List.cons.inj rest
    refine signedByB_untrusted _ fun trustee => ?_
    exact absurd ((moved.trustees didB).mp trustee) (by decide)
  | _::_::_,shape => simp at shape

end IndyNode.Config

import IndyNode.Nym.Handler
import IndyNode.Authorize.Signatures

/-! Roles under the default rules: an accepted NYM changes a role only with the
signature of a DID entitled to it, so privileges cannot appear from nowhere. -/
namespace IndyNode.Nym
open Authorize

def roleIn (state : NymState) (did : Did) : Option Role := getRoleOf state.cache did

def SignedByRole (state : NymState) (req : Request) (allowed : List Role) : Prop :=
  ∃ signer, req.SignedBy signer ∧ ∃ role ∈ allowed, roleIn state signer = some role

/-- The DID has the role afterwards and did not have it before. -/
def Gains (state next : NymState) (did : Did) (role : Role) : Prop :=
  roleIn state did ≠ some role ∧ roleIn next did = some role

structure RolesGuarded (state : NymState) (req : Request) (next : NymState) : Prop where
  granted : ∀ did role, role = .trustee ∨ role = .steward → Gains state next did role →
    SignedByRole state req [.trustee]
  revoked : ∀ did, roleIn state did = some .trustee → roleIn next did ≠ some .trustee →
    SignedByRole state req [.trustee]
  delegated : ∀ did role, role = .endorser ∨ role = .networkMonitor → Gains state next did role →
    SignedByRole state req [.trustee,.steward]

def NamesOneOf (allowed : List Role) (constraint : AuthConstraint) : Prop :=
  constraint.role ∈ allowed.map RoleSpec.role ∧ 1 ≤ constraint.sigCount ∧
    constraint.acceptsOffLedger = false

instance (allowed : List Role) : DecidablePred (NamesOneOf allowed) := fun _ =>
  inferInstanceAs (Decidable (_ ∧ _ ∧ _))

/-- The default rule for an action is guarded by the roles. -/
def RuleNames (allowed : List Role) (action : AuthAction) : Prop :=
  (authRules.find? fun rule => rule.1.actionDef.accepts action.actionDef).all
    (fun rule => decide (rule.2.Guarded (NamesOneOf allowed))) = true

instance (allowed : List Role) (action : AuthAction) : Decidable (RuleNames allowed action) :=
  inferInstanceAs (Decidable (_ = true))

theorem add_trusted (role : Role) (privileged : role = .trustee ∨ role = .steward) :
    RuleNames [.trustee] (addRole role) := by
  rcases privileged with rfl | rfl
  · decide
  · decide

private theorem add_delegated (role : Role) (delegated : role = .endorser ∨ role = .networkMonitor) :
    RuleNames [.trustee,.steward] (addRole role) := by
  rcases delegated with rfl | rfl
  · decide
  · decide

theorem edit_trusted (old new : Role) (changed : old ≠ new)
    (privileged : new = .trustee ∨ new = .steward ∨ old = .trustee) :
    RuleNames [.trustee] (editRole old new) := by
  cases old <;> cases new <;> first | decide | simp at changed privileged

private theorem edit_delegated (old new : Role) (changed : old ≠ new)
    (delegated : new = .endorser ∨ new = .networkMonitor) :
    RuleNames [.trustee,.steward] (editRole old new) := by
  cases old <;> cases new <;> first | decide | simp at changed delegated

section
variable (policy : AuthPolicy) (describe : Request → String)

private theorem rule_signed (state : NymState) (req : Request) (action rule : AuthAction)
    (allowed : List Role) (same : action.actionDef = rule.actionDef)
    (clean : rule.actionDef.Clean) (names : RuleNames allowed rule)
    (valid : validate (defaultConfig policy describe) state.cache req [action] = .ok ()) :
    SignedByRole state req allowed := by
  obtain ⟨constraint,search,holds⟩ := (validate_iff _ _ _ _ _).mp valid
  rw [getAuthConstraint_default policy describe action (same ▸ clean),same] at search
  rw [RuleNames] at names
  obtain ⟨entry,first,constraint_eq⟩ := Option.map_eq_some_iff.mp (Except.ok.inj search)
  rw [first,Option.all_some,decide_eq_true_eq,constraint_eq] at names
  refine AndOrTree.Guarded.eval_implies ?_ constraint names holds
  intro leaf ⟨named,counts,onLedger⟩ passed
  obtain ⟨role,allowed_role,role_eq⟩ := List.mem_map.mp named
  rw [leafHolds,Bool.and_eq_true] at passed
  obtain ⟨signer,signs,has⟩ :=
    named_role_signed state.cache req leaf action counts onLedger role role_eq.symm passed.1
  exact ⟨signer,signs,role,allowed_role,has⟩

theorem role_actions_clean (old new : Role) :
    (addRole new).actionDef.Clean ∧ (editRole old new).actionDef.Clean := by
  cases old <;> cases new <;> decide

end

private theorem roleIn_eq (state : NymState) (did : Did) :
    roleIn state did = (state.nyms did).map NymRecord.role := by
  rw [roleIn,getRoleOf,state.agrees,Option.map_map]
  rfl

private theorem roleIn_update_other (state : NymState) (author : Option Did) (op : NymOperation)
    (seqNo : Nat) (txnTime : Option Nat) (did : Did) (other : did ≠ op.dest) :
    roleIn (state.update author op seqNo txnTime) did = roleIn state did := by
  simp [roleIn,getRoleOf,NymState.update,other]

private theorem roleIn_update_dest (state : NymState) (author : Option Did) (op : NymOperation)
    (seqNo : Nat) (txnTime : Option Nat) :
    roleIn (state.update author op seqNo txnTime) op.dest =
      some (op.role.getD ((roleIn state op.dest).getD .identityOwner)) := by
  rw [roleIn_eq state]
  cases existing : state.nyms op.dest with
  | none => simp [roleIn,getRoleOf,NymState.update,updatedRecord,NymRecord.cacheEntry,existing]
  | some record => simp [roleIn,getRoleOf,NymState.update,updatedRecord,NymRecord.cacheEntry,existing]

/-- The action behind a change of a role: the addition of an unknown DID or an edit. -/
def ChangeValidated (config : ValidatorConfig) (state : NymState) (req : Request) (new : Role) :
    Option Role → Prop
  | none => validate config state.cache req [addRole new] = .ok ()
  | some old => ∃ isOwner,
      validate config state.cache req [.edit nymType "role" old.code new.code isOwner] = .ok ()

private theorem new_validated (setup : NymSetup) (state : NymState) (req : Request) (op : NymOperation)
    (valid : validateNewNym setup state.cache req op = .ok ()) :
    validate setup.config state.cache req [addRole (op.role.getD .identityOwner)] = .ok () := by
  obtain ⟨_,_,version⟩ := bind_success _ _ _ valid
  obtain ⟨_,_,added⟩ := bind_success _ _ _ version
  exact added

private theorem existing_validated (setup : NymSetup) (state : NymState) (req : Request) (op : NymOperation)
    (entry : CacheEntry) (new : Role) (given : op.role = some new)
    (valid : validateExistingNym setup state.cache req op entry = .ok ()) :
    ∃ isOwner, validate setup.config state.cache req
      [.edit nymType "role" entry.role.code new.code isOwner] = .ok () := by
  obtain ⟨_,_,updates⟩ := bind_success _ _ _ valid
  obtain ⟨_,updated,_⟩ := bind_success _ _ _ updates
  obtain ⟨_,role,_⟩ := bind_success _ _ _ updated
  rw [given] at role
  exact ⟨_,role⟩

/-- What an accepted NYM does to roles: nothing, or a change whose action was
validated. -/
theorem role_change (setup : NymSetup) (state next : NymState) (sub : Submission)
    (applied : applyNym setup state sub = .ok next) (did : Did) :
    roleIn next did = roleIn state did ∨
      ∃ new, roleIn next did = some new ∧
        ChangeValidated setup.config state sub.req.toRequest new (roleIn state did) := by
  obtain ⟨op,_,checked⟩ := bind_success _ _ _ applied
  obtain ⟨_,valid,updated⟩ := bind_success _ _ _ checked
  rw [← Except.ok.inj updated]
  by_cases target : did = op.dest
  · rw [target,roleIn_update_dest]
    rw [additionalDynamicValidation] at valid
    cases known : state.cache op.dest with
    | none =>
      rw [known] at valid
      have unknown : roleIn state op.dest = none := by simp [roleIn,getRoleOf,known]
      refine Or.inr ⟨_,rfl,?_⟩
      rw [unknown]
      exact new_validated setup state sub.req.toRequest op valid
    | some entry =>
      rw [known] at valid
      have old : roleIn state op.dest = some entry.role := by simp [roleIn,getRoleOf,known]
      rw [old]
      cases given : op.role with
      | none => exact Or.inl rfl
      | some new =>
        exact Or.inr ⟨new,rfl,existing_validated setup state _ op entry new given valid⟩
  · exact Or.inl (roleIn_update_other state _ op _ _ did target)

section
variable (policy : AuthPolicy) (describe : Request → String) (codec : KeyCodec)
  (loads : String → Except Raised Json)

def defaultSetup : NymSetup := ⟨defaultConfig policy describe,codec,loads⟩

private theorem change_signed (state : NymState) (req : Request) (allowed : List Role) (new : Role)
    (before : Option Role) (added : before = none → RuleNames allowed (addRole new))
    (edited : ∀ old, before = some old → RuleNames allowed (editRole old new))
    (valid : ChangeValidated (defaultConfig policy describe) state req new before) :
    SignedByRole state req allowed := by
  cases before with
  | none =>
    exact rule_signed policy describe state req _ (addRole new) allowed rfl
      (role_actions_clean new new).1 (added rfl) valid
  | some old =>
    obtain ⟨isOwner,valid⟩ := valid
    exact rule_signed policy describe state req (.edit nymType "role" old.code new.code isOwner)
      (editRole old new) allowed rfl (role_actions_clean old new).2 (edited old rfl) valid

private theorem gain_signed (state next : NymState) (sub : Submission) (allowed : List Role) (did : Did)
    (role : Role) (added : RuleNames allowed (addRole role))
    (edited : ∀ old, old ≠ role → RuleNames allowed (editRole old role))
    (applied : applyNym (defaultSetup policy describe codec loads) state sub = .ok next)
    (gains : Gains state next did role) : SignedByRole state sub.req.toRequest allowed := by
  obtain ⟨before,after⟩ := gains
  rcases role_change _ state next sub applied did with same | ⟨new,now,valid⟩
  · exact absurd (same ▸ after) before
  rw [after] at now
  cases now
  refine change_signed policy describe state _ allowed role _ (fun _ => added) ?_ valid
  intro old known
  exact edited old fun same => before (by rw [known,same])

private theorem loss_signed (state next : NymState) (sub : Submission) (did : Did)
    (applied : applyNym (defaultSetup policy describe codec loads) state sub = .ok next)
    (before : roleIn state did = some .trustee) (after : roleIn next did ≠ some .trustee) :
    SignedByRole state sub.req.toRequest [.trustee] := by
  rcases role_change _ state next sub applied did with same | ⟨new,now,valid⟩
  · exact absurd (same.trans before) after
  rw [before] at valid
  refine change_signed policy describe state _ _ new _ (fun unknown => absurd unknown (by simp)) ?_ valid
  intro old known
  cases known
  exact edit_trusted .trustee new (fun same => after (by rw [now,same])) (Or.inr (Or.inr rfl))

private theorem step_guarded (state next : NymState) (sub : Submission)
    (applied : applyNym (defaultSetup policy describe codec loads) state sub = .ok next) :
    RolesGuarded state sub.req.toRequest next := by
  refine ⟨fun did role privileged gains => ?_,fun did before after => ?_,
    fun did role delegated gains => ?_⟩
  · refine gain_signed policy describe codec loads state next sub _ did role
      (add_trusted role privileged) (fun old changed => ?_) applied gains
    exact edit_trusted old role changed (privileged.elim Or.inl fun steward => Or.inr (Or.inl steward))
  · exact loss_signed policy describe codec loads state next sub did applied before after
  · exact gain_signed policy describe codec loads state next sub _ did role
      (add_delegated role delegated) (fun old changed => edit_delegated old role changed delegated)
      applied gains

private theorem no_trustee_signs (state : NymState) (req : Request)
    (absent : ∀ did, roleIn state did ≠ some .trustee) : ¬SignedByRole state req [.trustee] := by
  intro ⟨signer,_,role,allowed,has⟩
  rw [List.mem_singleton.mp allowed] at has
  exact absent signer has

private theorem step_without_trustee (state : NymState) (sub : Submission)
    (absent : ∀ did, roleIn state did ≠ some .trustee) (did : Did) (role : Role)
    (privileged : role = .trustee ∨ role = .steward)
    (has : roleIn (stepNym (defaultSetup policy describe codec loads) state sub) did = some role) :
    roleIn state did = some role := by
  rw [stepNym] at has
  split at has
  · rename_i next applied
    refine Classical.byContradiction fun before => ?_
    exact no_trustee_signs state sub.req.toRequest absent
      ((step_guarded policy describe codec loads state next sub applied).granted did role privileged
        ⟨before,has⟩)
  · exact has

private theorem run_without_trustee (start : NymState) (subs : List Submission)
    (absent : ∀ did, roleIn start did ≠ some .trustee) (did : Did) (role : Role)
    (privileged : role = .trustee ∨ role = .steward)
    (has : roleIn (runNyms (defaultSetup policy describe codec loads) start subs) did = some role) :
    roleIn start did = some role := by
  induction subs generalizing start with
  | nil => exact has
  | cons sub subs ih =>
    have kept := step_without_trustee policy describe codec loads start sub absent
    refine kept did role privileged (ih _ ?_ has)
    intro other appears
    exact absent other (kept other .trustee (Or.inl rfl) appears)

/-- Along every run each change of a privileged role is signed by a role entitled
to it; a ledger without trustees gets no trustee and no further steward. -/
theorem privileges_do_not_escalate (start : NymState) (subs : List Submission) :
    (∀ before sub after next, subs = before ++ sub :: after →
      applyNym (defaultSetup policy describe codec loads)
        (runNyms (defaultSetup policy describe codec loads) start before) sub = .ok next →
      RolesGuarded (runNyms (defaultSetup policy describe codec loads) start before)
        sub.req.toRequest next) ∧
    ((∀ did, roleIn start did ≠ some .trustee) → ∀ did,
      let final := runNyms (defaultSetup policy describe codec loads) start subs
      roleIn final did ≠ some .trustee ∧
        (roleIn final did = some .steward → roleIn start did = some .steward)) := by
  refine ⟨fun before sub _ next _ applied => ?_,fun absent did => ⟨fun appears => ?_,fun appears => ?_⟩⟩
  · exact step_guarded policy describe codec loads _ next sub applied
  · exact absent did (run_without_trustee policy describe codec loads start subs absent did _
      (Or.inl rfl) appears)
  · exact run_without_trustee policy describe codec loads start subs absent did _ (Or.inr rfl) appears

end

/-- `A` is a trustee, nobody else is known. -/
def trusteeA : NymRecord := ⟨none,.trustee,some "keyA",none,none,1,none⟩

def ledgerOfTrustee : NymState where
  nyms did := if did = didA then some trusteeA else none
  cache did := if did = didA then some trusteeA.cacheEntry else none
  agrees did := by
    by_cases same : did = didA
    · simp [same]
    · simp [same]

def signedByA : Request where
  identifier := some didA
  reqId := 1
  signature := some "sigA"
  signatures := []
  endorser := none
  distinct := by decide
  identified := by decide

def signedByB : Request := { signedByA with identifier := some didB, identified := by decide }

def stewardForB : Submission :=
  ⟨⟨signedByA,nymType,some "B",some (some "2"),some (some "keyB"),none,none⟩,2,none⟩

/-- Keys are not decoded and no document is read in a NYM without version and document. -/
def plainSetup : NymSetup :=
  defaultSetup .configLedger (fun _ => "") ⟨fun _ => "",fun _ => .error .valueError,id⟩
    fun _ => .error .valueError

def base58Alphabet : List Char := "123456789ABCDEFGHJKLMNPQRSTUVWXYZabcdefghijkmnopqrstuvwxyz".toList

/-- The digits of a number from the highest on, at most `fuel` of them. -/
def digitsIn (base : Nat) : Nat → Nat → List Nat
  | 0,_ => []
  | fuel + 1,n => if n = 0 then [] else digitsIn base fuel (n / base) ++ [n % base]

/-- Base58; a leading `1` is a zero byte. No digest is taken. -/
def base58Codec : KeyCodec where
  b58encode bytes :=
    let number := bytes.foldl (fun total byte => total * 256 + byte.toNat) 0
    String.ofList ((bytes.takeWhile (· = 0)).map (fun _ => '1') ++
      (digitsIn 58 (2 * bytes.length) number).map fun digit => base58Alphabet.getD digit '1')
  b58decode
    | none => .error .attributeError
    | some text =>
      match text.toList.mapM base58Alphabet.idxOf? with
      | none => .error .valueError
      | some digits =>
        let number := digits.foldl (fun total digit => total * 58 + digit) 0
        .ok ((text.toList.takeWhile (· = '1')).map (fun _ => 0) ++
          (digitsIn 256 text.length number).map UInt8.ofNat)
  sha256 := id

def stewardB : NymOperation := ⟨didB,some .steward,some (some "keyB"),none,none⟩

theorem trustee_adds_steward : ∃ next, applyNym plainSetup ledgerOfTrustee stewardForB = .ok next ∧
    Gains ledgerOfTrustee next didB .steward ∧
    SignedByRole ledgerOfTrustee stewardForB.req.toRequest [.trustee] := by
  have parsed : staticValidation plainSetup.loads stewardForB.req = .ok stewardB := by
    decide
  have checked : additionalDynamicValidation plainSetup ledgerOfTrustee.cache
      stewardForB.req.toRequest stewardB = .ok () := by
    -- Identifiers of actions are compared part by part, as in the proofs above.
    have author : validateAuthor ledgerOfTrustee.cache signedByA stewardB = .ok () := by
      decide
    have added : validate plainSetup.config ledgerOfTrustee.cache signedByA [addRole .steward] =
        .ok () := by
      rw [validate_iff]
      refine ⟨oneTrusteeConstraint,?_,by decide⟩
      rw [plainSetup,defaultSetup,getAuthConstraint_default _ _ _ (by decide)]
      rfl
    have unfolded : additionalDynamicValidation plainSetup ledgerOfTrustee.cache signedByA stewardB =
        validateNewNym plainSetup ledgerOfTrustee.cache signedByA stewardB := rfl
    rw [stewardForB,unfolded,validateNewNym,author,ok_bind]
    exact added
  have applied : applyNym plainSetup ledgerOfTrustee stewardForB =
      .ok (ledgerOfTrustee.update (some didA) stewardB 2 none) := by
    rw [applyNym,parsed,ok_bind,checked]
    rfl
  have gains : Gains ledgerOfTrustee (ledgerOfTrustee.update (some didA) stewardB 2 none) didB
      .steward := ⟨by decide,by decide⟩
  refine ⟨_,applied,gains,?_⟩
  have guarded := (privileges_do_not_escalate .configLedger (fun _ => "") _ _ ledgerOfTrustee
    [stewardForB]).1 [] stewardForB [] _ rfl applied
  exact guarded.granted didB .steward (Or.inr rfl) gains

end IndyNode.Nym

import IndyNode.Nym.Handler
import Mathlib.Data.List.Induction

/-! What one accepted NYM has passed and what it changes, and how runs are made
of such steps. -/
namespace IndyNode.Nym
open Authorize

/-- `is_owner` of an update, read off the domain state: a DID with a key owns
itself, a DID without one belongs to its creator. -/
def ownerOf (did : Did) (record : NymRecord) : Option Did :=
  if truthy (storedVerkey record.verkey) then some did else record.identifier

def isOwner (req : Request) (did : Did) (record : NymRecord) : Bool :=
  req.identifier = ownerOf did record

structure Updates (setup : NymSetup) (cache : IdrCache) (req : Request) (op : NymOperation)
    (record : NymRecord) : Prop where
  unversioned : op.version = none
  role : ∀ role, op.role = some role → validate setup.config cache req
    [.edit nymType "role" record.role.code role.code (isOwner req op.dest record)] = .ok ()
  verkey : ∀ verkey, op.verkey = some verkey → validate setup.config cache req
    [.edit nymType "verkey" ((storedVerkey record.verkey).getD "") (verkey.getD "")
      (isOwner req op.dest record)] = .ok ()
  entitled : isOwner req op.dest record = true ∨ op.role.isSome = true ∨ op.verkey.isSome = true

structure Creates (setup : NymSetup) (cache : IdrCache) (req : Request) (op : NymOperation) :
    Prop where
  author : validateAuthor cache req op = .ok ()
  version : validateVersion setup req op = .ok ()
  added : validate setup.config cache req
    [.add nymType "role" (op.role.getD .identityOwner).code true] = .ok ()

inductive Accepted (setup : NymSetup) (state : NymState) (req : Request) (op : NymOperation) : Prop
  | created (unknown : state.nyms op.dest = none) (creates : Creates setup state.cache req op)
  | updated (record : NymRecord) (known : state.nyms op.dest = some record)
      (updates : Updates setup state.cache req op record)

theorem raiseIf_ok (req : Request) (wrong : Bool) (reason : String)
    (passed : raiseIf req wrong reason = .ok ()) : wrong = false := by
  cases wrong with
  | false => rfl
  | true => simp [raiseIf] at passed

private theorem validateUpdate_given (setup : NymSetup) (cache : IdrCache) (req : Request)
    (field oldValue value : String) (owner : Bool)
    (passed : validateUpdate setup cache req field oldValue (some value) owner = .ok ()) :
    validate setup.config cache req [.edit nymType field oldValue value owner] = .ok () := passed

private theorem validateExistingNym_passed (setup : NymSetup) (cache : IdrCache) (req : Request)
    (op : NymOperation) (record : NymRecord)
    (passed : validateExistingNym setup cache req op record.cacheEntry = .ok ()) :
    Updates setup cache req op record := by
  obtain ⟨_,unversioned,passed⟩ := bind_success _ _ _ passed
  obtain ⟨_,updates,entitled⟩ := bind_success _ _ _ passed
  obtain ⟨_,role,verkey⟩ := bind_success _ _ _ updates
  have without := raiseIf_ok _ _ _ unversioned
  have entitled := raiseIf_ok _ _ _ entitled
  refine ⟨by simpa using without,fun given same => ?_,fun given same => ?_,?_⟩
  · rw [same] at role
    exact validateUpdate_given _ _ _ _ _ _ _ role
  · rw [same] at verkey
    exact validateUpdate_given _ _ _ _ _ _ _ verkey
  · rw [Bool.not_eq_false',Bool.or_eq_true,Bool.or_eq_true,or_assoc] at entitled
    exact entitled

/-- Everything an accepted NYM can be: its operation is well formed, it creates
or updates its target, and the state is updated with it. -/
theorem applyNym_accepted (setup : NymSetup) (state next : NymState) (sub : Submission)
    (applied : applyNym setup state sub = .ok next) :
    ∃ op, staticValidation setup.loads sub.req = .ok op ∧
      Accepted setup state sub.req.toRequest op ∧
      next = state.update sub.req.identifier op sub.seqNo sub.txnTime := by
  obtain ⟨op,parsed,checked⟩ := bind_success _ _ _ applied
  obtain ⟨_,valid,updated⟩ := bind_success _ _ _ checked
  refine ⟨op,parsed,?_,(Except.ok.inj updated).symm⟩
  rw [additionalDynamicValidation,state.agrees] at valid
  cases known : state.nyms op.dest with
  | none =>
    rw [known] at valid
    obtain ⟨_,author,valid⟩ := bind_success _ _ _ valid
    obtain ⟨_,version,added⟩ := bind_success _ _ _ valid
    exact .created known ⟨author,version,added⟩
  | some record =>
    rw [known] at valid
    exact .updated record known (validateExistingNym_passed setup _ _ op record valid)

section Update
variable (state : NymState) (author : Option Did) (op : NymOperation) (seqNo : Nat)
  (txnTime : Option Nat)

theorem update_dest : (state.update author op seqNo txnTime).nyms op.dest =
    some (updatedRecord (state.nyms op.dest) author op seqNo txnTime) := by
  simp [NymState.update]

theorem update_other (did : Did) (other : did ≠ op.dest) :
    (state.update author op seqNo txnTime).nyms did = state.nyms did := by
  simp [NymState.update,other]

end Update

theorem runNyms_snoc (setup : NymSetup) (start : NymState) (subs : List Submission)
    (sub : Submission) :
    runNyms setup start (subs ++ [sub]) = stepNym setup (runNyms setup start subs) sub := by
  rw [runNyms,runNyms,List.foldl_append]
  rfl

theorem stepNym_applied (setup : NymSetup) (state next : NymState) (sub : Submission)
    (applied : applyNym setup state sub = .ok next) : stepNym setup state sub = next := by
  rw [stepNym,applied]

structure Mention where
  author : Option Did
  op : NymOperation

/-- The mention a step makes of a DID, if it is accepted and targets it. -/
def mentionOf (setup : NymSetup) (state : NymState) (did : Did) (sub : Submission) : Option Mention :=
  match applyNym setup state sub,staticValidation setup.loads sub.req with
  | .ok _,.ok op => if op.dest = did then some ⟨sub.req.identifier,op⟩ else none
  | _,_ => none

/-- A step that does not mention a DID leaves its record as it is. -/
theorem stepNym_record (setup : NymSetup) (state : NymState) (did : Did) (sub : Submission) :
    (mentionOf setup state did sub = none ∧ (stepNym setup state sub).nyms did = state.nyms did) ∨
      ∃ op, mentionOf setup state did sub = some ⟨sub.req.identifier,op⟩ ∧
        staticValidation setup.loads sub.req = .ok op ∧ op.dest = did ∧
        Accepted setup state sub.req.toRequest op ∧ (stepNym setup state sub).nyms did =
          some (updatedRecord (state.nyms did) sub.req.identifier op sub.seqNo sub.txnTime) := by
  cases applied : applyNym setup state sub with
  | error raised =>
    refine Or.inl ⟨by rw [mentionOf,applied],?_⟩
    rw [stepNym,applied]
  | ok next =>
    obtain ⟨op,parsed,accepted,updated⟩ := applyNym_accepted setup state next sub applied
    rw [stepNym_applied _ _ _ _ applied,updated]
    by_cases target : op.dest = did
    · subst target
      refine Or.inr ⟨op,?_,parsed,rfl,accepted,update_dest _ _ _ _ _⟩
      rw [mentionOf,applied,parsed]
      simp
    · refine Or.inl ⟨?_,update_other _ _ _ _ _ did (Ne.symm target)⟩
      rw [mentionOf,applied,parsed]
      simp [target]

/-- Who put a DID on the ledger: the author of the transaction after which it is
first known, or whoever the record names at the start. -/
def CreatedBy (setup : NymSetup) (start : NymState) (subs : List Submission) (did : Did)
    (creator : Option Did) : Prop :=
  (∃ record, start.nyms did = some record ∧ creator = record.identifier) ∨
    ∃ before sub after, subs = before ++ sub :: after ∧ (runNyms setup start before).nyms did = none ∧
      (runNyms setup start (before ++ [sub])).nyms did ≠ none ∧ creator = sub.req.identifier

private theorem CreatedBy.later {setup : NymSetup} {start : NymState} {subs : List Submission} {did : Did}
    {creator : Option Did} (created : CreatedBy setup start subs did creator) (sub : Submission) :
    CreatedBy setup start (subs ++ [sub]) did creator := by
  rcases created with initial | ⟨before,first,after,split,rest⟩
  · exact Or.inl initial
  · refine Or.inr ⟨before,first,after ++ [sub],?_,rest⟩
    rw [split,List.append_assoc,List.cons_append]

theorem run_creator (setup : NymSetup) (start : NymState) (subs : List Submission) (did : Did)
    (record : NymRecord) (known : (runNyms setup start subs).nyms did = some record) :
    CreatedBy setup start subs did record.identifier := by
  induction subs using List.reverseRecOn generalizing record with
  | nil => exact Or.inl ⟨record,known,rfl⟩
  | append_singleton subs sub ih =>
    have after := known
    rw [runNyms_snoc] at known
    rcases stepNym_record setup (runNyms setup start subs) did sub with
      ⟨_,same⟩ | ⟨op,_,_,_,_,updated⟩
    · rw [same] at known
      exact (ih record known).later sub
    rw [updated,Option.some.injEq] at known
    cases earlier : (runNyms setup start subs).nyms did with
    | none =>
      refine Or.inr ⟨subs,sub,[],rfl,earlier,by rw [after]; simp,?_⟩
      rw [← known,earlier]
      rfl
    | some old =>
      have kept : record.identifier = old.identifier := by
        rw [← known,earlier]
        rfl
      rw [kept]
      exact (ih old earlier).later sub

end IndyNode.Nym

import IndyNode.Nym.Steps
import IndyNode.Nym.Privilege

/-! The record of a DID as a function of its accepted transactions: the last
mention of each field, the author and the version of the first transaction. -/
namespace IndyNode.Nym
open Authorize

/-- The accepted transactions of a run for one DID, in order. -/
def mentions (setup : NymSetup) (did : Did) : NymState → List Submission → List Mention
  | _,[] => []
  | state,sub::subs =>
    (mentionOf setup state did sub).toList ++ mentions setup did (stepNym setup state sub) subs

/-- The value in the latest transaction that has one. -/
def lastValue {α : Type} (field : NymOperation → Option α) (history : List Mention) : Option α :=
  history.reverse.findSome? fun mention => field mention.op

private theorem lastValue_snoc {α : Type} (field : NymOperation → Option α) (history : List Mention)
    (mention : Mention) :
    lastValue field (history ++ [mention]) = (field mention.op).or (lastValue field history) := by
  rw [lastValue,lastValue,List.reverse_append,List.reverse_singleton,List.singleton_append,
    List.findSome?_cons]
  cases field mention.op with
  | none => rfl
  | some value => rfl

private theorem mentions_snoc (setup : NymSetup) (did : Did) (start : NymState) (subs : List Submission)
    (sub : Submission) : mentions setup did start (subs ++ [sub]) =
      mentions setup did start subs ++ (mentionOf setup (runNyms setup start subs) did sub).toList := by
  induction subs generalizing start with
  | nil => simp [mentions,runNyms]
  | cons first subs ih =>
    rw [List.cons_append,mentions,mentions,ih,List.append_assoc]
    rfl

/-- The DID is derived from the key as the version of its creation asks. -/
def DerivedAs (codec : KeyCodec) (did : Did) (verkey : Option String) (version : Option Int) : Prop :=
  (version = some 1 → ∃ bytes, codec.b58decode verkey = .ok bytes ∧
    did.val = codec.b58encode (bytes.take 16)) ∧
  (version = some 2 → ∃ bytes, codec.b58decode verkey = .ok bytes ∧
    did.val = codec.b58encode ((codec.sha256 bytes).take 16))

private theorem validateVersion_derived (setup : NymSetup) (req : Request) (op : NymOperation)
    (passed : validateVersion setup req op = .ok ()) :
    DerivedAs setup.codec op.dest op.verkey.get op.version.get := by
  refine ⟨fun legacy => ?_,fun certified => ?_⟩
  · rw [validateVersion,if_pos legacy] at passed
    obtain ⟨valid,checked,passed⟩ := bind_success _ _ _ passed
    obtain ⟨bytes,decoded,compared⟩ := bind_success _ _ _ checked
    have holds := raiseIf_ok _ _ _ passed
    rw [← Except.ok.inj compared,Bool.not_eq_false',decide_eq_true_eq] at holds
    exact ⟨bytes,decoded,holds⟩
  · rw [validateVersion,if_neg (by rw [certified]; decide),if_pos certified] at passed
    obtain ⟨valid,checked,passed⟩ := bind_success _ _ _ passed
    obtain ⟨bytes,decoded,compared⟩ := bind_success _ _ _ checked
    have holds := raiseIf_ok _ _ _ passed
    rw [← Except.ok.inj compared,Bool.not_eq_false',decide_eq_true_eq] at holds
    exact ⟨bytes,decoded,holds⟩

/-- The record that a non-empty history leaves. -/
structure Recorded (codec : KeyCodec) (did : Did) (first : Mention) (history : List Mention)
    (record : NymRecord) : Prop where
  role : record.role = (lastValue NymOperation.role history).getD .identityOwner
  verkey : record.verkey = (lastValue NymOperation.verkey history).getD none
  diddocContent : record.diddocContent = lastValue NymOperation.diddocContent history
  creator : record.identifier = first.author
  version : record.version = first.op.version
  derived : DerivedAs codec did first.op.verkey.get record.version.get

private theorem Recorded.first (setup : NymSetup) (cache : IdrCache) (req : Request) (op : NymOperation)
    (seqNo : Nat) (txnTime : Option Nat) (creates : Creates setup cache req op) :
    Recorded setup.codec op.dest ⟨req.identifier,op⟩ [⟨req.identifier,op⟩]
      (updatedRecord none req.identifier op seqNo txnTime) where
  role := by
    cases given : op.role <;> simp [updatedRecord,lastValue,given]
  verkey := by
    cases given : op.verkey <;> simp [updatedRecord,lastValue,given,Field.get]
  diddocContent := by
    cases given : op.diddocContent <;> simp [updatedRecord,lastValue,given]
  creator := rfl
  version := rfl
  derived := validateVersion_derived setup req op creates.version

private theorem Recorded.next {codec : KeyCodec} {did : Did} {first : Mention} {history : List Mention}
    {record : NymRecord} (recorded : Recorded codec did first history record) (author : Option Did)
    (op : NymOperation) (seqNo : Nat) (txnTime : Option Nat) (unversioned : op.version = none) :
    Recorded codec did first (history ++ [⟨author,op⟩])
      (updatedRecord (some record) author op seqNo txnTime) where
  role := by
    rw [lastValue_snoc,updatedRecord,recorded.role]
    cases op.role <;> rfl
  verkey := by
    rw [lastValue_snoc,updatedRecord,recorded.verkey]
    cases op.verkey <;> rfl
  diddocContent := by
    rw [lastValue_snoc,updatedRecord,recorded.diddocContent]
  creator := recorded.creator
  version := by
    rw [updatedRecord,unversioned,Option.none_or,recorded.version]
  derived := by
    rw [updatedRecord,unversioned,Option.none_or]
    exact recorded.derived

/-- Along every run the record of a DID is given by its accepted transactions: the
last mention of role, key and document, the author and the version of the first,
and the DID is derived from the key given then. -/
theorem record_follows_history (setup : NymSetup) (start : NymState) (subs : List Submission)
    (did : Did) (absent : start.nyms did = none) :
    (mentions setup did start subs = [] → (runNyms setup start subs).nyms did = none) ∧
    ∀ first rest, mentions setup did start subs = first :: rest →
      ∃ record, (runNyms setup start subs).nyms did = some record ∧
        Recorded setup.codec did first (first :: rest) record := by
  induction subs using List.reverseRecOn with
  | nil => exact ⟨fun _ => absent,fun first rest split => by simp [mentions] at split⟩
  | append_singleton subs sub ih =>
    rw [mentions_snoc,runNyms_snoc]
    rcases stepNym_record setup (runNyms setup start subs) did sub with
      ⟨unmentioned,same⟩ | ⟨op,mentioned,_,rfl,accepted,updated⟩
    · rw [unmentioned,same,Option.toList_none,List.append_nil]
      exact ih
    rw [mentioned,updated,Option.toList_some]
    refine ⟨fun empty => by simp at empty,fun first rest split => ⟨_,rfl,?_⟩⟩
    -- The first transaction creates the record, every later one updates it.
    cases accepted with
    | created unknown creates =>
      cases earlier : mentions setup op.dest start subs with
      | nil =>
        rw [earlier,List.nil_append] at split
        obtain ⟨rfl,rfl⟩ := List.cons.inj split
        rw [unknown]
        exact Recorded.first setup _ _ op sub.seqNo sub.txnTime creates
      | cons head tail =>
        obtain ⟨record,known,_⟩ := ih.2 head tail earlier
        simp [unknown] at known
    | updated record known updates =>
      cases earlier : mentions setup op.dest start subs with
      | nil =>
        have unknown := ih.1 earlier
        simp [unknown] at known
      | cons head tail =>
        obtain ⟨old,known_old,recorded⟩ := ih.2 head tail earlier
        obtain rfl : record = old := Option.some.inj (known.symm.trans known_old)
        rw [earlier,List.cons_append] at split
        obtain ⟨rfl,rfl⟩ := List.cons.inj split
        rw [known]
        exact recorded.next sub.req.identifier op sub.seqNo sub.txnTime updates.unversioned

def conventionSetup : NymSetup := defaultSetup .configLedger (fun _ => "") base58Codec plainSetup.loads

/-- `B` is base58 of the bytes of its key. -/
def conventionForB : Submission :=
  ⟨⟨signedByA,nymType,some "B",none,some (some "B"),none,some (some 1)⟩,2,none⟩

def conventionOfB : NymOperation := ⟨didB,none,some (some "B"),none,some (some 1)⟩

def ledgerWithB : NymState := ledgerOfTrustee.update (some didA) conventionOfB 2 none

private theorem conventionForB_applied : applyNym conventionSetup ledgerOfTrustee conventionForB = .ok ledgerWithB := by
  have parsed : staticValidation conventionSetup.loads conventionForB.req = .ok conventionOfB := by
    decide
  have author : validateAuthor ledgerOfTrustee.cache signedByA conventionOfB = .ok () := by
    decide
  have version : validateVersion conventionSetup signedByA conventionOfB = .ok () := by
    decide
  have added : validate conventionSetup.config ledgerOfTrustee.cache signedByA
      [addRole .identityOwner] = .ok () := by
    rw [validate_iff]
    refine ⟨endorserOrStewardOrTrusteeConstraint,?_,by decide⟩
    rw [conventionSetup,defaultSetup,getAuthConstraint_default _ _ _ (by decide)]
    rfl
  have checked : additionalDynamicValidation conventionSetup ledgerOfTrustee.cache signedByA
      conventionOfB = .ok () := by
    have created : additionalDynamicValidation conventionSetup ledgerOfTrustee.cache signedByA
        conventionOfB = validateNewNym conventionSetup ledgerOfTrustee.cache signedByA conventionOfB := rfl
    rw [created,validateNewNym,author,ok_bind,version,ok_bind]
    exact added
  have same : conventionForB.req.toRequest = signedByA := rfl
  rw [applyNym,parsed,ok_bind,same,checked]
  rfl

/-- `B` takes another key. -/
def rotationForB : Submission :=
  ⟨⟨signedByB,nymType,some "B",none,some (some "keyC"),none,none⟩,3,none⟩

def rotationOfB : NymOperation := ⟨didB,none,some (some "keyC"),none,none⟩

private theorem rotationForB_applied : applyNym conventionSetup ledgerWithB rotationForB =
    .ok (ledgerWithB.update (some didB) rotationOfB 3 none) := by
  have parsed : staticValidation conventionSetup.loads rotationForB.req = .ok rotationOfB := by
    decide
  have edited : validate conventionSetup.config ledgerWithB.cache signedByB
      [.edit nymType "verkey" "B" "keyC" true] = .ok () := by
    rw [validate_iff]
    refine ⟨ownerConstraint,?_,by decide⟩
    rw [conventionSetup,defaultSetup,getAuthConstraint_default _ _ _ (by decide)]
    rfl
  have checked : additionalDynamicValidation conventionSetup ledgerWithB.cache signedByB rotationOfB = .ok () := by
    have unfolded : additionalDynamicValidation conventionSetup ledgerWithB.cache signedByB rotationOfB = (do
        validate conventionSetup.config ledgerWithB.cache signedByB [.edit nymType "verkey" "B" "keyC" true]
        .ok ()) := rfl
    rw [unfolded,edited]
    rfl
  have same : rotationForB.req.toRequest = signedByB := rfl
  rw [applyNym,parsed,ok_bind,same,checked]
  rfl

private theorem rotation_mentioned : mentions conventionSetup didB ledgerOfTrustee [conventionForB,rotationForB] =
    [⟨some didA,conventionOfB⟩,⟨some didB,rotationOfB⟩] := by
  simp only [mentions,mentionOf,stepNym,conventionForB_applied,rotationForB_applied]
  rfl

theorem rotated_record : ∃ record,
    (runNyms conventionSetup ledgerOfTrustee [conventionForB,rotationForB]).nyms didB = some record ∧
      record.verkey = some "keyC" ∧ record.identifier = some didA ∧
      DerivedAs base58Codec didB (some "B") record.version.get := by
  obtain ⟨record,stored,recorded⟩ := (record_follows_history conventionSetup ledgerOfTrustee
    [conventionForB,rotationForB] didB (by decide)).2 _ _ rotation_mentioned
  exact ⟨record,stored,recorded.verkey,recorded.creator,recorded.derived⟩

end IndyNode.Nym

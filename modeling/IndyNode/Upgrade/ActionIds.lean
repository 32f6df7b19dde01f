import IndyNode.Upgrade.Upgrader

/-! Identifiers of upgrades: the digits of the request id followed by those of the sequence
number, which a forced transaction leaves out. -/
namespace IndyNode.Upgrade

def numberText (txn : UpgradeTxn) : String :=
  if txn.payload.force ∨ txn.seqNo = 0 then "" else toString txn.seqNo

private theorem getActionId_eq (txn : UpgradeTxn) :
    getActionId txn = toString txn.payload.reqId ++ numberText txn := rfl

/-- The request id of the second transaction goes on with digits that stand at the beginning of
the number of the first. -/
def Shifted (first second : UpgradeTxn) : Prop :=
  ∃ digits : String, toString second.payload.reqId = toString first.payload.reqId ++ digits ∧
    numberText first = digits ++ numberText second

private theorem append_eq_append (a b c d : String) :
    a ++ b = c ++ d ↔ (∃ moved, c = a ++ moved ∧ b = moved ++ d) ∨ ∃ moved, a = c ++ moved ∧ d = moved ++ b := by
  simp only [← String.toList_inj,String.toList_append,List.append_eq_append_iff]
  constructor
  · rintro (⟨moved,one,two⟩ | ⟨moved,one,two⟩)
    · exact .inl ⟨String.ofList moved,by simpa using one,by simpa using two⟩
    · exact .inr ⟨String.ofList moved,by simpa using one,by simpa using two⟩
  · rintro (⟨moved,one,two⟩ | ⟨moved,one,two⟩)
    · exact .inl ⟨moved.toList,one,two⟩
    · exact .inr ⟨moved.toList,one,two⟩

private theorem getActionId_same (first second : UpgradeTxn) :
    getActionId first = getActionId second ↔ Shifted first second ∨ Shifted second first := by
  rw [getActionId_eq,getActionId_eq,append_eq_append]
  rfl

section Skipped
variable {V : Type}

private theorem performed_other {up : Upgrader V} {first second : String} (ended : up.performed first = true)
    (apart : first ≠ second) : up.performed second = false := by
  unfold Upgrader.performed at ended ⊢
  cases last : up.actionLog.getLast? with
  | none => rfl
  | some event =>
    simp only [last,decide_eq_true_eq] at ended ⊢
    simp [ended.1,apart]

variable [DecidableEq V]

private theorem start_scheduled {setup : UpgradeSetup V} {up : Upgrader V} {now : Nat} {txn : UpgradeTxn}
    {data : UpgradeLogData V} {failTimeout : Nat} (asked : order setup txn = some (.start data failTimeout))
    (pending : up.performed (getActionId txn) = false) :
    (handleUpgradeTxn now up setup txn).scheduledAction = some data := by
  have named : data.upgradeId = getActionId txn := by
    obtain ⟨_,_,_,_,_,rfl,_⟩ := order_start setup asked
    rfl
  rw [handleUpgradeTxn,asked]
  change (up.follow now (.start data failTimeout)).scheduledAction = some data
  rw [Upgrader.follow,named,pending]
  simp only [Bool.false_eq_true,if_false]
  split
  next scheduled => exact scheduled
  next => rfl

/-- Two transactions have different identifiers, and the end of the one does not keep the other
from being scheduled, unless digits can be moved between a request id and a sequence number. -/
theorem upgrade_ids_iff (first second : UpgradeTxn) :
    (getActionId first ≠ getActionId second ∧
      ∀ (setup : UpgradeSetup V) (up : Upgrader V) now data failTimeout, up.performed (getActionId first) = true →
        order setup second = some (.start data failTimeout) →
        (handleUpgradeTxn now up setup second).scheduledAction = some data) ↔
      ¬(Shifted first second ∨ Shifted second first) := by
  rw [← getActionId_same]
  constructor
  · exact fun both => both.1
  · intro apart
    refine ⟨apart,fun setup up now data failTimeout ended asked => ?_⟩
    exact start_scheduled asked (performed_other ended apart)

/-- The upgrade with request 12 and number 3 is done, the one with request 1 and number 23 is
taken for it. -/
theorem other_upgrade_skipped :
    getActionId ⟨startFor "Alpha" "1.1" false 12,3⟩ = getActionId ⟨startFor "Alpha" "1.2" false 1,23⟩ ∧
      (handleUpgradeTxn 0 ⟨none,[⟨.succeeded,⟨4,"1.1",getActionId ⟨startFor "Alpha" "1.1" false 12,3⟩,"indy-node"⟩⟩],
        .empty,[]⟩ sampleSetup ⟨startFor "Alpha" "1.2" false 1,23⟩).scheduledAction = none := by
  decide

end Skipped
end IndyNode.Upgrade

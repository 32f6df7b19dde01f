import IndyNode.CompatSetSettled
import IndyNode.Revocation.Handler

/-! One accepted registry entry: what validation has checked, which list is
stored, and that the stored list follows the last mentions. -/
namespace IndyNode.Revocation
open Semantics.Registry

section Checks
variable {ι : Type}

theorem withIndices_kept (kind : Kind) (value : EntryValue ι) (indices : List ι) :
    (kind.withIndices value indices).change.listed kind.kept = indices := by
  unfold Kind.withIndices
  cases kind.kept <;> rfl

theorem withIndices_opposite (kind : Kind) (value : EntryValue ι) (indices : List ι) :
    (kind.withIndices value indices).change.listed kind.kept.opposite = [] := by
  unfold Kind.withIndices
  cases kind.kept <;> rfl

theorem withIndices_accum (kind : Kind) (value : EntryValue ι) (indices : List ι) :
    (kind.withIndices value indices).accum = value.accum := by
  unfold Kind.withIndices
  cases kind.kept <;> rfl

private theorem withIndices_disjoint (kind : Kind) (value : EntryValue ι) (indices : List ι) :
    (kind.withIndices value indices).change.Disjoint := by
  unfold Kind.withIndices
  cases kind.kept <;> simp [Change.Disjoint,EntryValue.change]

/-- What a request has to satisfy to follow the entry in force. -/
structure Follows (kind : Kind) (current : EntryRecord ι) (value : EntryValue ι) : Prop where
  chained : value.prevAccum = some current.value.accum
  moved : value.accum ≠ current.value.accum
  nonempty : value.change.issued ≠ [] ∨ value.change.revoked ≠ []
  undone : ∀ i ∈ value.change.listed kind.kept.opposite, i ∈ current.value.change.listed kind.kept
  fresh : ∀ i ∈ value.change.listed kind.kept, i ∉ current.value.change.listed kind.kept

@[simp] theorem refuse_ok (wrong : Prop) [Decidable wrong] (req : Request ι) (reason : String) :
    refuse wrong req reason = .ok () ↔ ¬wrong := by
  by_cases holds : wrong <;> simp [refuse,holds]

@[simp] theorem refuse_bind_ok (wrong : Prop) [Decidable wrong] (req : Request ι) (reason : String)
    (next : Unit → Except Raised Unit) :
    (refuse wrong req reason >>= next) = .ok () ↔ ¬wrong ∧ next () = .ok () := by
  by_cases holds : wrong <;> simp [refuse,holds]

private theorem not_length_pos (items : List ι) : ¬items.length > 0 ↔ ∀ i, i ∉ items := by
  rw [gt_iff_lt,List.length_pos_iff,not_not,List.eq_nil_iff_forall_not_mem]

variable [DecidableEq ι]

@[simp] theorem mem_setDifference (items others : List ι) (i : ι) :
    i ∈ setDifference items others ↔ i ∈ items ∧ i ∉ others := by
  simp [setDifference]

@[simp] theorem mem_intersection (items others : List ι) (i : ι) :
    i ∈ intersection items others ↔ i ∈ items ∧ i ∈ others := by
  simp [intersection]

variable [PyStr ι]

private theorem specificValidation_ok (kind : Kind) (current : EntryRecord ι) (req : Request ι) :
    kind.specificValidation current req = .ok () ↔
      (∀ i ∈ req.value.change.listed kind.kept.opposite, i ∈ current.value.change.listed kind.kept) ∧
      ∀ i ∈ req.value.change.listed kind.kept, i ∉ current.value.change.listed kind.kept := by
  unfold Kind.specificValidation
  simp only [refuse_ok,refuse_bind_ok,not_length_pos,mem_setDifference,mem_intersection,not_and,not_not]
  apply and_congr_right
  intro _
  constructor
  · intro apart i added stored
    exact apart i stored added
  · intro apart i stored added
    exact apart i added stored

theorem validate_ok (kind : Kind) (current : Option (EntryRecord ι)) (req : Request ι) :
    kind.validate current req = .ok () ↔ req.value.change.Disjoint ∧
      match current with
      | none => req.value.prevAccum = none
      | some entry => Follows kind entry req.value := by
  have disjoint : (∀ i, i ∉ intersection req.value.change.issued req.value.change.revoked) ↔
      req.value.change.Disjoint := by
    simp only [mem_intersection,not_and,Change.Disjoint]
  unfold Kind.validate
  simp only [refuse_bind_ok,not_length_pos,disjoint]
  apply and_congr_right
  intro _
  cases current with
  | none => simp
  | some entry =>
    simp only [refuse_bind_ok,specificValidation_ok]
    constructor
    · intro checks
      obtain ⟨chained,nonempty,moved,undone,fresh⟩ := checks
      simp only [ne_eq,not_not] at chained
      have some_index : req.value.change.issued ≠ [] ∨ req.value.change.revoked ≠ [] := by
        simpa [or_iff_not_imp_left] using nonempty
      refine ⟨chained.symm,?_,some_index,undone,fresh⟩
      intro same
      apply moved
      rw [same,chained]
      simpa [List.length_pos_iff] using some_index
    · intro follows
      refine ⟨by simp [follows.chained],?_,?_,follows.undone,follows.fresh⟩
      · simpa [or_iff_not_imp_left] using follows.nonempty
      · rw [follows.chained]
        intro both
        exact follows.moved (Option.some.inj both.1).symm

end Checks

section Writes
variable {ι : Type} [DecidableEq ι]

/-- Every search a legacy write makes meets a slot that is empty or holds the
index looked up. -/
def settledWrite [PyHash ι] (indices removed added : List ι) : Bool :=
  checked (CompatSet.Inner.new.settledAdds indices) (CompatSet.init indices) (fun base =>
    checked (base.settledDifference removed) (CompatSet.difference base [.list removed]) (fun less =>
      less.settledAdds added))

theorem legacyIndices_guarded [PyHash ι] (indices removed added : List ι) :
    Guarded .diverges (settledWrite indices removed added)
      (CompatSet.Inner.Plain indices ∧ CompatSet.Inner.Plain removed ∧ CompatSet.Inner.Plain added)
      (legacyIndices indices removed added)
      (fun result => result.Nodup ∧ ∀ i, i ∈ result ↔ (i ∈ indices ∧ i ∉ removed) ∨ i ∈ added) := by
  refine ((CompatSet.init_guarded indices).imp (fun _ good => good) And.left).bind ?_
  rintro base ⟨valid,base_mem⟩
  have plain_base (plain : CompatSet.Inner.Plain indices) : CompatSet.Inner.Plain base.elems :=
    fun i member => plain i ((base_mem i).mp member)
  have single : CompatSet.difference base [.list removed] = base.difference (.list removed) := by
    simp [CompatSet.difference]
  rw [single]
  refine ((valid.difference_guarded removed).imp (fun _ good => good)
    (fun easy => ⟨easy.2.1,plain_base easy.1⟩)).bind ?_
  rintro less ⟨kept,less_mem⟩
  have grown : CompatSet.updateAll less [.list added] = added.foldlM CompatSet.Inner.add less := by
    simp [CompatSet.updateAll,CompatSet.Inner.update,CompatSet.Iterable.elems]
  rw [grown]
  refine ((kept.adds_guarded added).imp (fun _ good => good) (fun easy => ⟨easy.2.2,?_⟩)).andThen ?_
  · intro i member
    exact plain_base easy.1 i ((less_mem i).mp member).1
  · rintro more ⟨final,more_mem⟩
    refine ⟨more.elems,final.iterate_spec,final.elems_nodup,fun i => ?_⟩
    rw [more_mem,less_mem,base_mem]
    exact or_comm

theorem sortedIndices_spec [LE ι] [DecidableLE ι] (indices removed added : List ι) :
    (sortedIndices indices removed added).Nodup ∧
      ∀ i, i ∈ sortedIndices indices removed added ↔ (i ∈ indices ∧ i ∉ removed) ∨ i ∈ added := by
  have same := (setDifference indices removed ++ added).dedup.perm_insertionSort (· ≤ ·)
  refine ⟨same.nodup_iff.mpr (List.nodup_dedup _),fun i => ?_⟩
  rw [sortedIndices,same.mem_iff,List.mem_dedup,List.mem_append,mem_setDifference]

variable [PyHash ι] [LE ι] [DecidableLE ι]

/-- Both ways of sorting store the same set of indices, without repetition. -/
theorem resultIndices_spec (kind : Kind) (sortLegacy : Bool) (current : EntryRecord ι)
    (value : EntryValue ι) (result : List ι) (ends : kind.resultIndices sortLegacy current value = .ok result) :
    result.Nodup ∧ ∀ i, i ∈ result ↔ (i ∈ current.value.change.listed kind.kept ∧
      i ∉ value.change.listed kind.kept.opposite) ∨ i ∈ value.change.listed kind.kept := by
  cases sortLegacy with
  | true => exact (legacyIndices_guarded _ _ _).good_of_ok _ ends
  | false =>
    obtain rfl := Except.ok.inj ends
    exact sortedIndices_spec _ _ _

theorem resultIndices_total [CompatSet.NonnegHash ι] (kind : Kind) (sortLegacy : Bool)
    (current : EntryRecord ι) (value : EntryValue ι) :
    ∃ result, kind.resultIndices sortLegacy current value = .ok result := by
  cases sortLegacy with
  | true =>
    obtain ⟨result,ends,_⟩ := (legacyIndices_guarded (current.value.change.listed kind.kept)
      (value.change.listed kind.kept.opposite) (value.change.listed kind.kept)).total
        ⟨CompatSet.Inner.plain_of_nonneg _,CompatSet.Inner.plain_of_nonneg _,CompatSet.Inner.plain_of_nonneg _⟩
    exact ⟨result,ends⟩
  | false => exact ⟨_,rfl⟩

end Writes

section Steps
variable {ι : Type}

def Txn.change (txn : Txn ι) : Change ι := txn.request.value.change

/-- The entry `set_to_state` writes for a transaction with the given value. -/
def Txn.record (txn : Txn ι) (value : EntryValue ι) : EntryRecord ι :=
  ⟨txn.request.revocRegDefId,txn.request.revocDefType,value,txn.seqNo,txn.txnTime⟩

@[simp] theorem Txn.record_value (txn : Txn ι) (value : EntryValue ι) :
    (txn.record value).value = value := rfl

variable [DecidableEq ι]

/-- The stored entry after a non-empty history of accepted transactions. -/
structure Stored (kind : Kind) (history : List (Txn ι)) (entry : EntryRecord ι) : Prop where
  tracks : ∀ i, i ∈ entry.value.change.listed kind.kept ↔
    lastMention (history.map Txn.change) i = some kind.kept
  disjoint : entry.value.change.Disjoint
  merged : 2 ≤ history.length → (entry.value.change.listed kind.kept).Nodup ∧
    entry.value.change.listed kind.kept.opposite = []
  latest : ∃ txn, history.getLast? = some txn ∧ entry.value.accum = txn.request.value.accum

theorem Stored.first (kind : Kind) (txn : Txn ι) (disjoint : txn.change.Disjoint) :
    Stored kind [txn] (txn.record txn.request.value) where
  tracks := by
    intro i
    rw [List.map_cons,List.map_nil,lastMention,lastMention,Option.none_or,
      Change.mention_eq_some disjoint]
    rfl
  disjoint := disjoint
  merged := by simp
  latest := ⟨txn,rfl,rfl⟩

theorem Stored.next {kind : Kind} {history : List (Txn ι)} {current : EntryRecord ι}
    (stored : Stored kind history current) (txn : Txn ι)
    (disjoint : txn.change.Disjoint) (indices : List ι) (distinct : indices.Nodup)
    (members : ∀ i, i ∈ indices ↔ (i ∈ current.value.change.listed kind.kept ∧
      i ∉ txn.change.listed kind.kept.opposite) ∨ i ∈ txn.change.listed kind.kept) :
    Stored kind (history ++ [txn]) (txn.record (kind.withIndices txn.request.value indices)) where
  tracks := by
    intro i
    rw [Txn.record_value,withIndices_kept,members,List.map_append,List.map_cons,List.map_nil,
      lastMention_step _ _ disjoint,stored.tracks]
  disjoint := withIndices_disjoint kind txn.request.value indices
  merged := by
    intro _
    rw [Txn.record_value,withIndices_kept,withIndices_opposite]
    exact ⟨distinct,rfl⟩
  latest := ⟨txn,by simp,withIndices_accum _ _ _⟩

end Steps
end IndyNode.Revocation

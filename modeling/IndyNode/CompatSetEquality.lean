import IndyNode.CompatSetMethods

/-! Comparison of two sets. The walk covers only as many slots as there are
elements, so it sees the elements that lie in those leading slots. -/
namespace IndyNode.CompatSet
open OpenAddressing

variable {α : Type}

namespace Inner

def leading (s : Inner α) : List α := (keys (s.table.take s.used)).map Entry.elem

private theorem leading_elems (s : Inner α) (elem : α) (early : elem ∈ s.leading) : elem ∈ s.elems := by
  obtain ⟨entry,member,rfl⟩ := List.mem_map.mp early
  apply List.mem_map_of_mem
  rw [← List.take_append_drop s.used s.table]
  simp only [keys,List.filterMap_append] at member ⊢
  exact List.mem_append_left _ member

variable [DecidableEq α] [PyHash α] [NonnegHash α]

private theorem Sound.agreeAt_spec {s other : Inner α} (sound : s.Sound) (probed : other.Sound)
    (count start : Nat) (inside : start + count ≤ s.table.length) :
    s.agreeAt other (List.range' start count) =
      .ok (decide (∀ entry ∈ keys ((s.table.drop start).take count), entry.elem ∈ other.elems)) := by
  induction count generalizing start with
  | zero => simp [agreeAt,keys]
  | succ count ih =>
    have bound : start < s.table.length := by omega
    rw [List.range'_succ,agreeAt,List.getElem?_eq_getElem bound,List.drop_eq_getElem_cons bound,
      List.take_succ_cons]
    have rest := ih (start+1) (by omega)
    cases here : s.table[start] with
    | empty => exact rest
    | removed => exact rest
    | live entry =>
      have whole := sound.hashed entry ((mem_keys _ _).mpr
        ⟨start,by rw [List.getElem?_eq_getElem bound,here]⟩)
      have probe := probed.containsEntry_spec entry.elem
      rw [← whole] at probe
      have listed : keys (.live entry :: (s.table.drop (start+1)).take count) =
          entry :: keys ((s.table.drop (start+1)).take count) := rfl
      simp only [probe,ok_bind,rest,listed,List.forall_mem_cons]
      by_cases present : entry.elem ∈ other.elems <;> simp [present,pure,Except.pure]

private theorem Sound.equals_spec {s other : Inner α} (sound : s.Sound) (probed : other.Sound) :
    s.equals other = .ok (decide (other.used = s.used ∧ ∀ elem ∈ s.leading, elem ∈ other.elems)) := by
  have inside : 0 + s.used ≤ s.table.length := by
    have used := sound.used_le_fill
    have room := sound.room
    rw [sound.length]
    omega
  rw [equals,List.range_eq_range',sound.agreeAt_spec probed s.used 0 inside]
  by_cases same : other.used = s.used
  · simp [same,leading]
  · simp [same]

end Inner

section Public

/-- Two sets of one size that differ show it in the leading slots of the right one. -/
def Revealed (left right : Inner α) : Prop :=
  left.used = right.used → ∀ elem ∈ right.elems, elem ∉ left.elems →
    ∃ early ∈ right.leading, early ∉ left.elems

def SameMembers (left right : Inner α) : Prop := ∀ elem, elem ∈ left.elems ↔ elem ∈ right.elems

variable [PyHash α]

private theorem sameMembers_iff {left right : Inner α} (valid : left.Valid) (source : right.Valid) :
    SameMembers left right ↔
      left.used = right.used ∧ ∀ elem ∈ right.elems, elem ∈ left.elems := by
  constructor
  · intro same
    refine ⟨?_,fun elem => (same elem).mpr⟩
    rw [← valid.elems_length,← source.elems_length]
    exact ((List.perm_ext_iff_of_nodup valid.elems_nodup source.elems_nodup).mpr same).length_eq
  · rintro ⟨size,contained⟩ elem
    have perm : right.elems.Perm left.elems := by
      apply (source.elems_nodup.subperm contained).perm_of_length_le
      rw [valid.elems_length,source.elems_length,size]
    exact perm.symm.mem_iff

variable [DecidableEq α] [NonnegHash α]

private theorem equals_reads {left right : Inner α} (valid : left.Valid) (source : right.Valid)
    (isSelf : Bool) :
    equals left (.compatSet right isSelf) =
      .ok (decide (left.used = right.used ∧ ∀ elem ∈ right.leading, elem ∈ left.elems)) :=
  source.equals_spec valid.toSound

private theorem equals_iff {left right : Inner α} (valid : left.Valid) (source : right.Valid)
    (isSelf : Bool) :
    (∃ answer, equals left (.compatSet right isSelf) = .ok answer ∧
        (answer = true ↔ SameMembers left right)) ↔ Revealed left right := by
  rw [equals_reads valid source,sameMembers_iff valid source]
  simp only [Except.ok.injEq,exists_eq_left',decide_eq_true_eq,and_congr_right_iff]
  constructor
  · intro exact size elem member absent
    by_contra hidden
    simp only [not_exists,not_and,not_not] at hidden
    exact absent ((exact size).mp hidden elem member)
  · intro revealed size
    constructor
    · intro early elem member
      by_contra absent
      obtain ⟨found,leads,missing⟩ := revealed size elem member absent
      exact missing (early found leads)
    · intro contained elem early
      exact contained elem (right.leading_elems elem early)

private theorem equals_exact {left right : Inner α} (valid : left.Valid) (source : right.Valid)
    (isSelf : Bool) (revealed : Revealed left right) [Decidable (SameMembers left right)] :
    equals left (.compatSet right isSelf) = .ok (decide (SameMembers left right)) := by
  obtain ⟨answer,compared,exact⟩ := (equals_iff valid source isSelf).mpr revealed
  rw [compared,Except.ok.injEq,Bool.eq_iff_iff,exact,decide_eq_true_eq]

end Public

/-- Comparison never raises. It answers whether the members are the same exactly
for the pairs whose difference is revealed; on such pairs it is symmetric,
transitive and blind to the layout of the tables. -/
theorem equality_members_iff (first second third fourth : Inner Nat) (isSelf : Bool)
    (valid : first.Valid) (valid_second : second.Valid) (valid_third : third.Valid)
    (valid_fourth : fourth.Valid) :
    (∃ answer, equals first (.compatSet second isSelf) = .ok answer) ∧
    ((∃ answer, equals first (.compatSet second isSelf) = .ok answer ∧
        (answer = true ↔ SameMembers first second)) ↔ Revealed first second) ∧
    (Revealed first second → Revealed second first →
      equals first (.compatSet second isSelf) = equals second (.compatSet first isSelf)) ∧
    (Revealed first second → Revealed second third → Revealed first third →
      equals first (.compatSet second isSelf) = .ok true →
      equals second (.compatSet third isSelf) = .ok true →
      equals first (.compatSet third isSelf) = .ok true) ∧
    (Revealed first second → Revealed third fourth → SameMembers first third →
      SameMembers second fourth →
      equals first (.compatSet second isSelf) = equals third (.compatSet fourth isSelf)) := by
  classical
  refine ⟨⟨_,equals_reads valid valid_second isSelf⟩,equals_iff valid valid_second isSelf,?_,?_,?_⟩
  · intro revealed mirrored
    rw [equals_exact valid valid_second isSelf revealed,equals_exact valid_second valid isSelf mirrored]
    congr 2
    exact propext ⟨fun same elem => (same elem).symm,fun same elem => (same elem).symm⟩
  · intro revealed later across
    rw [equals_exact valid valid_second isSelf revealed,
      equals_exact valid_second valid_third isSelf later,equals_exact valid valid_third isSelf across]
    simp only [Except.ok.injEq,decide_eq_true_eq]
    intro same next elem
    exact (same elem).trans (next elem)
  · intro revealed other left right
    rw [equals_exact valid valid_second isSelf revealed,
      equals_exact valid_third valid_fourth isSelf other]
    congr 2
    refine propext ⟨fun same elem => ?_,fun same elem => ?_⟩
    · rw [← left,same,right]
    · rw [left,same,right]

/-- Both orders of insertion put the first element into slot 0. -/
theorem equality_of_two_layouts :
    (ofList [0,8]).table ≠ (ofList [8,0]).table ∧
      (∃ answer, equals (ofList [0,8]) (.compatSet (ofList [8,0]) false) = .ok answer ∧
        (answer = true ↔ SameMembers (ofList [0,8]) (ofList [8,0]))) ∧
      equals (ofList [0,8]) (.compatSet (ofList [8,0]) false) =
        equals (ofList [8,0]) (.compatSet (ofList [0,8]) false) := by
  have revealed : Revealed (ofList [0,8]) (ofList [8,0]) := by
    unfold Revealed
    decide
  have mirrored : Revealed (ofList [8,0]) (ofList [0,8]) := by
    unfold Revealed
    decide
  have general := equality_members_iff (ofList [0,8]) (ofList [8,0]) (ofList [0,8]) (ofList [8,0])
    false (ofList_valid _) (ofList_valid _) (ofList_valid _) (ofList_valid _)
  exact ⟨by decide,general.2.1.mpr revealed,general.2.2.1 revealed mirrored⟩

/-- `{0} == {1}` holds and `{1} == {0}` does not. -/
theorem equality_of_unequal_sets :
    equals (ofList [0]) (.compatSet (ofList [1]) false) = .ok true ∧
      equals (ofList [1]) (.compatSet (ofList [0]) false) = .ok false ∧
      equals (ofList [1,2,3]) (.compatSet (ofList [4,5,6]) false) = .ok true := by
  decide

end IndyNode.CompatSet

import Mathlib.Data.List.Sort
import Mathlib.Order.Defs.LinearOrder

/-! Lists sorted by a key, where items with the same key keep the order in which they
were given. -/
namespace IndyNode

section StableSort
variable {α κ : Type} [LinearOrder κ] (key : α → κ)

def KeyLe (a b : α) : Prop := key a ≤ key b

instance : DecidableRel (KeyLe key) := fun a b => inferInstanceAs (Decidable (key a ≤ key b))

instance : IsTrans α (KeyLe key) := ⟨fun _ _ _ below above => le_trans below above⟩

instance : Std.Total (KeyLe key) := ⟨fun a b => le_total (key a) (key b)⟩

def keySort (list : List α) : List α := list.insertionSort (KeyLe key)

theorem keySort_of_agree (compares : α → α → Prop) [DecidableRel compares] (list : List α)
    (agree : ∀ a ∈ list, ∀ b ∈ list, compares a b ↔ key a ≤ key b) :
    list.insertionSort compares = keySort key list := by
  have mapped := List.map_insertionSort compares (KeyLe key) id list agree
  rw [List.map_id,List.map_id] at mapped
  exact mapped

structure StablySorted (input result : List α) : Prop where
  perm : result.Perm input
  sorted : result.Pairwise fun a b => key a ≤ key b
  ties : ∀ a b, key a = key b → [a,b].Sublist input → [a,b].Sublist result

variable {key}

theorem StablySorted.nil : StablySorted key ([] : List α) [] :=
  ⟨.refl _,.nil,fun _ _ _ pair => pair⟩

/-- Sorting again behind a sorted list is sorting once. -/
theorem StablySorted.append {input result : List α} (stable : StablySorted key input result)
    (extra : List α) : StablySorted key (input ++ extra) (keySort key (result ++ extra)) := by
  refine ⟨(List.perm_insertionSort _ _).trans (stable.perm.append_right extra),?_,?_⟩
  · exact List.pairwise_insertionSort (KeyLe key) _
  · intro a b tied pair
    have kept : [a,b].Sublist (result ++ extra) := by
      obtain ⟨front,back,shape,inFront,inBack⟩ := List.sublist_append_iff.mp pair
      rcases List.cons_eq_append_iff.mp shape with ⟨rfl,rfl⟩ | ⟨front,rfl,tail⟩
      · exact inBack.trans (List.sublist_append_right _ _)
      · rcases List.cons_eq_append_iff.mp tail with ⟨rfl,rfl⟩ | ⟨front,rfl,last⟩
        · exact (List.singleton_sublist.mpr
            (stable.perm.mem_iff.mpr (List.singleton_sublist.mp inFront))).append inBack
        · obtain ⟨rfl,rfl⟩ := List.append_eq_nil_iff.mp last.symm
          exact (stable.ties a b tied inFront).trans (List.sublist_append_left _ _)
    exact List.pair_sublist_insertionSort (r := KeyLe key) (le_of_eq tied) kept

/-- Without ties the order of the input does not matter. -/
theorem StablySorted.unique {first second result other : List α} (stable : StablySorted key first result)
    (again : StablySorted key second other) (perm : first.Perm second)
    (distinct : ∀ a ∈ first, ∀ b ∈ first, key a = key b → a = b) : result = other := by
  refine List.Perm.eq_of_pairwise ?_ stable.sorted again.sorted
    ((stable.perm.trans perm).trans again.perm.symm)
  intro a b inResult inOther below above
  apply distinct a (stable.perm.mem_iff.mp inResult) b
  · exact perm.mem_iff.mpr (again.perm.mem_iff.mp inOther)
  · exact le_antisymm below above

theorem nodup_pair {list : List α} (once : list.Nodup) (a b : α) (forward : [a,b].Sublist list) :
    ¬[b,a].Sublist list := by
  induction list with
  | nil => simp at forward
  | cons item rest ih =>
    obtain ⟨fresh,once⟩ := List.nodup_cons.mp once
    intro backward
    cases forward with
    | cons _ forward =>
      cases backward with
      | cons _ backward => exact ih once forward backward
      | cons_cons _ backward => exact fresh (forward.subset (by simp))
    | cons_cons _ forward =>
      cases backward with
      | cons _ backward => exact fresh (backward.subset (by simp))
      | cons_cons _ backward => exact fresh (List.singleton_sublist.mp forward)

/-- Items that tie come out in the order in which they went in. -/
theorem StablySorted.untied {first second result : List α} (stable : StablySorted key first result)
    (again : StablySorted key second result) (once : result.Nodup) (a b : α)
    (forward : [a,b].Sublist first) (backward : [b,a].Sublist second) : key a ≠ key b := by
  intro tied
  exact nodup_pair once a b (stable.ties a b tied forward) (again.ties b a tied.symm backward)

theorem pair_sublist {list : List α} {a b : α} (first : a ∈ list) (second : b ∈ list) (differ : a ≠ b) :
    [a,b].Sublist list ∨ [b,a].Sublist list := by
  induction list with
  | nil => exact absurd first List.not_mem_nil
  | cons item rest ih =>
    rcases List.mem_cons.mp first with rfl | early
    · exact .inl ((List.singleton_sublist.mpr ((List.mem_cons.mp second).resolve_left differ.symm)).cons_cons a)
    rcases List.mem_cons.mp second with rfl | late
    · exact .inr ((List.singleton_sublist.mpr early).cons_cons b)
    exact (ih early late).imp (fun pair => pair.cons item) fun pair => pair.cons item

/-- Items without repetitions are sorted in one way only. -/
theorem StablySorted.eq_of_nodup {input first second : List α} (stable : StablySorted key input first)
    (again : StablySorted key input second) (once : input.Nodup) : first = second := by
  -- Pairs of a sorted list have ascending keys, or tie and stand as in the input.
  have placed : ∀ {result}, StablySorted key input result →
      result.Pairwise fun a b => key a < key b ∨ key a = key b ∧ [a,b].Sublist input := by
    intro result sorted
    have unrepeated : result.Nodup := sorted.perm.nodup_iff.mpr once
    refine List.pairwise_iff_forall_sublist.mpr fun {a b} pair => ?_
    rcases lt_or_eq_of_le (List.pairwise_iff_forall_sublist.mp sorted.sorted pair) with below | tied
    · exact .inl below
    have differ : a ≠ b := List.pairwise_iff_forall_sublist.mp unrepeated pair
    have inside : ∀ item ∈ [a,b], item ∈ input := fun item member => sorted.perm.mem_iff.mp (pair.subset member)
    rcases pair_sublist (inside a (by simp)) (inside b (by simp)) differ with forward | backward
    · exact .inr ⟨tied,forward⟩
    · exact absurd (sorted.ties b a tied.symm backward) (nodup_pair unrepeated a b pair)
  refine List.Perm.eq_of_pairwise ?_ (placed stable) (placed again) (stable.perm.trans again.perm.symm)
  rintro a b _ _ (below | ⟨_,forward⟩) (above | ⟨tied,backward⟩)
  · exact absurd (below.trans above) (lt_irrefl _)
  · exact absurd below (not_lt.mpr tied.le)
  · rename_i tied
    exact absurd above (not_lt.mpr tied.le)
  · exact absurd backward (nodup_pair once a b forward)

/-- Parts of an input whose keys lie apart are sorted one after the other. -/
theorem StablySorted.join {input first second : List α} {lower upper : α → Bool}
    (below : StablySorted key (input.filter lower) first) (above : StablySorted key (input.filter upper) second)
    (apart : ∀ a ∈ input, ∀ b ∈ input, lower a = true → upper b = true → key a < key b) :
    StablySorted key (input.filter fun item => lower item || upper item) (first ++ second) := by
  have disjoint : ∀ item ∈ input, lower item = true → upper item = false := fun item member low =>
    Bool.eq_false_iff.mpr fun high => lt_irrefl _ (apart item member item member low high)
  have lowers : (input.filter fun item => lower item || upper item).filter lower = input.filter lower := by
    rw [List.filter_filter]
    refine List.filter_congr fun item _ => ?_
    cases lower item <;> simp
  have uppers : (input.filter fun item => lower item || upper item).filter upper = input.filter upper := by
    rw [List.filter_filter]
    refine List.filter_congr fun item _ => ?_
    cases upper item <;> simp
  have rest : (input.filter fun item => lower item || upper item).filter (fun item => !lower item) =
      input.filter upper := by
    rw [List.filter_filter]
    refine List.filter_congr fun item member => ?_
    cases low : lower item with
    | false => simp
    | true => simp [disjoint item member low]
  have parts : (input.filter lower ++ input.filter upper).Perm (input.filter fun item => lower item || upper item) := by
    have split := List.filter_append_perm lower (input.filter fun item => lower item || upper item)
    rwa [lowers,rest] at split
  have inFirst : ∀ a ∈ first, a ∈ input ∧ lower a = true := fun a member =>
    List.mem_filter.mp (below.perm.mem_iff.mp member)
  have inSecond : ∀ b ∈ second, b ∈ input ∧ upper b = true := fun b member =>
    List.mem_filter.mp (above.perm.mem_iff.mp member)
  refine ⟨(below.perm.append above.perm).trans parts,?_,fun a b tied pair => ?_⟩
  · refine List.pairwise_append.mpr ⟨below.sorted,above.sorted,fun a inside b outside => ?_⟩
    exact (apart a (inFirst a inside).1 b (inSecond b outside).1 (inFirst a inside).2 (inSecond b outside).2).le
  · -- Items that tie are on the same side.
    have chosen : ∀ item ∈ [a,b], item ∈ input ∧ (lower item || upper item) = true := fun item member =>
      List.mem_filter.mp (pair.subset member)
    obtain ⟨aInside,aSide⟩ := chosen a (by simp)
    obtain ⟨bInside,bSide⟩ := chosen b (by simp)
    cases low : lower a with
    | true =>
      have same : lower b = true := by
        cases other : lower b with
        | true => rfl
        | false =>
          have high : upper b = true := by simpa [other] using bSide
          exact absurd tied (apart a aInside b bInside low high).ne
      have kept := pair.filter lower
      rw [lowers,List.filter_cons_of_pos low,List.filter_cons_of_pos same,List.filter_nil] at kept
      exact (below.ties a b tied kept).trans (List.sublist_append_left _ _)
    | false =>
      have high : upper a = true := by simpa [low] using aSide
      have same : upper b = true := by
        cases other : lower b with
        | false => simpa [other] using bSide
        | true => exact absurd tied.symm (apart b bInside a aInside other high).ne
      have kept := pair.filter upper
      rw [uppers,List.filter_cons_of_pos high,List.filter_cons_of_pos same,List.filter_nil] at kept
      exact (above.ties a b tied kept).trans (List.sublist_append_right _ _)

end StableSort
end IndyNode

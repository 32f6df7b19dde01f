import Mathlib.Data.List.Induction

/-! The last element of a list that satisfies a condition, and what follows it, as
lists grow at the end. -/
namespace IndyNode

section Latest
variable {α : Type} (wanted narrow : α → Bool) (list : List α) (last : α)

def latest : Option α := (list.filter wanted).getLast?

theorem latest_snoc :
    latest wanted (list ++ [last]) = if wanted last then some last else latest wanted list := by
  rw [latest,List.filter_append]
  by_cases holds : wanted last
  · simp [holds]
  · simp [holds,latest]

theorem latest_some (found : latest wanted list = some last) : last ∈ list ∧ wanted last = true :=
  List.mem_filter.mp (List.mem_of_getLast? found)

theorem latest_none : latest wanted list = none ↔ ∀ item ∈ list, wanted item = false := by
  rw [latest,List.getLast?_eq_none_iff,List.filter_eq_nil_iff]
  simp

/-- The last of more is the last of fewer when it is among them. -/
theorem latest_narrow (implies : ∀ item, narrow item = true → wanted item = true)
    (found : latest wanted list = some last) (holds : narrow last = true) :
    latest narrow list = some last := by
  induction list using List.reverseRecOn with
  | nil => simp [latest] at found
  | append_singleton list item ih =>
    rw [latest_snoc] at found ⊢
    by_cases selected : wanted item
    · rw [if_pos selected] at found
      rw [Option.some.inj found,if_pos holds]
    · rw [if_neg selected] at found
      rw [if_neg fun chosen => selected (implies item chosen)]
      exact ih found

/-- The last elements of a list and of a longer one stand in its order. -/
theorem last_related {before : α → α → Prop} {short long : List α} (ordered : long.Pairwise before)
    (longer : short <+: long) {first second : α} (early : short.getLast? = some first)
    (late : long.getLast? = some second) : first = second ∨ before first second := by
  obtain ⟨rest,rfl⟩ := longer
  cases rest using List.reverseRecOn with
  | nil =>
    rw [List.append_nil,early] at late
    exact .inl (Option.some.inj late)
  | append_singleton rest item =>
    rw [← List.append_assoc,List.getLast?_concat] at late
    obtain rfl := Option.some.inj late
    refine .inr ((List.pairwise_append.mp ordered).2.2 first (List.mem_of_getLast? early) item ?_)
    exact List.mem_append_right _ (List.mem_singleton_self item)

end Latest

section LastWith
variable {α β : Type} (select : α → Option β)

/-- The last selected item, with the items after it. -/
def lastWith : List α → Option (β × List α)
  | [] => none
  | item :: rest => (lastWith rest).or ((select item).map (·,rest))

theorem lastWith_none (list : List α) :
    lastWith select list = none ↔ ∀ item ∈ list, select item = none := by
  induction list with
  | nil => simp [lastWith]
  | cons item rest ih => rw [lastWith,Option.or_eq_none_iff,ih,Option.map_eq_none_iff,
      List.forall_mem_cons,and_comm]

theorem lastWith_snoc (list : List α) (item : α) :
    lastWith select (list ++ [item]) =
      ((select item).map (·,[])).or ((lastWith select list).map fun found => (found.1,found.2 ++ [item])) := by
  induction list with
  | nil => simp [lastWith]
  | cons first rest ih =>
    rw [List.cons_append,lastWith,ih,lastWith,Option.or_assoc,Option.map_or,Option.map_map]
    rfl

theorem lastWith_some (list : List α) (found : β) (later : List α) :
    lastWith select list = some (found,later) ↔ ∃ before item, list = before ++ item :: later ∧
      select item = some found ∧ ∀ other ∈ later, select other = none := by
  constructor
  · intro last
    induction list with
    | nil => simp [lastWith] at last
    | cons first rest ih =>
      rcases Option.or_eq_some_iff.mp last with below | ⟨absent,here⟩
      · obtain ⟨before,item,shape,chosen,free⟩ := ih below
        exact ⟨first :: before,item,by rw [shape,List.cons_append],chosen,free⟩
      · obtain ⟨value,chosen,pair⟩ := Option.map_eq_some_iff.mp here
        obtain ⟨rfl,rfl⟩ := Prod.mk.inj pair
        exact ⟨[],first,rfl,chosen,(lastWith_none select _).mp absent⟩
  · rintro ⟨before,item,rfl,chosen,free⟩
    induction before with
    | nil => simp [lastWith,(lastWith_none select later).mpr free,chosen]
    | cons first before ih => rw [List.cons_append,lastWith,ih,Option.some_or]

/-- The last of more is the last of fewer when it is among them. -/
theorem lastWith_narrow {γ : Type} (narrow : α → Option γ) (list : List α) (found : β) (later : List α)
    (implies : ∀ item, select item = none → narrow item = none)
    (last : lastWith select list = some (found,later)) :
    ∃ before item, list = before ++ item :: later ∧ select item = some found ∧
      ∀ value, narrow item = some value → lastWith narrow list = some (value,later) := by
  obtain ⟨before,item,shape,chosen,free⟩ := (lastWith_some select list found later).mp last
  refine ⟨before,item,shape,chosen,fun value picked => ?_⟩
  exact (lastWith_some narrow list value later).mpr
    ⟨before,item,shape,picked,fun other member => implies other (free other member)⟩

theorem find_reverse (wanted : α → Bool) (list : List α) :
    list.reverse.find? wanted = (lastWith (Option.guard wanted) list).map Prod.fst := by
  induction list using List.reverseRecOn with
  | nil => rfl
  | append_singleton list item ih =>
    rw [List.reverse_append,lastWith_snoc,List.reverse_singleton,List.singleton_append,List.find?_cons]
    by_cases holds : wanted item
    · simp [holds,Option.guard]
    · simp [holds,Option.guard,ih,Option.map_map,Function.comp_def]

end LastWith
end IndyNode

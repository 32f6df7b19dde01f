import Mathlib.Data.List.TakeWhile

/-! Texts joined with a separator that they may contain. Two joined texts are the
same exactly when their parts are, or when a separator inside one of them takes the
place of the joining one. A text is cut at the first place where a mark stands. -/
namespace IndyNode.Separated

section Join
variable {α : Type} (separator : α)

/-- The first part of the second pair runs on past the end of that of the first. -/
def Slides (first : List α × List α) (second : List α × List α) : Prop :=
  ∃ between, second.1 = first.1 ++ separator :: between ∧ first.2 = between ++ separator :: second.2

/-- One pair is the other with a separator moved. -/
def Shifted (first : List α × List α) (second : List α × List α) : Prop :=
  Slides separator first second ∨ Slides separator second first

variable {separator}

theorem Slides.longer {first second : List α × List α} (slides : Slides separator first second) :
    first.1.length < second.1.length := by
  obtain ⟨between,runs,_⟩ := slides
  rw [runs,List.length_append,List.length_cons]
  omega

theorem Slides.mem {first second : List α × List α} (slides : Slides separator first second) :
    separator ∈ second.1 ∧ separator ∈ first.2 := by
  obtain ⟨between,runs,rest⟩ := slides
  rw [runs,rest]
  exact ⟨by simp,by simp⟩

theorem Shifted.ne {first second : List α × List α} (shifted : Shifted separator first second) :
    first.1 ≠ second.1 := by
  rcases shifted with slides | slides
  · exact fun same => absurd slides.longer (by simp [same])
  · exact fun same => absurd slides.longer (by simp [same])

variable (separator)

theorem joined_eq_iff (first second : List α × List α) :
    first.1 ++ separator :: first.2 = second.1 ++ separator :: second.2 ↔
      first = second ∨ Shifted separator first second := by
  constructor
  · intro same
    rcases List.append_eq_append_iff.mp same with ⟨rest,left,right⟩ | ⟨rest,left,right⟩
    · cases rest with
      | nil =>
        obtain ⟨_,tail⟩ := List.cons.inj right
        exact .inl (Prod.ext (by simpa using left.symm) tail)
      | cons c rest =>
        obtain ⟨rfl,tail⟩ := List.cons.inj right
        exact .inr (.inl ⟨rest,left,tail⟩)
    · cases rest with
      | nil =>
        obtain ⟨_,tail⟩ := List.cons.inj right
        exact .inl (Prod.ext (by simpa using left) tail.symm)
      | cons c rest =>
        obtain ⟨rfl,tail⟩ := List.cons.inj right
        exact .inr (.inr ⟨rest,left,tail⟩)
  · intro cases
    rcases cases with same | ⟨between,runs,rest⟩ | ⟨between,runs,rest⟩
    · rw [same]
    · simp [runs,rest]
    · simp [runs,rest]

/-- Parts without a separator in front of the first one are determined. -/
theorem joined_inj (first second : List α × List α) (firstClean : separator ∉ first.1)
    (secondClean : separator ∉ second.1)
    (same : first.1 ++ separator :: first.2 = second.1 ++ separator :: second.2) : first = second := by
  rcases (joined_eq_iff separator first second).mp same with equal | slides | slides
  · exact equal
  · exact absurd slides.mem.1 secondClean
  · exact absurd slides.mem.1 firstClean

/-- Parts without a separator behind the last one are determined. -/
theorem joined_inj_right (first second : List α × List α) (firstClean : separator ∉ first.2)
    (secondClean : separator ∉ second.2)
    (same : first.1 ++ separator :: first.2 = second.1 ++ separator :: second.2) : first = second := by
  rcases (joined_eq_iff separator first second).mp same with equal | slides | slides
  · exact equal
  · exact absurd slides.mem.2 firstClean
  · exact absurd slides.mem.2 secondClean

end Join

section Head
variable {α : Type} [DecidableEq α] (separator : α)

def head (text : List α) : List α := text.takeWhile (· ≠ separator)

theorem head_append (part rest : List α) (clean : separator ∉ part) :
    head separator (part ++ separator :: rest) = part := by
  induction part with
  | nil => simp [head]
  | cons c part ih =>
    rw [List.mem_cons,not_or] at clean
    have differs : decide (c ≠ separator) = true := by simpa using Ne.symm clean.1
    rw [head,List.cons_append,List.takeWhile_cons,differs]
    exact congrArg (c :: ·) (ih clean.2)

theorem head_split (text : List α) (holds : separator ∈ text) :
    ∃ rest, text = head separator text ++ separator :: rest := by
  obtain ⟨part,rest,shape,clean⟩ := List.eq_append_cons_of_mem holds
  exact ⟨rest,by rw [shape,head_append separator part rest clean]⟩

end Head

section Before
variable {α : Type} (stop : List α → Bool)

/-- What stands before the first place where `stop` holds of the rest. -/
def before : List α → List α
  | [] => []
  | c :: rest => if stop (c :: rest) then [] else c :: before rest

theorem before_prefix (text : List α) : before stop text <+: text := by
  induction text with
  | nil => exact List.prefix_refl _
  | cons c rest ih =>
    rw [before]
    split
    · exact List.nil_prefix
    · exact (List.prefix_cons_inj c).mpr ih

theorem before_eq_self (text : List α) :
    before stop text = text ↔ ∀ rest, rest ≠ [] → rest <:+ text → stop rest = false := by
  induction text with
  | nil => exact iff_of_true rfl fun rest nonempty suffix => absurd (List.suffix_nil.mp suffix) nonempty
  | cons c tail ih =>
    rw [before]
    by_cases here : stop (c :: tail)
    · rw [if_pos here]
      refine iff_of_false (List.cons_ne_nil c tail).symm fun all => ?_
      exact Bool.false_ne_true ((all _ (List.cons_ne_nil c tail) (List.suffix_refl _)).symm.trans here)
    · rw [if_neg here,List.cons.injEq,and_iff_right rfl,ih]
      constructor
      · intro below rest nonempty suffix
        rcases List.suffix_cons_iff.mp suffix with rfl | inside
        · simpa using here
        · exact below rest nonempty inside
      · intro all rest nonempty suffix
        exact all rest nonempty (suffix.trans (List.suffix_cons c tail))

end Before
end IndyNode.Separated

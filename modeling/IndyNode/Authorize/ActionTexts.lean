import IndyNode.Authorize.Actions
import Mathlib.Data.List.Infix

/-! Which action identifiers are split into the parts they were joined from. The
texts of a request stand in an identifier unescaped, next to a delimiter of two
equal characters. -/
namespace IndyNode.Authorize

/-- The delimiter does not occur in the text. -/
def Undashed (text : List Char) : Prop := ¬['-', '-'] <:+: text

instance : DecidablePred Undashed := fun _ => inferInstanceAs (Decidable (¬_))

private theorem undashed_nil : Undashed [] := by
  decide

private theorem undashed_cons (c : Char) (text : List Char) :
    Undashed (c :: text) ↔ (c = '-' → text.head? ≠ some '-') ∧ Undashed text := by
  unfold Undashed
  rw [List.infix_cons_iff,not_or,List.cons_prefix_cons]
  refine and_congr_left fun _ => ?_
  cases text with
  | nil => simp
  | cons d text => simp [eq_comm]

theorem Undashed.closed {text : List Char} (clean : '-' ∉ text) : Undashed (text ++ ['-']) := by
  induction text with
  | nil => decide
  | cons c text ih =>
    rw [List.mem_cons,not_or] at clean
    rw [List.cons_append,undashed_cons]
    exact ⟨fun dash => absurd dash.symm clean.1,ih clean.2⟩

private theorem splitDelimiter_ne_nil (text : List Char) : splitDelimiter text ≠ [] := by
  fun_cases splitDelimiter text <;> simp_all

private theorem splitDelimiter_cons (c : Char) (rest : List Char)
    (plain : c = '-' → rest.head? ≠ some '-') :
    ∃ first others, splitDelimiter rest = first :: others ∧
      splitDelimiter (c :: rest) = (c :: first) :: others := by
  obtain ⟨first,others,shape⟩ := List.exists_cons_of_ne_nil (splitDelimiter_ne_nil rest)
  refine ⟨first,others,shape,?_⟩
  rw [splitDelimiter,shape]
  intro tail dash tail_eq
  exact plain dash (by rw [tail_eq]; rfl)

private theorem splitDelimiter_closed (part rest : List Char) (closed : Undashed (part ++ ['-'])) :
    splitDelimiter (part ++ '-' :: '-' :: rest) = part :: splitDelimiter rest := by
  induction part with
  | nil => rw [List.nil_append,splitDelimiter]
  | cons c part ih =>
    rw [List.cons_append,undashed_cons] at closed
    obtain ⟨plain,later⟩ := closed
    obtain ⟨first,others,shape,split⟩ := splitDelimiter_cons c (part ++ '-' :: '-' :: rest) (by
      intro dash
      have head := plain dash
      cases part with
      | nil => exact absurd rfl head
      | cons d part => exact head)
    rw [ih later] at shape
    obtain ⟨rfl,rfl⟩ := List.cons.inj shape
    exact split

private theorem splitDelimiter_undashed (text : List Char) (clean : Undashed text) :
    splitDelimiter text = [text] := by
  induction text with
  | nil => rfl
  | cons c text ih =>
    rw [undashed_cons] at clean
    obtain ⟨first,others,shape,split⟩ := splitDelimiter_cons c text clean.1
    rw [ih clean.2] at shape
    obtain ⟨rfl,rfl⟩ := List.cons.inj shape
    exact split

private theorem splitDelimiter_inv (text part : List Char) (others : List (List Char))
    (split : splitDelimiter text = part :: others) :
    (others = [] ∧ text = part ∧ Undashed part) ∨
      (Undashed (part ++ ['-']) ∧ ∃ rest, text = part ++ '-' :: '-' :: rest ∧
        splitDelimiter rest = others) := by
  fun_induction splitDelimiter text generalizing part with
  | case1 =>
    obtain ⟨rfl,rfl⟩ := List.cons.inj split
    exact Or.inl ⟨rfl,rfl,undashed_nil⟩
  | case2 rest _ =>
    obtain ⟨rfl,rfl⟩ := List.cons.inj split
    exact Or.inr ⟨by decide,rest,rfl,rfl⟩
  | case3 c rest plain empty ih => exact absurd empty (splitDelimiter_ne_nil rest)
  | case4 c rest plain first others' shape ih =>
    obtain ⟨rfl,rfl⟩ := List.cons.inj split
    have head : c = '-' → rest.head? ≠ some '-' := by
      intro dash starts
      obtain ⟨tail,tail_eq⟩ := List.head?_eq_some_iff.mp starts
      exact plain tail dash tail_eq
    rcases ih first shape with ⟨rfl,rfl,clean⟩ | ⟨closed,tail,rfl,later⟩
    · exact Or.inl ⟨rfl,rfl,(undashed_cons c rest).mpr ⟨head,clean⟩⟩
    · refine Or.inr ⟨?_,tail,rfl,later⟩
      rw [List.cons_append,undashed_cons]
      refine ⟨fun dash => ?_,closed⟩
      have starts := head dash
      cases first with
      | nil => exact absurd rfl starts
      | cons d first => exact starts

private theorem next_part (part rest : List Char) (other : List Char) (others : List (List Char))
    (split : splitDelimiter (part ++ '-' :: '-' :: rest) = part :: other :: others) :
    Undashed (part ++ ['-']) ∧ splitDelimiter rest = other :: others := by
  rcases splitDelimiter_inv _ _ _ split with ⟨empty,_,_⟩ | ⟨closed,tail,same,later⟩
  · simp at empty
  · have tails : rest = tail := by simpa using same
    rw [tails]
    exact ⟨closed,later⟩

/-- The parts of an identifier that a delimiter follows do not take part in one,
and its last part has none. -/
structure ActionDef.Separable (action : ActionDef) : Prop where
  txnType : Undashed (action.txnType.toList ++ ['-'])
  prefixName : Undashed (action.prefixName.toList ++ ['-'])
  field : Undashed (action.field.toList ++ ['-'])
  oldValue : Undashed (action.oldValue.toList ++ ['-'])
  newValue : Undashed action.newValue.toList

theorem compileActionId_toList (action : ActionDef) : (compileActionId action).toList =
    action.txnType.toList ++ '-' :: '-' :: (action.prefixName.toList ++ '-' :: '-' ::
      (action.field.toList ++ '-' :: '-' :: (action.oldValue.toList ++ '-' :: '-' ::
        action.newValue.toList))) := by
  simp [compileActionId]

/-- Joining and splitting is the identity exactly on separable parts. -/
theorem splitActionId_compile_iff (action : ActionDef) :
    splitActionId (compileActionId action) = .ok action ↔ action.Separable := by
  obtain ⟨txnType,prefixName,field,oldValue,newValue⟩ := action
  constructor
  · intro same
    rw [splitActionId,compileActionId_toList] at same
    split at same
    · rename_i first second third fourth fifth split
      simp only [Except.ok.injEq,ActionDef.mk.injEq] at same
      obtain ⟨rfl,rfl,rfl,rfl,rfl⟩ := same
      simp only [String.toList_ofList] at split
      obtain ⟨closedType,split⟩ := next_part _ _ _ _ split
      obtain ⟨closedPrefix,split⟩ := next_part _ _ _ _ split
      obtain ⟨closedField,split⟩ := next_part _ _ _ _ split
      obtain ⟨closedOld,split⟩ := next_part _ _ _ _ split
      rcases splitDelimiter_inv _ _ _ split with ⟨_,_,clean⟩ | ⟨_,rest,_,empty⟩
      · constructor <;> simpa only [String.toList_ofList]
      · exact absurd empty (splitDelimiter_ne_nil rest)
    · simp at same
  · intro separable
    rw [splitActionId,compileActionId_toList,splitDelimiter_closed _ _ separable.txnType,
      splitDelimiter_closed _ _ separable.prefixName,splitDelimiter_closed _ _ separable.field,
      splitDelimiter_closed _ _ separable.oldValue,splitDelimiter_undashed _ separable.newValue]
    simp only [String.ofList_toList]

end IndyNode.Authorize

import IndyNode.Foundation.Loop

/-! Computations that return or get stuck, together with a check that decides
which of the two happens. The rules follow the ways computations are put
together. -/
namespace IndyNode

variable {ε α β σ : Type}

/-- The call returns a good value when the check passes and ends in `stuck`
when it does not. The check passes whenever `easy` holds. -/
structure Guarded (stuck : ε) (check : Bool) (easy : Prop) (call : Except ε α) (good : α → Prop) :
    Prop where
  returns : check = true → ∃ value, call = .ok value ∧ good value
  sticks : check = false → call = .error stuck
  sure : easy → check = true

def checked (check : Bool) (call : Except ε α) (next : α → Bool) : Bool :=
  check && match call with
    | .ok value => next value
    | .error _ => true

namespace Guarded
variable {stuck : ε} {check : Bool} {easy : Prop} {call : Except ε α} {good : α → Prop}

theorem ok (value : α) (holds : good value) : Guarded stuck true easy (.ok value) good where
  returns := fun _ => ⟨value,rfl,holds⟩
  sticks := by simp
  sure := fun _ => rfl

theorem imp (guarded : Guarded stuck check easy call good) {weaker : α → Prop} {easier : Prop}
    (keeps : ∀ value, good value → weaker value) (eases : easier → easy) :
    Guarded stuck check easier call weaker where
  returns := by
    intro passes
    obtain ⟨value,result,holds⟩ := guarded.returns passes
    exact ⟨value,result,keeps value holds⟩
  sticks := guarded.sticks
  sure := fun holds => guarded.sure (eases holds)

theorem returns_iff (guarded : Guarded stuck check easy call good) :
    (∃ value, call = .ok value) ↔ check = true := by
  constructor
  · rintro ⟨value,result⟩
    cases passes : check with
    | true => rfl
    | false =>
      rw [guarded.sticks passes] at result
      cases result
  · intro passes
    obtain ⟨value,result,_⟩ := guarded.returns passes
    exact ⟨value,result⟩

theorem good_of_ok (guarded : Guarded stuck check easy call good) (value : α)
    (result : call = .ok value) : good value := by
  obtain ⟨found,again,holds⟩ := guarded.returns (guarded.returns_iff.mp ⟨value,result⟩)
  obtain rfl := Except.ok.inj (result.symm.trans again)
  exact holds

theorem total (guarded : Guarded stuck check easy call good) (holds : easy) :
    ∃ value, call = .ok value ∧ good value := guarded.returns (guarded.sure holds)

theorem bind (first : Guarded stuck check easy call good) {later : α → Bool}
    {rest : α → Except ε β} {done : β → Prop}
    (next : ∀ value, good value → Guarded stuck (later value) easy (rest value) done) :
    Guarded stuck (checked check call later) easy (call >>= rest) done := by
  cases passes : check with
  | false =>
    have stuck_first := first.sticks passes
    refine ⟨by simp [checked],fun _ => by rw [stuck_first,error_bind],fun holds => ?_⟩
    rw [first.sure holds] at passes
    cases passes
  | true =>
    obtain ⟨value,result,holds⟩ := first.returns passes
    simpa [checked,result] using next value holds

/-- A call that always returns needs no further check. -/
theorem andThen (guarded : Guarded stuck check easy call good) {rest : α → Except ε β}
    {done : β → Prop} (next : ∀ value, good value → ∃ result, rest value = .ok result ∧ done result) :
    Guarded stuck check easy (call >>= rest) done where
  returns := by
    intro passes
    obtain ⟨value,result,holds⟩ := guarded.returns passes
    obtain ⟨last,ends,kept⟩ := next value holds
    exact ⟨last,by rw [result,ok_bind,ends],kept⟩
  sticks := by
    intro fails
    rw [guarded.sticks fails,error_bind]
  sure := guarded.sure

theorem ite (condition : Prop) [Decidable condition] {other : Bool} {call_other : Except ε α}
    (yes : condition → Guarded stuck check easy call good)
    (no : ¬condition → Guarded stuck other easy call_other good) :
    Guarded stuck (if condition then check else other) easy
      (if condition then call else call_other) good := by
  split
  · rename_i holds
    exact yes holds
  · rename_i fails
    exact no fails

/-- A loop is checked item by item, each in the state in which it is reached. -/
theorem foldlM (body : σ → α → Except ε σ) (permit : σ → α → Bool) (good : List α → σ → Prop)
    (items : List α) (start : σ) (initial : good [] start)
    (advance : ∀ before item after state, items = before ++ item :: after → good before state →
      Guarded stuck (permit state item) easy (body state item) (good (before ++ [item]))) :
    Guarded stuck (permitted body permit items start) easy (items.foldlM body start)
      (good items) := by
  have general : ∀ rest before state, items = before ++ rest → good before state →
      Guarded stuck (permitted body permit rest state) easy (rest.foldlM body state) (good items) := by
    intro rest
    induction rest with
    | nil =>
      intro before state shape holds
      rw [List.append_nil] at shape
      rw [shape]
      exact ok state holds
    | cons item rest ih =>
      intro before state shape holds
      rw [List.foldlM_cons]
      exact (advance before item rest state shape holds).bind (fun next kept =>
        ih (before ++ [item]) next (by simpa using shape) kept)
  exact general items [] start (by simp) initial

end Guarded
end IndyNode

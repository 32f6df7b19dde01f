import Mathlib.Data.List.Induction

/-! Runs of a system by the list of its events, and where what a run has put out
comes from. -/
namespace IndyNode

section Traces
variable {σ ε : Type} (step : σ → ε → Option σ)

def traced (start : σ) (events : List ε) : Option σ := events.foldlM step start

theorem traced_snoc (start final : σ) (events : List ε) (event : ε) :
    traced step start (events ++ [event]) = some final ↔
      ∃ before, traced step start events = some before ∧ step before event = some final := by
  simp [traced,List.foldlM_append,Option.bind_eq_some_iff]

theorem traced_invariant (good : σ → Prop)
    (keeps : ∀ before event next, good before → step before event = some next → good next)
    {start final : σ} (initial : good start) {events : List ε}
    (ran : traced step start events = some final) : good final := by
  induction events using List.reverseRecOn generalizing final with
  | nil =>
    obtain rfl := Option.some.inj ran
    exact initial
  | append_singleton events event ih =>
    obtain ⟨before,earlier,last⟩ := (traced_snoc step start final events event).mp ran
    exact keeps before event final (ih earlier) last

/-- Event `k` of a run and the state it is taken in. -/
def TakenAt (start : σ) (events : List ε) (k : Nat) (before : σ) (event : ε) : Prop :=
  events[k]? = some event ∧ traced step start (events.take k) = some before

theorem TakenAt.extend {start before : σ} {events : List ε} {k : Nat} {event : ε}
    (taken : TakenAt step start events k before event) (later : List ε) :
    TakenAt step start (events ++ later) k before event := by
  obtain ⟨found,reached⟩ := taken
  have within : k < events.length := (List.getElem?_eq_some_iff.mp found).1
  refine ⟨?_,?_⟩
  · rw [List.getElem?_append_left within,found]
  · rw [List.take_append_of_le_length (Nat.le_of_lt within),reached]

/-- What is in the output at the end was put there by an event of the run. -/
theorem traced_output {β : Type} (output : σ → List β) (cause : σ → ε → β → Prop)
    (grows : ∀ before event next, step before event = some next →
      ∃ added, output next = output before ++ added ∧ ∀ item ∈ added, cause before event item)
    {start final : σ} (silent : output start = []) {events : List ε}
    (ran : traced step start events = some final) {item : β} (present : item ∈ output final) :
    ∃ k before event, TakenAt step start events k before event ∧ cause before event item := by
  induction events using List.reverseRecOn generalizing final with
  | nil =>
    obtain rfl := Option.some.inj ran
    simp [silent] at present
  | append_singleton events event ih =>
    obtain ⟨before,earlier,last⟩ := (traced_snoc step start final events event).mp ran
    obtain ⟨added,grown,causes⟩ := grows before event final last
    rw [grown,List.mem_append] at present
    rcases present with old | new
    · obtain ⟨k,state,what,taken,why⟩ := ih earlier old
      exact ⟨k,state,what,taken.extend step _,why⟩
    · exact ⟨events.length,before,event,⟨by simp,by simpa using earlier⟩,causes item new⟩

end Traces
end IndyNode

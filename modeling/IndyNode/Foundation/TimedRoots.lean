import Mathlib.Logic.Function.Basic
import Mathlib.Data.List.Pairwise

/-! States kept by the time of the commit that made them, one for each time. A log
that is committed in groups of one time, with times that never go back, has under
each of its times the state after all its entries up to that time. -/
namespace IndyNode.TimedRoots

section Read
variable {σ : Type}

/-- The state of the time, or of the nearest time before. -/
def equalOrPrev (roots : Nat → Option σ) : Nat → Option σ
  | 0 => roots 0
  | time + 1 => (roots (time + 1)).or (equalOrPrev roots time)

theorem equalOrPrev_of_some (roots : Nat → Option σ) (time : Nat) (root : σ)
    (stored : roots time = some root) : equalOrPrev roots time = some root := by
  cases time with
  | zero => exact stored
  | succ time => rw [equalOrPrev,stored,Option.some_or]

theorem equalOrPrev_empty (time : Nat) : equalOrPrev (fun _ => (none : Option σ)) time = none := by
  induction time with
  | zero => rfl
  | succ time ih => rw [equalOrPrev,ih,Option.none_or]

/-- A state kept for the latest time there is hides all the others from that time on. -/
theorem equalOrPrev_update (roots : Nat → Option σ) (now : Nat) (root : σ)
    (later : ∀ time, now < time → roots time = none) (time : Nat) :
    equalOrPrev (Function.update roots now (some root)) time =
      if now ≤ time then some root else equalOrPrev roots time := by
  induction time with
  | zero =>
    simp only [equalOrPrev,Function.update_apply,Nat.le_zero]
    by_cases first : 0 = now
    · simp [first]
    · rw [if_neg first,if_neg (Ne.symm first)]
  | succ time ih =>
    rw [equalOrPrev,ih,equalOrPrev,Function.update_apply]
    by_cases same : time + 1 = now
    · simp [same]
    · by_cases before : now ≤ time
      · simp [same,before,Nat.le_succ_of_le before,later (time + 1) (Nat.lt_succ_of_le before)]
      · have after : ¬now ≤ time + 1 := by omega
        rw [if_neg same,if_neg before,if_neg after]

end Read

section Log
variable {σ α : Type} (time : α → Nat) (reaches : List α → σ → Prop)

/-- Every time of the log leads to the state after the entries up to that time. -/
def Recorded (log : List α) (roots : Nat → Option σ) : Prop :=
  ∀ entry ∈ log, ∃ upto rest root, log = upto ++ rest ∧ roots (time entry) = some root ∧ reaches upto root ∧
    (∀ other ∈ upto, time other ≤ time entry) ∧ ∀ other ∈ rest, time entry < time other

theorem Recorded.nil (roots : Nat → Option σ) : Recorded time reaches [] roots := by
  intro entry member
  simp at member

variable {time reaches}

theorem Recorded.commit {log : List α} {roots : Nat → Option σ} (recorded : Recorded time reaches log roots)
    (now : Nat) (batch : List α) (root : σ) (timed : ∀ entry ∈ batch, time entry = now)
    (later : ∀ entry ∈ log, time entry ≤ now) (reached : reaches (log ++ batch) root) :
    Recorded time reaches (log ++ batch) (Function.update roots now (some root)) := by
  have upto : ∀ other ∈ log ++ batch, time other ≤ now := by
    intro other member
    rcases List.mem_append.mp member with old | new
    · exact later other old
    · exact Nat.le_of_eq (timed other new)
  intro entry member
  by_cases same : time entry = now
  · rw [same]
    exact ⟨log ++ batch,[],root,by simp,Function.update_self ..,reached,upto,by simp⟩
  · have old : entry ∈ log := by
      rcases List.mem_append.mp member with old | new
      · exact old
      · exact absurd (timed entry new) same
    obtain ⟨before,rest,earlier,rfl,stored,held,below,above⟩ := recorded entry old
    refine ⟨before,rest ++ batch,earlier,by simp,?_,held,below,?_⟩
    · rw [Function.update_of_ne same]
      exact stored
    · intro other inside
      rcases List.mem_append.mp inside with between | new
      · exact above other between
      · rw [timed other new]
        exact Nat.lt_of_le_of_ne (later entry old) same

/-- The state under the time of an entry is the one after the last entry of that time. -/
theorem Recorded.after {earlier later : List α} {entry : α} {roots : Nat → Option σ}
    (recorded : Recorded time reaches (earlier ++ entry :: later) roots)
    (sorted : (earlier ++ entry :: later).Pairwise fun first second => time first ≤ time second) :
    ∃ same rest root, later = same ++ rest ∧ roots (time entry) = some root ∧
      reaches (earlier ++ entry :: same) root ∧ (∀ other ∈ same, time other = time entry) ∧
      ∀ other ∈ rest, time entry < time other := by
  obtain ⟨upto,rest,root,split,stored,reached,below,above⟩ := recorded entry (by simp)
  have follows := (List.pairwise_cons.mp (List.pairwise_append.mp sorted).2.1).1
  -- The entry itself is not later than its own time, so the cut comes behind it.
  have cut : ∃ same, upto = earlier ++ entry :: same ∧ later = same ++ rest := by
    rcases List.append_eq_append_iff.mp split with ⟨middle,shape,tail⟩ | ⟨middle,shape,tail⟩
    · cases middle with
      | nil =>
        have first : entry ∈ rest := by
          rw [List.nil_append] at tail
          simp [← tail]
        exact absurd (above entry first) (Nat.lt_irrefl _)
      | cons head same =>
        obtain ⟨rfl,behind⟩ := List.cons.inj tail
        exact ⟨same,shape,behind⟩
    · have first : entry ∈ rest := by simp [tail]
      exact absurd (above entry first) (Nat.lt_irrefl _)
  obtain ⟨same,rfl,rfl⟩ := cut
  refine ⟨same,rest,root,rfl,stored,reached,?_,above⟩
  intro other member
  apply Nat.le_antisymm
  · exact below other (by simp [member])
  · exact follows other (List.mem_append_left _ member)

end Log
end IndyNode.TimedRoots

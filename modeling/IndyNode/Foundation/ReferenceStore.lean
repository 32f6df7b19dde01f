import Mathlib.Data.Set.Basic
import Mathlib.Logic.Function.Basic

/-! Stores whose items refer to others by key and by kind: when every reference leads to an
item of its kind, and which writes keep that. -/
namespace IndyNode

section
variable {κ τ α : Type} (kind : α → Option τ) (references : α → List (τ × Option κ))

def Names (store : κ → Option α) (wanted : τ) (key : κ) : Prop :=
  ∃ item, store key = some item ∧ kind item = some wanted

/-- Every reference of every item leads to an item of its kind. -/
def Closed (store : κ → Option α) : Prop :=
  ∀ holder item, store holder = some item → ∀ reference ∈ references item,
    ∃ key, reference.2 = some key ∧ Names kind store reference.1 key

variable {kind references} {store after : κ → Option α}

/-- Items of no kind and without references may be written over everything that no other
item refers to. -/
theorem closed_overwrite_iff (closed : Closed kind references store) (written : Set κ)
    (frame : ∀ key, key ∉ written → after key = store key)
    (inert : ∀ key ∈ written, ∀ item, after key = some item → kind item = none ∧ references item = []) :
    Closed kind references after ↔ ∀ key ∈ written, ∀ holder, holder ∉ written → ∀ item,
      store holder = some item → ∀ reference ∈ references item, reference.2 ≠ some key := by
  constructor
  · intro closed key changed holder kept item stored reference listed same
    rw [← frame holder kept] at stored
    obtain ⟨target,found,other,there,kinded⟩ := closed holder item stored reference listed
    obtain rfl := Option.some.inj (found.symm.trans same)
    rw [(inert target changed other there).1] at kinded
    cases kinded
  · intro untouched holder item stored reference listed
    have kept : holder ∉ written := by
      intro changed
      rw [(inert holder changed item stored).2] at listed
      cases listed
    rw [frame holder kept] at stored
    obtain ⟨key,found,named⟩ := closed holder item stored reference listed
    have same := frame key fun changed => untouched key changed holder kept item stored reference listed found
    refine ⟨key,found,?_⟩
    rw [Names,same]
    exact named

variable [DecidableEq κ]

theorem closed_add_iff (closed : Closed kind references store) (key : κ) (item : α)
    (free : ∀ old, store key = some old → kind old = none) :
    Closed kind references (Function.update store key (some item)) ↔ ∀ reference ∈ references item,
      ∃ target, reference.2 = some target ∧
        Names kind (Function.update store key (some item)) reference.1 target := by
  constructor
  · intro closed
    exact closed key item (Function.update_self ..)
  · intro own holder other stored reference listed
    by_cases here : holder = key
    · subst here
      rw [Function.update_self] at stored
      obtain rfl := Option.some.inj stored
      exact own reference listed
    · rw [Function.update_of_ne here] at stored
      obtain ⟨target,found,old,there,kinded⟩ := closed holder other stored reference listed
      have apart : target ≠ key := by
        rintro rfl
        rw [free old there] at kinded
        cases kinded
      refine ⟨target,found,old,?_,kinded⟩
      rw [Function.update_of_ne apart]
      exact there

end
end IndyNode

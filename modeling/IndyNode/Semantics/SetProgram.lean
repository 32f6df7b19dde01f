import Mathlib.Data.Finset.Basic
import Mathlib.Data.Finset.SymmDiff
import Mathlib.Order.SymmDiff

/-! Programs over named mutable sets and their meaning as finite sets. Nothing
here refers to a table, an order of elements or an implementation. -/
namespace IndyNode.Semantics.SetProgram

inductive Arg (α : Type) where
  | list (elems : List α)
  | pySet (elems : List α) (distinct : elems.Nodup)
  | named (name : Nat)

/-- Operations that create a set bind it to their target name. -/
inductive Op (α : Type) where
  | construct (target : Nat) (elems : List α)
  | add (name : Nat) (elem : α)
  | discard (name : Nat) (elem : α)
  | remove (name : Nat) (elem : α)
  | pop (name : Nat)
  | clear (name : Nat)
  | copy (target name : Nat)
  | update (name : Nat) (others : List (Arg α))
  | union (target name : Nat) (others : List (Arg α))
  | difference (target name : Nat) (others : List (Arg α))
  | subtract (name : Nat) (other : Arg α)
  | symmetricDifference (target name : Nat) (other : Arg α)

/-- What the caller of an operation sees. -/
inductive Outcome (α : Type) where
  | done
  | popped (elem : α)
  | keyError
deriving DecidableEq, Repr

variable {α : Type} [DecidableEq α]

def Arg.meaning (sets : Nat → Finset α) : Arg α → Finset α
  | .list elems => elems.toFinset
  | .pySet elems _ => elems.toFinset
  | .named name => sets name

def meanings (sets : Nat → Finset α) (others : List (Arg α)) : Finset α :=
  others.foldr (fun other rest => other.meaning sets ∪ rest) ∅

theorem mem_meanings (sets : Nat → Finset α) (others : List (Arg α)) (elem : α) :
    elem ∈ meanings sets others ↔ ∃ other ∈ others, elem ∈ other.meaning sets := by
  induction others with
  | nil => simp [meanings]
  | cons other others ih =>
    have step : meanings sets (other :: others) = other.meaning sets ∪ meanings sets others := rfl
    rw [step,Finset.mem_union,ih]
    simp

inductive Step : Op α → (Nat → Finset α) → Outcome α → (Nat → Finset α) → Prop
  | construct (target elems sets) :
      Step (.construct target elems) sets .done (Function.update sets target elems.toFinset)
  | add (name elem sets) :
      Step (.add name elem) sets .done (Function.update sets name (insert elem (sets name)))
  | discard (name elem sets) :
      Step (.discard name elem) sets .done (Function.update sets name ((sets name).erase elem))
  | remove (name elem) (sets : Nat → Finset α) (present : elem ∈ sets name) :
      Step (.remove name elem) sets .done (Function.update sets name ((sets name).erase elem))
  | removeAbsent (name elem) (sets : Nat → Finset α) (absent : elem ∉ sets name) :
      Step (.remove name elem) sets .keyError sets
  | pop (name elem) (sets : Nat → Finset α) (present : elem ∈ sets name) :
      Step (.pop name) sets (.popped elem) (Function.update sets name ((sets name).erase elem))
  | popEmpty (name) (sets : Nat → Finset α) (nothing : sets name = ∅) :
      Step (.pop name) sets .keyError sets
  | clear (name sets) : Step (.clear name) sets .done (Function.update sets name ∅)
  | copy (target name sets) :
      Step (.copy target name) sets .done (Function.update sets target (sets name))
  | update (name others sets) :
      Step (.update name others) sets .done
        (Function.update sets name (sets name ∪ meanings sets others))
  | union (target name others sets) :
      Step (.union target name others) sets .done
        (Function.update sets target (sets name ∪ meanings sets others))
  | difference (target name others sets) :
      Step (.difference target name others) sets .done
        (Function.update sets target (sets name \ meanings sets others))
  | subtract (name other sets) :
      Step (.subtract name other) sets .done
        (Function.update sets name (sets name \ other.meaning sets))
  | symmetricDifference (target name other sets) :
      Step (.symmetricDifference target name other) sets .done
        (Function.update sets target (symmDiff (sets name) (other.meaning sets)))

inductive Run : List (Op α) → (Nat → Finset α) → List (Outcome α) → (Nat → Finset α) → Prop
  | nil (sets) : Run [] sets [] sets
  | cons (op ops sets outcome middle outcomes final)
      (head : Step op sets outcome middle) (tail : Run ops middle outcomes final) :
      Run (op::ops) sets (outcome::outcomes) final

end IndyNode.Semantics.SetProgram

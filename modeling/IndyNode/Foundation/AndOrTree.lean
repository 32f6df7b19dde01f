import Mathlib.Logic.Basic

/-! Conditions built from leaves by conjunction and disjunction of any number of
parts, with a leafless condition that never holds. -/
namespace IndyNode

inductive AndOrTree (α : Type) where
  | leaf (condition : α)
  | all (parts : List (AndOrTree α))
  | any (parts : List (AndOrTree α))
  | never
deriving Repr

namespace AndOrTree
variable {α : Type}

mutual
def eval (holds : α → Bool) : AndOrTree α → Bool
  | .leaf condition => holds condition
  | .all parts => evalAll holds parts
  | .any parts => evalAny holds parts
  | .never => false

def evalAll (holds : α → Bool) : List (AndOrTree α) → Bool
  | [] => true
  | part::parts => eval holds part && evalAll holds parts

def evalAny (holds : α → Bool) : List (AndOrTree α) → Bool
  | [] => false
  | part::parts => eval holds part || evalAny holds parts
end

/-- Induction in which a hypothesis is available for every part of a list. -/
theorem induct {motive : AndOrTree α → Prop} (leaf : ∀ condition, motive (.leaf condition))
    (all : ∀ parts, (∀ part ∈ parts, motive part) → motive (.all parts))
    (any : ∀ parts, (∀ part ∈ parts, motive part) → motive (.any parts)) (never : motive .never)
    (tree : AndOrTree α) : motive tree := by
  refine @AndOrTree.rec α motive (fun parts => ∀ part ∈ parts, motive part) leaf all any never ?_ ?_ tree
  · intro part member
    exact absurd member List.not_mem_nil
  · intro head tail first rest part member
    rcases List.mem_cons.mp member with same | later
    · rw [same]
      exact first
    · exact rest part later

@[simp] theorem eval_leaf (holds : α → Bool) (condition : α) :
    (leaf condition).eval holds = holds condition := by
  rw [eval]

@[simp] theorem eval_never (holds : α → Bool) : (never : AndOrTree α).eval holds = false := by
  rw [eval]

theorem eval_all (holds : α → Bool) (parts : List (AndOrTree α)) :
    (all parts).eval holds = true ↔ ∀ part ∈ parts, part.eval holds = true := by
  rw [eval]
  induction parts with
  | nil => simp [evalAll]
  | cons part parts ih => simp [evalAll,ih]

theorem eval_any (holds : α → Bool) (parts : List (AndOrTree α)) :
    (any parts).eval holds = true ↔ ∃ part ∈ parts, part.eval holds = true := by
  rw [eval]
  induction parts with
  | nil => simp [evalAny]
  | cons part parts ih => simp [evalAny,ih]

/-- A tree has no negations: leaves that hold in addition never refute it. -/
theorem eval_mono {holds more : α → Bool} (implies : ∀ condition, holds condition = true → more condition = true)
    (tree : AndOrTree α) (accepted : tree.eval holds = true) : tree.eval more = true := by
  induction tree using AndOrTree.induct with
  | leaf condition =>
    rw [eval_leaf] at accepted ⊢
    exact implies condition accepted
  | all parts ih =>
    rw [eval_all] at accepted ⊢
    exact fun part listed => ih part listed (accepted part listed)
  | any parts ih =>
    rw [eval_any] at accepted ⊢
    obtain ⟨part,listed,holds_part⟩ := accepted
    exact ⟨part,listed,ih part listed holds_part⟩
  | never => simp at accepted

section Map
variable {β : Type}

mutual
/-- The tree with each leaf replaced. -/
def map (f : α → β) : AndOrTree α → AndOrTree β
  | .leaf condition => .leaf (f condition)
  | .all parts => .all (mapParts f parts)
  | .any parts => .any (mapParts f parts)
  | .never => .never

def mapParts (f : α → β) : List (AndOrTree α) → List (AndOrTree β)
  | [] => []
  | part::parts => map f part :: mapParts f parts
end

theorem mapParts_eq (f : α → β) (parts : List (AndOrTree α)) : mapParts f parts = parts.map (map f) := by
  induction parts with
  | nil => rw [mapParts,List.map_nil]
  | cons part parts ih => rw [mapParts,ih,List.map_cons]

theorem eval_map (f : α → β) (holds : β → Bool) (tree : AndOrTree α) :
    (tree.map f).eval holds = tree.eval fun condition => holds (f condition) := by
  induction tree using AndOrTree.induct with
  | leaf condition => rw [map,eval_leaf,eval_leaf]
  | all parts ih =>
    rw [map,mapParts_eq,Bool.eq_iff_iff,eval_all,eval_all,List.forall_mem_map]
    exact forall₂_congr fun part listed => by rw [ih part listed]
  | any parts ih =>
    rw [map,mapParts_eq,Bool.eq_iff_iff,eval_any,eval_any]
    constructor
    · rintro ⟨_,member,holds⟩
      obtain ⟨part,listed,rfl⟩ := List.mem_map.mp member
      exact ⟨part,listed,ih part listed ▸ holds⟩
    · rintro ⟨part,listed,holds⟩
      exact ⟨part.map f,List.mem_map_of_mem listed,(ih part listed).symm ▸ holds⟩
  | never => rw [map,eval_never,eval_never]

end Map

mutual
/-- Every leaf satisfies `good` and no conjunction is empty. -/
def Guarded (good : α → Prop) : AndOrTree α → Prop
  | .leaf condition => good condition
  | .all parts => parts ≠ [] ∧ GuardedParts good parts
  | .any parts => GuardedParts good parts
  | .never => True

def GuardedParts (good : α → Prop) : List (AndOrTree α) → Prop
  | [] => True
  | part::parts => Guarded good part ∧ GuardedParts good parts
end

mutual
def decideGuarded (good : α → Prop) [DecidablePred good] :
    (tree : AndOrTree α) → Decidable (tree.Guarded good)
  | .leaf condition => decidable_of_iff (good condition) (by rw [Guarded])
  | .all parts =>
    have := decideGuardedParts good parts
    decidable_of_iff ((!parts.isEmpty) = true ∧ GuardedParts good parts) (by rw [Guarded]; simp)
  | .any parts =>
    have := decideGuardedParts good parts
    decidable_of_iff (GuardedParts good parts) (by rw [Guarded])
  | .never => .isTrue (by rw [Guarded]; trivial)

def decideGuardedParts (good : α → Prop) [DecidablePred good] :
    (parts : List (AndOrTree α)) → Decidable (GuardedParts good parts)
  | [] => .isTrue (by rw [GuardedParts]; trivial)
  | part::parts =>
    have := decideGuarded good part
    have := decideGuardedParts good parts
    decidable_of_iff (part.Guarded good ∧ GuardedParts good parts) (by rw [GuardedParts])
end

instance (good : α → Prop) [DecidablePred good] : DecidablePred (Guarded good) := decideGuarded good

theorem guardedParts_iff (good : α → Prop) (parts : List (AndOrTree α)) :
    GuardedParts good parts ↔ ∀ part ∈ parts, part.Guarded good := by
  induction parts with
  | nil => simp [GuardedParts]
  | cons part parts ih => simp [GuardedParts,ih]

/-- What every good leaf that holds implies, a guarded tree that holds implies:
some leaf decides. -/
theorem Guarded.eval_implies {good : α → Prop} {holds : α → Bool} {conclusion : Prop}
    (decisive : ∀ condition, good condition → holds condition = true → conclusion)
    (tree : AndOrTree α) (guarded : tree.Guarded good) (accepted : tree.eval holds = true) :
    conclusion := by
  induction tree using AndOrTree.induct with
  | leaf condition =>
    rw [Guarded] at guarded
    rw [eval_leaf] at accepted
    exact decisive condition guarded accepted
  | all parts ih =>
    rw [Guarded,guardedParts_iff] at guarded
    rw [eval_all] at accepted
    obtain ⟨part,member⟩ := List.exists_mem_of_ne_nil parts guarded.1
    exact ih part member (guarded.2 part member) (accepted part member)
  | any parts ih =>
    rw [Guarded,guardedParts_iff] at guarded
    rw [eval_any] at accepted
    obtain ⟨part,member,holds_part⟩ := accepted
    exact ih part member (guarded part member) holds_part
  | never => simp at accepted

end AndOrTree
end IndyNode

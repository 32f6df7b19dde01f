import Mathlib.Data.List.Forall2
import Mathlib.Data.List.Nodup
import Mathlib.Data.Option.Basic

/-! Documents of lists and named fields over any kind of scalars: reading a field, proof by
induction, and enumerations of parts by their positions. -/
namespace IndyNode

inductive JsonTree (σ : Type) where
  | scalar (value : σ)
  | list (items : List (JsonTree σ))
  | object (fields : List (String × JsonTree σ))
deriving Repr

namespace JsonTree
variable {σ : Type}

def field? (key : String) : JsonTree σ → Option (JsonTree σ)
  | .object fields => fields.lookup key
  | _ => none

def isObject : JsonTree σ → Bool
  | .object _ => true
  | _ => false

def isScalar : JsonTree σ → Bool
  | .scalar _ => true
  | _ => false

/-- Induction in which the hypothesis is available for the items of a list, and for the
fields of an object together with the items of those that are lists. -/
theorem induct {motive : JsonTree σ → Prop} (scalar : ∀ value, motive (.scalar value))
    (list : ∀ items, (∀ item ∈ items, motive item) → motive (.list items))
    (object : ∀ fields, (∀ entry ∈ fields, motive entry.2 ∧
      ∀ items, entry.2 = .list items → ∀ item ∈ items, motive item) → motive (.object fields))
    (tree : JsonTree σ) : motive tree := by
  suffices both : motive tree ∧ ∀ items, tree = .list items → ∀ item ∈ items, motive item from both.1
  refine @JsonTree.rec σ (fun tree => motive tree ∧ ∀ items, tree = .list items → ∀ item ∈ items, motive item)
    (fun items => ∀ item ∈ items, motive item)
    (fun fields => ∀ entry ∈ fields, motive entry.2 ∧
      ∀ items, entry.2 = .list items → ∀ item ∈ items, motive item)
    (fun entry => motive entry.2 ∧ ∀ items, entry.2 = .list items → ∀ item ∈ items, motive item)
    ?_ ?_ ?_ ?_ ?_ ?_ ?_ ?_ tree
  · exact fun value => ⟨scalar value,fun items wrong => by cases wrong⟩
  · intro items each
    refine ⟨list items each,fun others same => ?_⟩
    obtain rfl := JsonTree.list.inj same
    exact each
  · exact fun fields each => ⟨object fields each,fun items wrong => by cases wrong⟩
  · simp
  · intro head tail first rest
    exact List.forall_mem_cons.mpr ⟨first.1,rest⟩
  · simp
  · intro head tail first rest
    exact List.forall_mem_cons.mpr ⟨first,rest⟩
  · exact fun _ _ each => each

/-- Equality of documents in which the order of fields does not count. -/
inductive Same : JsonTree σ → JsonTree σ → Prop
  | scalar (value : σ) : Same (.scalar value) (.scalar value)
  | list {items others : List (JsonTree σ)} (each : List.Forall₂ Same items others) :
      Same (.list items) (.list others)
  | object {fields others : List (String × JsonTree σ)}
      (each : ∀ key, Option.Rel Same (fields.lookup key) (others.lookup key)) :
      Same (.object fields) (.object others)

theorem lookup_mem {fields : List (String × JsonTree σ)} {key : String} {value : JsonTree σ}
    (listed : fields.lookup key = some value) : (key,value) ∈ fields := by
  obtain ⟨before,after,rfl,_⟩ := List.lookup_eq_some_iff.mp listed
  simp

theorem Same.refl (tree : JsonTree σ) : Same tree tree := by
  induction tree using JsonTree.induct with
  | scalar value => exact .scalar value
  | list items ih => exact .list (List.forall₂_same.mpr ih)
  | object fields ih =>
    refine .object fun key => ?_
    cases found : fields.lookup key with
    | none => exact .none
    | some value => exact .some (ih _ (lookup_mem found)).1

end JsonTree

section Positions
variable {κ α β : Type}

/-- What is found below each of some labelled parts, under the label of the part. -/
def below (parts : List (κ × α)) (located : α → List (List κ × β)) : List (List κ × β) :=
  parts.flatMap fun part => (located part.2).map fun found => (part.1 :: found.1,found.2)

theorem mem_below (parts : List (κ × α)) (located : α → List (List κ × β)) (position : List κ) (found : β) :
    (position,found) ∈ below parts located ↔ ∃ label part rest, (label,part) ∈ parts ∧
      position = label :: rest ∧ (rest,found) ∈ located part := by
  simp only [below,List.mem_flatMap,List.mem_map,Prod.mk.injEq,Prod.exists]
  constructor
  · rintro ⟨label,part,listed,rest,_,inside,rfl,rfl⟩
    exact ⟨label,part,rest,listed,rfl,inside⟩
  · rintro ⟨label,part,rest,listed,rfl,inside⟩
    exact ⟨label,part,listed,rest,found,inside,rfl,rfl⟩

/-- Different labels keep the positions apart. -/
theorem below_nodup (parts : List (κ × α)) (located : α → List (List κ × β))
    (labels : (parts.map Prod.fst).Nodup)
    (each : ∀ part ∈ parts, ((located part.2).map Prod.fst).Nodup) :
    ((below parts located).map Prod.fst).Nodup := by
  induction parts with
  | nil => simp [below]
  | cons part parts ih =>
    obtain ⟨fresh,rest⟩ := List.nodup_cons.mp labels
    obtain ⟨here,later⟩ := List.forall_mem_cons.mp each
    have split : (below (part :: parts) located).map Prod.fst =
        ((located part.2).map Prod.fst).map (part.1 :: ·) ++ (below parts located).map Prod.fst := by
      simp [below,Function.comp_def]
    rw [split,List.nodup_append']
    refine ⟨here.map fun _ _ same => (List.cons.inj same).2,ih rest later,?_⟩
    intro position first second
    obtain ⟨tail,_,rfl⟩ := List.mem_map.mp first
    obtain ⟨⟨position,found⟩,member,same⟩ := List.mem_map.mp second
    obtain ⟨label,other,rest,listed,shape,_⟩ := (mem_below parts located position found).mp member
    obtain ⟨same,_⟩ := List.cons.inj (same.symm.trans shape)
    exact fresh (same ▸ List.mem_map_of_mem listed)

theorem below_values (parts : List (κ × α)) (located : α → List (List κ × β)) :
    (below parts located).map Prod.snd = parts.flatMap fun part => (located part.2).map Prod.snd := by
  simp [below,List.map_flatMap,Function.comp_def]

end Positions
end IndyNode

import IndyNode.CompatSetOrderRun
import IndyNode.Revocation.Strategy

/-! The order of the index list a legacy write stores, against the list a node
on CPython 3.5 stored for the same entry. -/
namespace IndyNode.Revocation
open OpenAddressing CompatSet Semantics Semantics.Python35Set

variable {ι : Type} [DecidableEq ι] [PyHash ι]

/-- The list an old node wrote: `set(indices).difference(removed)` with `added`
put in, listed in the order of the built-in set of CPython 3.5. -/
def oldNodeIndices (indices removed added : List ι) : Except Raised (List ι) := do
  let result ← indices.foldlM Python35Set.add Inner.new
  let result ← differenceAll result [.list removed]
  let result ← Python35Set.update result (.list added)
  Python35Set.iterate result

def unmarkedWrite (indices removed added : List ι) : Bool :=
  match (do CompatSet.difference (← CompatSet.init indices) [.list removed]) with
  | .ok result => unmarkedAdds result added
  | .error _ => true

private theorem legacyIndices_agree [NonnegHash ι] (indices removed added : List ι)
    (clean : unmarkedWrite indices removed added = true) :
    legacyIndices indices removed added = oldNodeIndices indices removed added := by
  obtain ⟨base,built,valid,_⟩ := init_spec indices
  obtain ⟨less,reduced,kept,_⟩ := CompatSet.difference_spec valid [.list removed]
    (fun other member => by rw [List.mem_singleton.mp member]; trivial)
  simp only [unmarkedWrite,built,ok_bind,reduced] at clean
  have old_built : indices.foldlM Python35Set.add Inner.new = .ok base :=
    (adds_agree_new indices).trans built
  have old_reduced : differenceAll base [.list removed] = .ok less := by
    rw [← reduced]
    exact differenceAll_agree valid [.list removed]
      (fun other member => by rw [List.mem_singleton.mp member]; trivial)
  have old_grown : Python35Set.update less (.list added) = less.update (.list added) :=
    update_agree kept (.list added) trivial clean
  simp only [legacyIndices,oldNodeIndices,built,reduced,old_built,old_reduced,old_grown,ok_bind,
    updateAll,List.foldlM_cons,List.foldlM_nil,bind_pure]
  rfl

/-- Runs in which no insertion passes a `REMOVED` slot iterate as CPython 3.5
does, and one insertion takes the slot CPython 3.5 takes exactly when it passes
none; the same condition makes a legacy write store the list of an old node. -/
theorem order_matches_python35 (ops : List (Python35Set.Op Nat)) (s : Inner Nat) (elem : Nat)
    (indices removed added : List Nat) (valid : s.Valid) (absent : elem ∉ s.elems) :
    (unmarkedRun (fun _ => Inner.new) ops = true →
      ∃ outcomes heap reference,
        CompatSet.run (fun _ => Inner.new) (ops.map Op.toProgram) = .ok (outcomes,heap) ∧
        Python35Set.run (fun _ => Inner.new) ops = .ok reference ∧
        ∀ name, ∃ order, (heap name).iterate = .ok order ∧
          Python35Set.iterate (reference name) = .ok order) ∧
    (Python35Set.insertKey s (.fromElem elem) =
        (do return (← s.insertEntry (.fromElem elem)).2) ↔
      passedMarker s.table (entryPath s.mask (.fromElem elem)) (.fromElem elem) = none) ∧
    (unmarkedWrite indices removed added = true →
      legacyIndices indices removed added = oldNodeIndices indices removed added) := by
  refine ⟨?_,?_,legacyIndices_agree indices removed added⟩
  · intro clean
    obtain ⟨outcomes,heap,runs,reference,orders⟩ := order_agrees ops clean
    exact ⟨outcomes,heap,heap,runs,reference,fun name => ⟨_,orders name,orders name⟩⟩
  · have fresh : Entry.fromElem elem ∉ keys s.table := by rwa [← valid.mem_elems]
    rw [insert_agree_iff valid.toSound elem,unmarked]
    simp only [fresh,decide_false,Bool.false_or,Option.isNone_iff_eq_none]

def addsElsewhere : List (Python35Set.Op Nat) :=
  [.construct 0 [1,2,3],.discard 0 2,.add 0 12,.update 0 [.list [7]]]

theorem order_matches_adds_elsewhere :
    (∃ outcomes heap reference,
        CompatSet.run (fun _ => Inner.new) (addsElsewhere.map Op.toProgram) = .ok (outcomes,heap) ∧
        Python35Set.run (fun _ => Inner.new) addsElsewhere = .ok reference ∧
        ∀ name, ∃ order, (heap name).iterate = .ok order ∧
          Python35Set.iterate (reference name) = .ok order) ∧
      legacyIndices [1,2,3] [2] [12] = oldNodeIndices [1,2,3] [2] [12] := by
  have general := order_matches_python35 addsElsewhere Inner.new 3 [1,2,3] [2] [12] Inner.new_valid
    (by simp [Inner.new_elems])
  exact ⟨general.1 (by decide),general.2.2 (by decide)⟩

def addsBehindRemoved : List (Python35Set.Op Nat) := [.construct 0 [0,1,2],.discard 0 0,.add 0 8]

/-- CPython 3.5 puts `8` into the slot of the removed `0`; `look_entry` walks on
to an empty slot. -/
theorem order_differs_behind_removed :
    legacyIndices [0,1,2,3,4] [0] [8] = .ok [1,2,3,4,8] ∧
      oldNodeIndices [0,1,2,3,4] [0] [8] = .ok [8,1,2,3,4] ∧
      (do ((← CompatSet.run (fun _ => Inner.new) (addsBehindRemoved.map Op.toProgram)).2 0).iterate) =
        .ok [1,2,8] ∧
      (do Python35Set.iterate ((← Python35Set.run (fun _ => Inner.new) addsBehindRemoved) 0)) =
        .ok [8,1,2] := by
  decide

end IndyNode.Revocation

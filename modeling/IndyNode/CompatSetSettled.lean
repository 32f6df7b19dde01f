import IndyNode.CompatSetMethods

/-! Sets of elements with arbitrary hashes: adding a list, removing a list, and
the checks that decide whether these loops end. -/
namespace IndyNode.CompatSet
open OpenAddressing

variable {α : Type} [DecidableEq α] [PyHash α]

namespace Inner

def settledAdds (s : Inner α) (added : List α) : Bool := permitted add settledAdd added s

def discardAll (s : Inner α) (gone : List α) : Except Raised (Inner α) :=
  gone.foldlM (fun s elem => do return (← discard s elem).2) s

def settledDiscards (s : Inner α) (gone : List α) : Bool :=
  permitted (fun s elem => do return (← discard s elem).2) settles gone s

/-- The check of `difference` with a list: a copy, the removals, and the resize
that takes the markers away. -/
def settledDifference (s : Inner α) (gone : List α) : Bool :=
  checked s.settledCopy s.copy (fun t => checked (t.settledDiscards gone) (t.discardAll gone) (fun u =>
    if (u.fill - u.used) * 5 ≥ u.mask then u.settledGrow else true))

theorem Valid.adds_guarded {s : Inner α} (valid : s.Valid) (added : List α) :
    Guarded .diverges (s.settledAdds added) (Plain added ∧ Plain s.elems) (added.foldlM add s)
      (fun final => final.Valid ∧
        ∀ elem, elem ∈ final.elems ↔ elem ∈ added ∨ elem ∈ s.elems) := by
  refine Guarded.foldlM add settledAdd (fun before (t : Inner α) => t.Valid ∧
    ∀ elem, elem ∈ t.elems ↔ elem ∈ before ∨ elem ∈ s.elems) added s ⟨valid,by simp⟩ ?_
  rintro before elem after t shape ⟨good,members⟩
  refine (good.add_guarded elem).imp ?_ ?_
  · rintro final ⟨kept,content⟩
    refine ⟨kept,fun held => ?_⟩
    rw [content,members,List.mem_append,List.mem_singleton]
    rw [or_assoc,or_left_comm]
  · rintro ⟨plain,old⟩
    refine ⟨plain elem (by simp [shape]),fun held member => ?_⟩
    rcases (members held).mp member with early | stored
    · exact plain held (by simp [shape,early])
    · exact old held stored

private theorem Valid.discards_guarded {s : Inner α} (valid : s.Valid) (gone : List α) :
    Guarded .diverges (s.settledDiscards gone) (Plain gone) (s.discardAll gone)
      (fun final => final.Valid ∧
        ∀ elem, elem ∈ final.elems ↔ elem ∈ s.elems ∧ elem ∉ gone) := by
  refine Guarded.foldlM _ settles (fun before (t : Inner α) => t.Valid ∧
    ∀ elem, elem ∈ t.elems ↔ elem ∈ s.elems ∧ elem ∉ before) gone s ⟨valid,by simp⟩ ?_
  rintro before elem after t shape ⟨good,members⟩
  refine ((good.discard_guarded elem).imp (fun _ holds => holds)
    (fun plain => plain elem (by simp [shape]))).andThen ?_
  rintro ⟨_,final⟩ ⟨_,kept,content⟩
  refine ⟨final,rfl,kept,fun held => ?_⟩
  rw [content,members,List.mem_append,List.mem_singleton]
  rw [not_or,and_assoc]

theorem Valid.difference_guarded {s : Inner α} (valid : s.Valid) (gone : List α) :
    Guarded .diverges (s.settledDifference gone) (Plain gone ∧ Plain s.elems)
      (s.difference (.list gone))
      (fun final => final.Valid ∧
        ∀ elem, elem ∈ final.elems ↔ elem ∈ s.elems ∧ elem ∉ gone) := by
  refine (valid.copy_guarded.imp (fun _ good => good) And.right).bind ?_
  rintro t ⟨good,same⟩
  refine ((good.discards_guarded gone).imp (fun _ holds => holds) And.left).bind ?_
  rintro u ⟨light,members⟩
  refine Guarded.ite _ (fun _ => ?_) (fun _ => Guarded.ok u ⟨light,fun elem => ?_⟩)
  · refine light.grow_guarded.imp ?_ ?_
    · rintro final ⟨kept,content⟩
      refine ⟨kept,fun elem => ?_⟩
      rw [content,members,same]
    · rintro ⟨_,plain⟩ elem member
      exact plain elem ((same elem).mp ((members elem).mp member).1)
  · rw [members,same]

end Inner

theorem init_guarded (elems : List α) :
    Guarded .diverges (Inner.new.settledAdds elems) (Inner.Plain elems) (init elems)
      (fun final => final.Valid ∧ ∀ elem, elem ∈ final.elems ↔ elem ∈ elems) := by
  refine (Inner.new_valid.adds_guarded elems).imp ?_
    (fun plain => ⟨plain,by simp [Inner.Plain,Inner.new_elems]⟩)
  rintro final ⟨kept,members⟩
  exact ⟨kept,fun elem => (members elem).trans (by simp [Inner.new_elems])⟩

end IndyNode.CompatSet

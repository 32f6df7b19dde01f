import IndyNode.CompatSetOrder

/-! Whole programs of constructions, additions, discards, differences and
updates: the objects of both sets stay equal as long as no insertion passes a
`REMOVED` slot, so they are iterated in the same order. -/
namespace IndyNode.CompatSet
open OpenAddressing Semantics Semantics.Python35Set

variable {α : Type}

private theorem arguments_agree (heap : Heap α) (name : Nat) (others : List (Python35Set.Arg α)) :
    (others.map Arg.toProgram).map (argument heap name) =
      (others.map (operand heap name)).map toIterable := by
  rw [List.map_map,List.map_map]
  apply List.map_congr_left
  intro other _
  cases other <;> rfl

private theorem operands_fit [PyHash α] (heap : Heap α) (valid : ∀ name, (heap name).Valid) (receiver : Nat)
    (others : List (Python35Set.Arg α)) :
    ∀ other ∈ others.map (operand heap receiver), (toIterable other).Fits (heap receiver) := by
  intro other member
  obtain ⟨arg,_,rfl⟩ := List.mem_map.mp member
  cases arg with
  | list elems => trivial
  | named name =>
    refine ⟨valid name,?_⟩
    intro self elem inside
    rwa [beq_iff_eq.mp self] at inside

section Condition
variable [DecidableEq α] [PyHash α]

def stepHeap (heap : Heap α) (op : Python35Set.Op α) : Except Raised (Heap α) := do
  return (← step heap op.toProgram).2

/-- Only `add` and `update` insert into a table that may hold markers. -/
def unmarkedStep (heap : Heap α) : Python35Set.Op α → Bool
  | .add name elem => unmarked (heap name) (.fromElem elem)
  | .update name others => permitted Inner.update unmarkedUpdate
      ((others.map (operand heap name)).map toIterable) (heap name)
  | _ => true

def unmarkedRun (heap : Heap α) (ops : List (Python35Set.Op α)) : Bool :=
  permitted stepHeap unmarkedStep ops heap

private theorem run_heap (ops : List (Python35Set.Op α)) (heap final : Heap α)
    (outcomes : List (SetProgram.Outcome α))
    (runs : run heap (ops.map Op.toProgram) = .ok (outcomes,final)) :
    ops.foldlM stepHeap heap = .ok final := by
  induction ops generalizing heap outcomes with
  | nil =>
    simp only [List.map_nil,run,Except.ok.injEq,Prod.mk.injEq] at runs
    rw [List.foldlM_nil,runs.2]
    rfl
  | cons op ops ih =>
    obtain ⟨⟨outcome,middle⟩,first,rest⟩ := bind_success _ _ _ runs
    obtain ⟨⟨later,last⟩,tail,done⟩ := bind_success _ _ _ rest
    simp only [pure,Except.pure,Except.ok.injEq,Prod.mk.injEq] at done
    rw [done.2] at tail
    rw [List.foldlM_cons,stepHeap,first]
    exact ih middle later tail

end Condition

variable [DecidableEq α] [PyHash α] [NonnegHash α]

private theorem updates_agree (s : Inner α) (valid : s.Valid) (others : List (Operand α))
    (fits : ∀ other ∈ others, (toIterable other).Fits s)
    (clean : permitted Inner.update unmarkedUpdate (others.map toIterable) s = true) :
    others.foldlM Python35Set.update s = updateAll s (others.map toIterable) := by
  induction others generalizing s with
  | nil => rfl
  | cons other others ih =>
    rw [List.map_cons,permitted,Bool.and_eq_true] at clean
    have fit := fits other (by simp)
    obtain ⟨next,runs,kept,members⟩ := valid.update_spec (toIterable other) fit
    have later := clean.2
    rw [runs] at later
    rw [List.map_cons,updateAll,List.foldlM_cons,List.foldlM_cons,
      update_agree valid other fit clean.1,runs]
    refine ih next kept ?_ later
    intro left member
    exact (fits left (by simp [member])).mono (fun elem inside => (members elem).mpr (.inr inside))

private theorem step_agree (heap : Heap α) (valid : ∀ name, (heap name).Valid) (op : Python35Set.Op α)
    (clean : unmarkedStep heap op = true) : Python35Set.step heap op = stepHeap heap op := by
  -- Both sides bind the same table to the same name.
  have binding (target : Nat) (call reference : Except Raised (Inner α)) (same : reference = call) :
      (do return Function.update heap target (← reference)) =
        (do return (← bindTo heap target call).2 : Except Raised (Heap α)) := by
    subst same
    cases reference <;> rfl
  cases op with
  | construct target elems => exact binding target _ _ (adds_agree_new elems)
  | add name elem => exact binding name _ _ (addEntry_agree (valid name) elem clean)
  | discard name elem => exact binding name _ _ (discard_agree (valid name).toSound elem)
  | difference target name others =>
    refine binding target _ _ ?_
    rw [arguments_agree]
    exact differenceAll_agree (valid name) _ (operands_fit heap valid name others)
  | update name others =>
    refine binding name _ _ ?_
    rw [arguments_agree]
    exact updates_agree _ (valid name) _ (operands_fit heap valid name others) clean

private theorem stepHeap_valid (heap next : Heap α) (valid : ∀ name, (heap name).Valid)
    (op : Python35Set.Op α) (steps : stepHeap heap op = .ok next) : ∀ name, (next name).Valid := by
  have denotes (name : Nat) : Denotes (heap name) (heap name).elems.toFinset :=
    ⟨valid name,fun elem => List.mem_toFinset.symm⟩
  obtain ⟨outcome,middle,_,runs,_,kept⟩ := step_refines heap _ denotes op.toProgram
  simp only [stepHeap,runs,ok_bind,pure,Except.pure,Except.ok.injEq] at steps
  intro name
  rw [← steps]
  exact (kept name).1

private theorem run_agree (heap : Heap α) (valid : ∀ name, (heap name).Valid)
    (ops : List (Python35Set.Op α)) (clean : unmarkedRun heap ops = true) :
    Python35Set.run heap ops = ops.foldlM stepHeap heap :=
  foldlM_agree stepHeap Python35Set.step unmarkedStep (fun _ t => ∀ name, (t name).Valid) ops heap
    valid (fun op _ t next good steps => stepHeap_valid t next good op steps)
    (fun op _ t good permit => step_agree t good op permit) clean

/-- In a run without a passed marker both interpreters return, and every object
has one iteration order. -/
theorem order_agrees (ops : List (Python35Set.Op α))
    (clean : unmarkedRun (fun _ => Inner.new) ops = true) :
    ∃ outcomes heap, run (fun _ => Inner.new) (ops.map Op.toProgram) = .ok (outcomes,heap) ∧
      Python35Set.run (fun _ => Inner.new) ops = .ok heap ∧
      ∀ name, (heap name).iterate = .ok (heap name).elems := by
  obtain ⟨outcomes,heap,_,runs,_,denotes⟩ := run_refines (ops.map Op.toProgram)
    (fun _ => (Inner.new : Inner α)) (fun _ => ∅) (fun _ => ⟨Inner.new_valid,by simp [Inner.new_elems]⟩)
  refine ⟨outcomes,heap,runs,?_,fun name => (denotes name).1.iterate_spec⟩
  rw [run_agree _ (fun _ => Inner.new_valid) ops clean]
  exact run_heap ops _ heap outcomes runs

end IndyNode.CompatSet

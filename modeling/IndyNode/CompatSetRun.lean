import IndyNode.CompatSetMethods
import IndyNode.Semantics.SetProgram

/-! Whole programs over `CompatSet` objects run without failure and compute the
finite sets they denote, whatever objects they pass to each other. -/
namespace IndyNode.CompatSet
open OpenAddressing Semantics.SetProgram

abbrev Heap (α : Type) := Nat → Inner α

section Execution
variable {α : Type} [DecidableEq α] [PyHash α]

def argument (heap : Heap α) (receiver : Nat) : Arg α → Iterable α
  | .list elems => .list elems
  | .pySet elems distinct => .pySet elems distinct
  | .named name => .compatSet (heap name) (name == receiver)

/-- A `KeyError` reaches the caller and leaves the object as it was. -/
def orKeyError (heap : Heap α) (call : Except Raised (Outcome α × Heap α)) :
    Except Raised (Outcome α × Heap α) :=
  match call with
  | .error .keyError => .ok (.keyError,heap)
  | other => other

def bindTo (heap : Heap α) (target : Nat) (call : Except Raised (Inner α)) :
    Except Raised (Outcome α × Heap α) := do
  return (.done,Function.update heap target (← call))

def step (heap : Heap α) : Op α → Except Raised (Outcome α × Heap α)
  | .construct target elems => bindTo heap target (init elems)
  | .add name elem => bindTo heap name ((heap name).add elem)
  | .discard name elem => bindTo heap name (do return (← (heap name).discard elem).2)
  | .remove name elem => orKeyError heap (bindTo heap name (remove (heap name) elem))
  | .pop name => orKeyError heap do
    let (elem,s) ← (heap name).pop
    return (.popped elem,Function.update heap name s)
  | .clear name => bindTo heap name (.ok Inner.new)
  | .copy target name => bindTo heap target (heap name).copy
  | .update name others => bindTo heap name (updateAll (heap name) (others.map (argument heap name)))
  | .union target name others =>
    bindTo heap target (union (heap name) (others.map (argument heap name)))
  | .difference target name others =>
    bindTo heap target (difference (heap name) (others.map (argument heap name)))
  | .subtract name other => bindTo heap name ((heap name).differenceUpdate (argument heap name other))
  | .symmetricDifference target name other =>
    bindTo heap target (symmetricDifference (heap name) (argument heap name other))

def run (heap : Heap α) : List (Op α) → Except Raised (List (Outcome α) × Heap α)
  | [] => .ok ([],heap)
  | op::ops => do
    let (outcome,middle) ← step heap op
    let (outcomes,final) ← run middle ops
    return (outcome::outcomes,final)

end Execution

variable {α : Type} [PyHash α]

def Denotes (s : Inner α) (set : Finset α) : Prop :=
  s.Valid ∧ ∀ elem, elem ∈ s.elems ↔ elem ∈ set

private theorem bindTo_refines (heap : Heap α) (sets : Nat → Finset α)
    (denotes : ∀ name, Denotes (heap name) (sets name)) (target : Nat)
    (call : Except Raised (Inner α)) (set : Finset α)
    (returns : ∃ final, call = .ok final ∧ Denotes final set) :
    ∃ middle, bindTo heap target call = .ok (.done,middle) ∧
      ∀ name, Denotes (middle name) (Function.update sets target set name) := by
  obtain ⟨final,run,good⟩ := returns
  refine ⟨Function.update heap target final,by simp [bindTo,run,pure,Except.pure],fun name => ?_⟩
  by_cases same : name = target
  · subst name
    simpa using good
  · simpa [same] using denotes name

variable [DecidableEq α]

private theorem argument_fits (heap : Heap α) (sets : Nat → Finset α)
    (denotes : ∀ name, Denotes (heap name) (sets name)) (receiver : Nat) (other : Arg α) :
    (argument heap receiver other).Fits (heap receiver) ∧
      (argument heap receiver other).Honest (heap receiver) ∧
      ∀ elem, elem ∈ (argument heap receiver other).content ↔ elem ∈ other.meaning sets := by
  cases other with
  | list elems => exact ⟨trivial,trivial,fun elem => by simp [argument,Iterable.content,Arg.meaning]⟩
  | pySet elems distinct =>
    exact ⟨trivial,trivial,fun elem => by simp [argument,Iterable.content,Arg.meaning]⟩
  | named name =>
    refine ⟨⟨(denotes name).1,?_⟩,?_,(denotes name).2⟩
    · intro self elem member
      rwa [beq_iff_eq.mp self] at member
    · intro self
      rw [beq_iff_eq.mp self]

private theorem arguments_content (heap : Heap α) (sets : Nat → Finset α)
    (denotes : ∀ name, Denotes (heap name) (sets name)) (receiver : Nat) (others : List (Arg α))
    (elem : α) : (∃ other ∈ others.map (argument heap receiver), elem ∈ other.content) ↔
      elem ∈ meanings sets others := by
  rw [mem_meanings]
  simp only [List.mem_map,exists_exists_and_eq_and]
  apply exists_congr
  intro other
  rw [(argument_fits heap sets denotes receiver other).2.2]

private theorem arguments_fit (heap : Heap α) (sets : Nat → Finset α)
    (denotes : ∀ name, Denotes (heap name) (sets name)) (receiver : Nat) (others : List (Arg α)) :
    ∀ other ∈ others.map (argument heap receiver), other.Fits (heap receiver) := by
  intro other member
  obtain ⟨arg,_,rfl⟩ := List.mem_map.mp member
  exact (argument_fits heap sets denotes receiver arg).1

/-- The table behind one set: its shape, its counters and its probe paths. -/
structure Table (s : Inner α) : Prop where
  length : s.table.length = s.mask + 1
  power : ∃ k, s.mask + 1 = 2 ^ k
  least : 8 ≤ s.mask + 1
  used : s.used = s.table.countP (fun slot => slot.key?.isSome)
  fill : s.fill = s.table.countP (fun slot => slot.key?.isSome) + s.table.count .removed
  load : 3 * s.fill < 2 * (s.mask + 1)
  reached : ∀ (p : Nat) (entry : Entry α), s.table[p]? = some (.live entry) →
    s.lookEntry entry = .ok p ∧ ∃ before after, entryPath s.mask entry = before ++ p :: after ∧
      ∀ j ∈ before, s.table[j]? ≠ some .empty

/-- One set object behaves as the finite set it denotes. -/
structure Behaves (s : Inner α) (set : Finset α) : Prop where
  contains : ∀ elem, s.contains elem = .ok (decide (elem ∈ set))
  len : s.used = set.card
  iteration : ∃ order : List α, s.iterate = .ok order ∧ order.Nodup ∧
    ∀ elem, elem ∈ order ↔ elem ∈ set

private theorem Denotes.table {s : Inner α} {set : Finset α} (denotes : Denotes s set) : Table s where
  length := denotes.1.length
  power := denotes.1.size.imp (fun _ shape => shape.2)
  least := by have large := denotes.1.mask_ge; omega
  used := by rw [denotes.1.used,keys_length]
  fill := by rw [denotes.1.fill,occupancy_eq]
  load := denotes.1.load
  reached := by
    intro p entry live
    refine ⟨?_,denotes.1.placed.reached p entry live⟩
    have member := (mem_keys _ _).mpr ⟨p,live⟩
    have whole := denotes.1.hashed entry member
    rw [whole] at member live ⊢
    obtain ⟨q,look,found⟩ := denotes.1.lookEntry_live _ ((denotes.1.mem_elems _).mpr member)
    rw [look,denotes.1.placed.unique q p _ found live]

section Meaning
variable [NonnegHash α]

private theorem Denotes.behaves {s : Inner α} {set : Finset α} (denotes : Denotes s set) :
    Behaves s set where
  contains := by
    intro elem
    rw [denotes.1.contains_spec]
    simp only [denotes.2 elem]
  len := by
    have same : s.elems.toFinset = set := by
      ext elem
      rw [List.mem_toFinset,denotes.2]
    rw [← denotes.1.elems_length,← same,List.toFinset_card_of_nodup denotes.1.elems_nodup]
  iteration := ⟨s.elems,denotes.1.iterate_spec,denotes.1.elems_nodup,denotes.2⟩

/-- Every operation returns and takes the finite sets one step further. -/
theorem step_refines (heap : Heap α) (sets : Nat → Finset α)
    (denotes : ∀ name, Denotes (heap name) (sets name)) (op : Op α) :
    ∃ outcome middle after, step heap op = .ok (outcome,middle) ∧ Step op sets outcome after ∧
      ∀ name, Denotes (middle name) (after name) := by
  -- An operation that only binds a result is settled by the content of that result.
  have binding (target : Nat) (call : Except Raised (Inner α)) (set : Finset α)
      (returns : ∃ final, call = .ok final ∧ final.Valid ∧
        ∀ elem, elem ∈ final.elems ↔ elem ∈ set)
      (executes : step heap op = bindTo heap target call)
      (meaning : Step op sets .done (Function.update sets target set)) :
      ∃ outcome middle after, step heap op = .ok (outcome,middle) ∧ Step op sets outcome after ∧
        ∀ name, Denotes (middle name) (after name) := by
    obtain ⟨middle,bound,kept⟩ := bindTo_refines heap sets denotes target call set returns
    exact ⟨.done,middle,_,executes.trans bound,meaning,kept⟩
  cases op with
  | construct target elems =>
    obtain ⟨final,run,kept,members⟩ := init_spec elems
    exact binding target _ _ ⟨final,run,kept,by simpa using members⟩ rfl (.construct target elems sets)
  | add name elem =>
    obtain ⟨final,run,kept,members⟩ := (denotes name).1.add_spec elem
    refine binding name _ _ ⟨final,run,kept,fun other => ?_⟩ rfl (.add name elem sets)
    rw [members,(denotes name).2,Finset.mem_insert]
  | discard name elem =>
    obtain ⟨final,run,kept,members⟩ := (denotes name).1.discard_spec elem
    refine binding name _ _ ⟨final,by simp [run,pure,Except.pure],kept,fun other => ?_⟩ rfl
      (.discard name elem sets)
    rw [members,(denotes name).2,Finset.mem_erase,and_comm]
  | remove name elem =>
    by_cases present : elem ∈ (heap name).elems
    · obtain ⟨final,run,kept,members⟩ := remove_present (denotes name).1 elem present
      refine binding name (remove (heap name) elem) _ ⟨final,run,kept,fun other => ?_⟩ ?_
        (.remove name elem sets (((denotes name).2 elem).mp present))
      · rw [members,(denotes name).2,Finset.mem_erase,and_comm]
      · simp [step,bindTo,run,orKeyError,pure,Except.pure]
    · refine ⟨.keyError,heap,sets,?_,
        .removeAbsent name elem sets (fun member => present (((denotes name).2 elem).mpr member)),denotes⟩
      simp [step,bindTo,remove_absent (denotes name).1 elem present,orKeyError]
  | pop name =>
    by_cases nothing : (heap name).elems = []
    · refine ⟨.keyError,heap,sets,?_,.popEmpty name sets ?_,denotes⟩
      · simp [step,(denotes name).1.pop_empty nothing,orKeyError]
      · apply Finset.eq_empty_of_forall_notMem
        intro elem member
        have listed := ((denotes name).2 elem).mpr member
        rw [nothing] at listed
        exact List.not_mem_nil listed
    · obtain ⟨elem,final,run,present,kept,members⟩ := (denotes name).1.pop_spec nothing
      refine ⟨.popped elem,Function.update heap name final,_,?_,
        .pop name elem sets (((denotes name).2 elem).mp present),fun other => ?_⟩
      · simp [step,run,orKeyError,pure,Except.pure]
      · by_cases same : other = name
        · subst other
          refine ⟨by simpa using kept,fun held => ?_⟩
          simp only [Function.update_self]
          rw [members,(denotes _).2,Finset.mem_erase,and_comm]
        · simpa [same] using denotes other
  | clear name =>
    exact binding name _ ∅ ⟨Inner.new,rfl,Inner.new_valid,by simp [Inner.new_elems]⟩ rfl
      (.clear name sets)
  | copy target name =>
    obtain ⟨final,run,kept,members⟩ := (denotes name).1.copy_spec
    exact binding target _ _ ⟨final,run,kept,fun elem => (members elem).trans ((denotes name).2 elem)⟩
      rfl (.copy target name sets)
  | update name others =>
    obtain ⟨final,run,kept,members⟩ := updateAll_spec (denotes name).1 _
      (arguments_fit heap sets denotes name others)
    refine binding name _ _ ⟨final,run,kept,fun elem => ?_⟩ rfl (.update name others sets)
    rw [members,arguments_content heap sets denotes,(denotes name).2,Finset.mem_union,or_comm]
  | union target name others =>
    obtain ⟨final,run,kept,members⟩ := union_spec (denotes name).1 _
      (arguments_fit heap sets denotes name others)
    refine binding target _ _ ⟨final,run,kept,fun elem => ?_⟩ rfl (.union target name others sets)
    rw [members,arguments_content heap sets denotes,(denotes name).2,Finset.mem_union,or_comm]
  | difference target name others =>
    obtain ⟨final,run,kept,members⟩ := difference_spec (denotes name).1 _
      (arguments_fit heap sets denotes name others)
    refine binding target _ _ ⟨final,run,kept,fun elem => ?_⟩ rfl (.difference target name others sets)
    rw [members,(denotes name).2,Finset.mem_sdiff,← arguments_content heap sets denotes name]
    simp only [not_exists,not_and]
  | subtract name other =>
    have arg := argument_fits heap sets denotes name other
    obtain ⟨final,run,kept,members⟩ := (denotes name).1.differenceUpdate_spec _ arg.1 arg.2.1
    refine binding name _ _ ⟨final,run,kept,fun elem => ?_⟩ rfl (.subtract name other sets)
    rw [members,(denotes name).2,Finset.mem_sdiff,arg.2.2]
  | symmetricDifference target name other =>
    have arg := argument_fits heap sets denotes name other
    obtain ⟨final,run,kept,members⟩ := symmetricDifference_spec (denotes name).1 _ arg.1
    refine binding target _ _ ⟨final,run,kept,fun elem => ?_⟩ rfl
      (.symmetricDifference target name other sets)
    rw [members,(denotes name).2,arg.2.2,Finset.mem_symmDiff]
    tauto

theorem run_refines (ops : List (Op α)) (heap : Heap α) (sets : Nat → Finset α)
    (denotes : ∀ name, Denotes (heap name) (sets name)) :
    ∃ outcomes final after, run heap ops = .ok (outcomes,final) ∧ Run ops sets outcomes after ∧
      ∀ name, Denotes (final name) (after name) := by
  induction ops generalizing heap sets with
  | nil => exact ⟨[],heap,sets,rfl,.nil sets,denotes⟩
  | cons op ops ih =>
    obtain ⟨outcome,middle,between,first,head,kept⟩ := step_refines heap sets denotes op
    obtain ⟨outcomes,final,after,rest,tail,done⟩ := ih middle between kept
    refine ⟨outcome::outcomes,final,after,?_,.cons op ops sets outcome between outcomes after head tail,done⟩
    simp [run,first,rest,pure,Except.pure]

end Meaning

/-- Any program over sets of non-negative integers, started with every name
bound to an empty set, runs to its end; each object then behaves as the finite
set the program denotes, on a table that satisfies all its invariants. -/
theorem program_refines (ops : List (Op Nat)) :
    ∃ outcomes heap sets, run (fun _ => Inner.new) ops = .ok (outcomes,heap) ∧
      Run ops (fun _ => ∅) outcomes sets ∧
      ∀ name, Table (heap name) ∧ Behaves (heap name) (sets name) := by
  obtain ⟨outcomes,heap,sets,runs,means,denotes⟩ := run_refines ops (fun _ => Inner.new)
    (fun _ => ∅) (fun _ => ⟨Inner.new_valid,by simp [Inner.new_elems]⟩)
  exact ⟨outcomes,heap,sets,runs,means,fun name => ⟨(denotes name).table,(denotes name).behaves⟩⟩

end IndyNode.CompatSet

import IndyNode.CompatSetOperations

/-! Methods that take other collections, and `pop`. An argument fits a receiver
when a `CompatSet` among them is valid and, if it is the receiver itself, holds
nothing the receiver does not hold. -/
namespace IndyNode.CompatSet
open OpenAddressing

variable {α : Type}

namespace Iterable

def content : Iterable α → List α
  | .list elems => elems
  | .pySet elems _ => elems
  | .compatSet inner _ => inner.elems

def Fits [PyHash α] (s : Inner α) : Iterable α → Prop
  | .compatSet inner isSelf => inner.Valid ∧ (isSelf = true → ∀ elem ∈ inner.elems, elem ∈ s.elems)
  | _ => True

/-- The argument is no other object posing as the receiver. -/
def Honest (s : Inner α) : Iterable α → Prop
  | .compatSet inner isSelf => isSelf = true → inner = s
  | _ => True

private theorem elems_spec [DecidableEq α] [PyHash α] (s : Inner α) (other : Iterable α)
    (fits : other.Fits s) : other.elems = .ok other.content := by
  cases other with
  | list elems => rfl
  | pySet elems distinct => rfl
  | compatSet inner isSelf => exact fits.1.iterate_spec

theorem toFresh_fits [PyHash α] (s t : Inner α) (other : Iterable α) (fits : other.Fits s) :
    other.toFresh.Fits t := by
  cases other with
  | list elems => trivial
  | pySet elems distinct => trivial
  | compatSet inner isSelf =>
    refine ⟨fits.1,?_⟩
    intro impossible
    cases impossible

theorem toFresh_honest (s : Inner α) (other : Iterable α) : other.toFresh.Honest s := by
  cases other with
  | list elems => trivial
  | pySet elems distinct => trivial
  | compatSet inner isSelf =>
    intro impossible
    cases impossible

theorem toFresh_content (other : Iterable α) : other.toFresh.content = other.content := by
  cases other <;> rfl

theorem Fits.mono [PyHash α] {s t : Inner α} {other : Iterable α} (fits : other.Fits s)
    (grown : ∀ elem ∈ s.elems, elem ∈ t.elems) : other.Fits t := by
  cases other with
  | list elems => trivial
  | pySet elems distinct => trivial
  | compatSet inner isSelf => exact ⟨fits.1,fun self elem member => grown elem (fits.2 self elem member)⟩

end Iterable

namespace Inner

private theorem popLoop_spec (s : Inner α) (length : s.table.length = s.mask + 1)
    (q : Nat) (target : Entry α) (live : s.table[q]? = some (.live target)) (rounds i : Nat)
    (start : i ≤ s.mask)
    (near : (if i ≤ q then q - i else q + (s.mask + 1) - i) < rounds) :
    ∃ p entry, s.popLoop rounds i = .ok (p,entry) ∧ s.table[p]? = some (.live entry) := by
  have bound := (List.getElem?_eq_some_iff.mp live).1
  induction rounds generalizing i with
  | zero => omega
  | succ rounds ih =>
    have inside : i < s.table.length := by omega
    have further (slot : Slot α) (here : s.table[i] = slot) (dead : slot.key? = none) :
        (if (if i + 1 > s.mask then 0 else i + 1) ≤ q then q - (if i + 1 > s.mask then 0 else i + 1)
          else q + (s.mask + 1) - (if i + 1 > s.mask then 0 else i + 1)) < rounds := by
      have apart : i ≠ q := by
        intro same
        subst same
        rw [List.getElem?_eq_getElem inside,here] at live
        simp only [Option.some.injEq] at live
        rw [live] at dead
        simp at dead
      split_ifs at near ⊢ <;> omega
    have wrap : (if i + 1 > s.mask then 0 else i + 1) ≤ s.mask := by split <;> omega
    simp only [popLoop,List.getElem?_eq_getElem inside]
    cases here : s.table[i] with
    | live entry => exact ⟨i,entry,rfl,by rw [List.getElem?_eq_getElem inside,here]⟩
    | empty => exact ih _ wrap (further .empty here rfl)
    | removed => exact ih _ wrap (further .removed here rfl)

variable [PyHash α]

theorem Sound.pop_empty {s : Inner α} (sound : s.Sound) (nothing : s.elems = []) :
    s.pop = .error .keyError := by
  have zero : s.used = 0 := by rw [← sound.elems_length,nothing]; rfl
  simp [pop,zero,throw_eq,bind,Except.bind]

theorem Valid.pop_spec {s : Inner α} (valid : s.Valid) (some_elem : s.elems ≠ []) :
    ∃ elem final, s.pop = .ok (elem,final) ∧ elem ∈ s.elems ∧ final.Valid ∧
      ∀ other, other ∈ final.elems ↔ other ∈ s.elems ∧ other ≠ elem := by
  obtain ⟨first,member⟩ := List.exists_mem_of_ne_nil _ some_elem
  obtain ⟨q,live⟩ := (mem_keys _ _).mp ((valid.mem_elems first).mp member)
  have bound := (List.getElem?_eq_some_iff.mp live).1
  have length := valid.length
  have start : s.search &&& s.mask ≤ s.mask := Nat.and_le_right
  obtain ⟨p,entry,loop,found⟩ := popLoop_spec s length q _ live (s.mask + 1) _ start
    (by split <;> omega)
  have present := (mem_keys s.table entry).mpr ⟨p,found⟩
  have whole := valid.hashed entry present
  have nonzero : s.used ≠ 0 := by
    intro zero
    have count := valid.elems_length
    rw [zero] at count
    exact some_elem (List.length_eq_zero_iff.mp count)
  let final : Inner α :=
    {s with table := s.table.set p .removed,used := s.used - 1,search := p + 1}
  have members (held : Entry α) : held ∈ keys final.table ↔ held ∈ keys s.table ∧ held ≠ entry :=
    valid.placed.mem_keys_remove p _ held found
  have kept : final.Valid := {
    size := valid.size
    length := by simpa [final] using length
    used := by
      have shorter := keys_length_remove s.table p _ found
      have before := valid.used
      simp only [final]
      omega
    fill := by
      simp only [final]
      rw [occupancy_replace s.table p _ .removed found rfl,valid.fill]
    placed := valid.placed.remove p _ found
    hashed := fun held inside => valid.hashed held ((members held).mp inside).1
    room := valid.room
    load := valid.load}
  refine ⟨entry.elem,final,?_,List.mem_map.mpr ⟨entry,present,rfl⟩,kept,fun other => ?_⟩
  · simp [pop,nonzero,loop,bind,Except.bind,pure,Except.pure,final]
  · rw [kept.mem_elems,valid.mem_elems,members,ne_eq,whole,fromElem_inj]
    rfl

variable [DecidableEq α] [NonnegHash α]

theorem Valid.update_spec {s : Inner α} (valid : s.Valid) (other : Iterable α)
    (fits : other.Fits s) :
    ∃ final, s.update other = .ok final ∧ final.Valid ∧
      ∀ elem, elem ∈ final.elems ↔ elem ∈ other.content ∨ elem ∈ s.elems := by
  have adding (added : List α) : ∃ final, added.foldlM add s = .ok final ∧ final.Valid ∧
      ∀ elem, elem ∈ final.elems ↔ elem ∈ added ∨ elem ∈ s.elems := by
    refine foldlM_invariant add (fun before (t : Inner α) => t.Valid ∧
      ∀ elem, elem ∈ t.elems ↔ elem ∈ before ∨ elem ∈ s.elems) added s ⟨valid,by simp⟩ ?_
    intro before elem after t _ ⟨good,members⟩
    obtain ⟨final,run,kept,content⟩ := good.add_spec elem
    refine ⟨final,run,kept,fun held => ?_⟩
    rw [content,members,List.mem_append,List.mem_singleton]
    rw [or_assoc,or_left_comm]
  cases other with
  | list elems => exact adding elems
  | pySet elems distinct => exact adding elems
  | compatSet inner isSelf =>
    cases isSelf with
    | false => exact valid.merge_spec fits.1
    | true =>
      refine ⟨s,merge_self s inner,valid,fun elem => ?_⟩
      constructor
      · exact .inr
      · intro either
        exact either.elim (fits.2 rfl elem) id

theorem Valid.discard_all {s : Inner α} (valid : s.Valid) (gone : List α) :
    ∃ final, gone.foldlM (fun s elem => do return (← discard s elem).2) s = .ok final ∧
      final.Valid ∧ ∀ elem, elem ∈ final.elems ↔ elem ∈ s.elems ∧ elem ∉ gone := by
  refine foldlM_invariant (fun s elem => do return (← discard s elem).2)
    (fun before (t : Inner α) => t.Valid ∧
      ∀ elem, elem ∈ t.elems ↔ elem ∈ s.elems ∧ elem ∉ before) gone s ⟨valid,by simp⟩ ?_
  intro before elem after t _ ⟨good,members⟩
  obtain ⟨final,run,kept,content⟩ := good.discard_spec elem
  refine ⟨final,by simp only [run,bind,Except.bind,pure,Except.pure],kept,fun held => ?_⟩
  rw [content,members,List.mem_append,List.mem_singleton]
  rw [not_or,and_assoc]

theorem Valid.differenceUpdate_spec {s : Inner α} (valid : s.Valid) (other : Iterable α)
    (fits : other.Fits s) (honest : other.Honest s) :
    ∃ final, s.differenceUpdate other = .ok final ∧ final.Valid ∧
      ∀ elem, elem ∈ final.elems ↔ elem ∈ s.elems ∧ elem ∉ other.content := by
  have removing : ∃ final, (do
        let s ← (← other.elems).foldlM (fun s elem => do return (← discard s elem).2) s
        if (s.fill - s.used) * 5 ≥ s.mask then s.grow else return s) = .ok final ∧ final.Valid ∧
      ∀ elem, elem ∈ final.elems ↔ elem ∈ s.elems ∧ elem ∉ other.content := by
    obtain ⟨t,run,good,members⟩ := valid.discard_all other.content
    simp only [other.elems_spec s fits,ok_bind,run]
    split
    · obtain ⟨final,grown,kept,same⟩ := good.grow_spec
      exact ⟨final,grown,kept,fun elem => (same elem).trans (members elem)⟩
    · exact ⟨t,rfl,good,members⟩
  cases other with
  | list elems => exact removing
  | pySet elems distinct => exact removing
  | compatSet inner isSelf =>
    cases isSelf with
    | false => exact removing
    | true =>
      refine ⟨new,rfl,new_valid,fun elem => ?_⟩
      rw [honest rfl,Iterable.content,new_elems]
      simp

/-- A loop that puts the elements it keeps into a new table. -/
theorem select_into_new (body : Inner α → α → Except Raised (Inner α)) (kept : α → Prop)
    [DecidablePred kept]
    (acts : ∀ res elem, body res elem = if kept elem then res.addEntry (.fromElem elem) else .ok res)
    (items : List α) :
    ∃ final, items.foldlM body new = .ok final ∧ final.Valid ∧
      ∀ elem, elem ∈ final.elems ↔ elem ∈ items ∧ kept elem := by
  refine foldlM_invariant body (fun before (t : Inner α) => t.Valid ∧
    ∀ elem, elem ∈ t.elems ↔ elem ∈ before ∧ kept elem) items new
    ⟨new_valid,by simp [new_elems]⟩ ?_
  intro before elem after t _ ⟨good,members⟩
  by_cases inside : kept elem
  · obtain ⟨final,run,valid,content⟩ := good.addEntry_spec elem
    refine ⟨final,by rw [acts,if_pos inside,run],valid,fun held => ?_⟩
    rw [content,members,List.mem_append,List.mem_singleton]
    constructor
    · intro either
      rcases either with same | both
      · exact ⟨.inr same,same ▸ inside⟩
      · exact ⟨.inl both.1,both.2⟩
    · intro both
      rcases both.1 with old | same
      · exact .inr ⟨old,both.2⟩
      · exact .inl same
  · refine ⟨t,by rw [acts,if_neg inside],good,fun held => ?_⟩
    rw [members,List.mem_append,List.mem_singleton]
    constructor
    · intro both
      exact ⟨.inl both.1,both.2⟩
    · intro both
      refine ⟨both.1.resolve_right ?_,both.2⟩
      intro same
      exact inside (same ▸ both.2)

private theorem Valid.filter_into_new {s : Inner α} (valid : s.Valid)
    (excluded : Entry α → Except Raised Bool) (gone : α → Prop) [DecidablePred gone]
    (decides : ∀ elem, excluded (.fromElem elem) = .ok (decide (gone elem))) :
    ∃ final, (do
        (← s.entries).foldlM (fun (res : Inner α) entry => do
          if ← excluded entry then return res else res.addEntry entry) new) = .ok final ∧
      final.Valid ∧ ∀ elem, elem ∈ final.elems ↔ elem ∈ s.elems ∧ ¬gone elem := by
  simp only [valid.entries_spec,valid.keys_eq,bind,Except.bind,List.foldlM_map]
  refine select_into_new _ (fun elem => ¬gone elem) ?_ s.elems
  intro res elem
  rw [decides]
  by_cases out : gone elem <;> simp [out,pure,Except.pure]

theorem Valid.difference_spec {s : Inner α} (valid : s.Valid) (other : Iterable α)
    (fits : other.Fits s) :
    ∃ final, s.difference other = .ok final ∧ final.Valid ∧
      ∀ elem, elem ∈ final.elems ↔ elem ∈ s.elems ∧ elem ∉ other.content := by
  have copying : ∃ final, (do (← s.copy).differenceUpdate other.toFresh) = .ok final ∧
      final.Valid ∧ ∀ elem, elem ∈ final.elems ↔ elem ∈ s.elems ∧ elem ∉ other.content := by
    obtain ⟨t,run,good,same⟩ := valid.copy_spec
    obtain ⟨final,removed,kept,members⟩ := good.differenceUpdate_spec other.toFresh
      (Iterable.toFresh_fits s t other fits) (Iterable.toFresh_honest t other)
    refine ⟨final,by simpa only [run,bind,Except.bind] using removed,kept,fun elem => ?_⟩
    rw [members,same,other.toFresh_content]
  unfold difference
  cases other with
  | list elems => exact copying
  | pySet elems distinct =>
    dsimp only
    split
    · obtain ⟨final,run,kept,members⟩ := valid.filter_into_new
        (fun entry => .ok (decide (entry.elem ∈ elems))) (· ∈ elems) (fun elem => rfl)
      refine ⟨final,?_,kept,members⟩
      rw [← run]
      congr 1
      funext entries
      congr 1
      funext res entry
      by_cases member : entry.elem ∈ elems <;> simp [member,bind,Except.bind]
    · exact copying
  | compatSet inner isSelf =>
    dsimp only
    split
    · exact valid.filter_into_new inner.containsEntry (· ∈ inner.elems)
        (fun elem => fits.1.containsEntry_spec elem)
    · exact copying

private theorem Valid.symmetricDifferenceUpdate_spec {s : Inner α} (valid : s.Valid) (other : Iterable α)
    (fits : other.Fits s) (honest : other.Honest s) (distinct : other.content.Nodup) :
    ∃ final, s.symmetricDifferenceUpdate other = .ok final ∧ final.Valid ∧
      ∀ elem, elem ∈ final.elems ↔ ¬(elem ∈ s.elems ↔ elem ∈ other.content) := by
  have toggling : ∃ final, (do
        (← other.elems).foldlM (fun (s : Inner α) elem => do
          let result ← s.discardEntry (.fromElem elem)
          if result.1 then return result.2 else result.2.addEntry (.fromElem elem)) s) = .ok final ∧
      final.Valid ∧ ∀ elem, elem ∈ final.elems ↔ ¬(elem ∈ s.elems ↔ elem ∈ other.content) := by
    simp only [other.elems_spec s fits,bind,Except.bind]
    refine foldlM_invariant _ (fun before (t : Inner α) => t.Valid ∧
      ∀ elem, elem ∈ t.elems ↔ ¬(elem ∈ s.elems ↔ elem ∈ before)) other.content s
      ⟨valid,by simp⟩ ?_
    intro before elem after t shape holds
    obtain ⟨good,members⟩ := holds
    rw [shape] at distinct
    have once : elem ∉ before := fun inside =>
      (List.nodup_append.mp distinct).2.2 elem inside elem (by simp) rfl
    obtain ⟨u,gone,light,content⟩ := good.discard_spec elem
    simp only [discard] at gone
    simp only [gone]
    by_cases present : elem ∈ t.elems
    · refine ⟨u,by simp [present,pure,Except.pure],light,fun held => ?_⟩
      rw [content,members,List.mem_append,List.mem_singleton]
      rw [members] at present
      by_cases same : held = elem
      · subst held
        tauto
      · tauto
    · obtain ⟨final,run,kept,grown⟩ := light.addEntry_spec elem
      refine ⟨final,by simpa [present] using run,kept,fun held => ?_⟩
      rw [grown,content,members,List.mem_append,List.mem_singleton]
      rw [members] at present
      by_cases same : held = elem
      · subst held
        tauto
      · tauto
  cases other with
  | list elems => exact toggling
  | pySet elems unique => exact toggling
  | compatSet inner isSelf =>
    cases isSelf with
    | false => exact toggling
    | true =>
      refine ⟨new,rfl,new_valid,fun elem => ?_⟩
      rw [honest rfl,Iterable.content,new_elems]
      simp

end Inner

section Public
variable [DecidableEq α] [PyHash α] [NonnegHash α]

theorem init_spec (elems : List α) :
    ∃ final, init elems = .ok final ∧ final.Valid ∧ ∀ elem, elem ∈ final.elems ↔ elem ∈ elems := by
  obtain ⟨final,run,kept,members⟩ := Inner.new_valid.update_spec (.list elems) trivial
  exact ⟨final,run,kept,fun elem => (members elem).trans (by simp [Iterable.content,Inner.new_elems])⟩

/-- The set `CompatSet(elems)` makes. -/
def ofList (elems : List α) : Inner α := (init elems).toOption.getD Inner.new

private theorem init_ofList (elems : List α) : init elems = .ok (ofList elems) := by
  obtain ⟨final,run,_⟩ := init_spec elems
  rw [ofList,run]
  rfl

theorem ofList_valid (elems : List α) : (ofList elems).Valid := by
  obtain ⟨final,run,kept,_⟩ := init_spec elems
  obtain rfl := Except.ok.inj ((init_ofList elems).symm.trans run)
  exact kept

theorem remove_present {s : Inner α} (valid : s.Valid) (elem : α) (present : elem ∈ s.elems) :
    ∃ final, remove s elem = .ok final ∧ final.Valid ∧
      ∀ other, other ∈ final.elems ↔ other ∈ s.elems ∧ other ≠ elem := by
  obtain ⟨final,run,kept,members⟩ := valid.discard_spec elem
  refine ⟨final,?_,kept,members⟩
  simp [remove,run,present,bind,Except.bind,pure,Except.pure]

theorem remove_absent {s : Inner α} (valid : s.Valid) (elem : α) (absent : elem ∉ s.elems) :
    remove s elem = .error .keyError := by
  obtain ⟨final,run,_,_⟩ := valid.discard_spec elem
  simp [remove,run,absent,bind,Except.bind,throw_eq]

private theorem update_all {s : Inner α} (valid : s.Valid) (others : List (Iterable α))
    (fits : ∀ other ∈ others, other.Fits s) :
    ∃ final, others.foldlM Inner.update s = .ok final ∧ final.Valid ∧
      ∀ elem, elem ∈ final.elems ↔ (∃ other ∈ others, elem ∈ other.content) ∨ elem ∈ s.elems := by
  refine foldlM_invariant Inner.update (fun before (t : Inner α) => t.Valid ∧
    ∀ elem, elem ∈ t.elems ↔ (∃ other ∈ before, elem ∈ other.content) ∨ elem ∈ s.elems)
    others s ⟨valid,by simp⟩ ?_
  intro before other after t shape ⟨good,members⟩
  have fit : other.Fits t := (fits other (by simp [shape])).mono
    (fun elem member => (members elem).mpr (.inr member))
  obtain ⟨final,run,kept,content⟩ := good.update_spec other fit
  refine ⟨final,run,kept,fun elem => ?_⟩
  rw [content,members]
  simp only [List.mem_append,List.mem_singleton,or_and_right,exists_or,exists_eq_left]
  rw [or_assoc,or_left_comm]

theorem updateAll_spec {s : Inner α} (valid : s.Valid) (others : List (Iterable α))
    (fits : ∀ other ∈ others, other.Fits s) :
    ∃ final, updateAll s others = .ok final ∧ final.Valid ∧
      ∀ elem, elem ∈ final.elems ↔ (∃ other ∈ others, elem ∈ other.content) ∨ elem ∈ s.elems :=
  update_all valid others fits

theorem union_spec {s : Inner α} (valid : s.Valid) (others : List (Iterable α))
    (fits : ∀ other ∈ others, other.Fits s) :
    ∃ final, union s others = .ok final ∧ final.Valid ∧
      ∀ elem, elem ∈ final.elems ↔ (∃ other ∈ others, elem ∈ other.content) ∨ elem ∈ s.elems := by
  obtain ⟨t,run,good,same⟩ := valid.copy_spec
  obtain ⟨final,added,kept,members⟩ := update_all good (others.map Iterable.toFresh) (by
    intro other member
    obtain ⟨source,inside,rfl⟩ := List.mem_map.mp member
    exact Iterable.toFresh_fits s t source (fits source inside))
  refine ⟨final,?_,kept,fun elem => ?_⟩
  · rw [List.foldlM_map] at added
    simpa only [union,run,bind,Except.bind] using added
  · rw [members,same]
    simp only [List.mem_map,exists_exists_and_eq_and,Iterable.toFresh_content]

theorem difference_spec {s : Inner α} (valid : s.Valid) (others : List (Iterable α))
    (fits : ∀ other ∈ others, other.Fits s) :
    ∃ final, difference s others = .ok final ∧ final.Valid ∧
      ∀ elem, elem ∈ final.elems ↔ elem ∈ s.elems ∧ ∀ other ∈ others, elem ∉ other.content := by
  cases others with
  | nil =>
    obtain ⟨final,run,kept,same⟩ := valid.copy_spec
    exact ⟨final,run,kept,by simpa using same⟩
  | cons first rest =>
    obtain ⟨t,run,good,members⟩ := valid.difference_spec first (fits first (by simp))
    have chain : ∃ final, rest.foldlM (fun inner other => inner.differenceUpdate other.toFresh) t =
        .ok final ∧ final.Valid ∧
        ∀ elem, elem ∈ final.elems ↔ elem ∈ t.elems ∧ ∀ other ∈ rest, elem ∉ other.content := by
      refine foldlM_invariant _ (fun before (u : Inner α) => u.Valid ∧
        ∀ elem, elem ∈ u.elems ↔ elem ∈ t.elems ∧ ∀ other ∈ before, elem ∉ other.content)
        rest t ⟨good,by simp⟩ ?_
      intro before other after u shape ⟨light,content⟩
      obtain ⟨final,removed,kept,left⟩ := light.differenceUpdate_spec other.toFresh
        (Iterable.toFresh_fits s u other (fits other (by simp [shape])))
        (Iterable.toFresh_honest u other)
      refine ⟨final,removed,kept,fun elem => ?_⟩
      rw [left,content,other.toFresh_content,and_assoc]
      simp only [List.mem_append,List.mem_singleton,or_imp,forall_and,forall_eq]
    obtain ⟨final,removed,kept,content⟩ := chain
    refine ⟨final,by simpa only [difference,run,bind,Except.bind] using removed,kept,fun elem => ?_⟩
    rw [content,members,and_assoc]
    simp only [List.mem_cons,or_imp,forall_and,forall_eq]

theorem symmetricDifference_spec {s : Inner α} (valid : s.Valid) (other : Iterable α)
    (fits : other.Fits s) :
    ∃ final, symmetricDifference s other = .ok final ∧ final.Valid ∧
      ∀ elem, elem ∈ final.elems ↔ ¬(elem ∈ s.elems ↔ elem ∈ other.content) := by
  obtain ⟨t,run,good,members⟩ := Inner.new_valid.update_spec other.toFresh
    (Iterable.toFresh_fits s Inner.new other fits)
  have own : (Iterable.compatSet s false).Fits t := by
    refine ⟨valid,?_⟩
    intro impossible
    cases impossible
  obtain ⟨final,toggled,kept,content⟩ := good.symmetricDifferenceUpdate_spec
    (.compatSet s false) own (by intro impossible; cases impossible) valid.elems_nodup
  refine ⟨final,by simpa only [symmetricDifference,run,bind,Except.bind] using toggled,kept,
    fun elem => ?_⟩
  rw [content,members,other.toFresh_content,Inner.new_elems]
  simp only [Iterable.content,List.not_mem_nil,or_false]
  tauto

end Public
end IndyNode.CompatSet

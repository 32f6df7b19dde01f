import IndyNode.CompatSetProbe
import IndyNode.Foundation.Guarded

/-! The table invariant and one specification for each operation of the table
object. `elems` is the content in iteration order; every specification states
the content of the result and that the invariant is kept. -/
namespace IndyNode.CompatSet
open OpenAddressing

class NonnegHash (α : Type) [PyHash α] : Prop where
  nonneg : ∀ elem : α, 0 ≤ PyHash.hash elem

instance : NonnegHash Nat := ⟨hash_nat_nonneg⟩

namespace Inner
variable {α : Type}

def elems (s : Inner α) : List α := (keys s.table).map Entry.elem

theorem new_elems : (new : Inner α).elems = [] := rfl

variable [PyHash α]

@[simp] theorem fromElem_inj (first second : α) :
    Entry.fromElem first = Entry.fromElem second ↔ first = second := by
  constructor
  · intro same
    exact congrArg Entry.elem same
  · intro same
    rw [same]

/-- What holds of a table object between any two elementary updates. -/
structure Sound (s : Inner α) : Prop where
  size : ∃ k, 3 ≤ k ∧ s.mask + 1 = 2 ^ k
  length : s.table.length = s.mask + 1
  used : s.used = (keys s.table).length
  fill : s.fill = occupancy s.table
  placed : Placed (entryPath s.mask) s.table
  hashed : ∀ entry ∈ keys s.table, entry = .fromElem entry.elem
  room : s.fill ≤ s.mask

/-- What holds between any two method calls. -/
structure Valid (s : Inner α) : Prop extends Sound s where
  load : 3 * s.fill < 2 * (s.mask + 1)

theorem Sound.mem_elems {s : Inner α} (sound : s.Sound) (elem : α) :
    elem ∈ s.elems ↔ Entry.fromElem elem ∈ keys s.table := by
  simp only [elems,List.mem_map]
  constructor
  · intro ⟨entry,member,same⟩
    rw [← same,← sound.hashed entry member]
    exact member
  · intro member
    exact ⟨_,member,rfl⟩

theorem Sound.elems_nodup {s : Inner α} (sound : s.Sound) : s.elems.Nodup := by
  apply sound.placed.nodup_keys.map_on
  intro x hx y hy same
  rw [sound.hashed x hx,sound.hashed y hy,same]

theorem Sound.elems_length {s : Inner α} (sound : s.Sound) : s.elems.length = s.used := by
  rw [elems,List.length_map,sound.used]

theorem Sound.used_le_fill {s : Inner α} (sound : s.Sound) : s.used ≤ s.fill := by
  rw [sound.used,sound.fill]
  exact keys_length_le_occupancy s.table

theorem Sound.mask_ge {s : Inner α} (sound : s.Sound) : 7 ≤ s.mask := by
  obtain ⟨k,large,shape⟩ := sound.size
  have least : 2 ^ 3 ≤ 2 ^ k := Nat.pow_le_pow_right (by omega) large
  omega

theorem new_valid : (new : Inner α).Valid where
  size := ⟨3,le_refl _,rfl⟩
  length := rfl
  used := rfl
  fill := rfl
  placed := placed_empty _ _
  hashed := by simp [new,keys,minSize,List.replicate]
  room := by simp [new]
  load := by simp [new]

/-- The state after an absent element has been put into an empty slot. -/
def place (s : Inner α) (p : Nat) (entry : Entry α) : Inner α :=
  {s with table := s.table.set p (.live entry),fill := s.fill + 1,used := s.used + 1}

private theorem Sound.place {s : Inner α} (sound : s.Sound) (elem : α) (p : Nat)
    (before after : List Nat) (absent : elem ∉ s.elems) (room : s.fill + 1 ≤ s.mask)
    (empty : s.table[p]? = some .empty)
    (shape : entryPath s.mask (.fromElem elem) = before ++ p :: after)
    (blocked : ∀ j ∈ before, s.table[j]? ≠ some .empty) :
    (s.place p (.fromElem elem)).Sound ∧
      ∀ other, other ∈ (s.place p (.fromElem elem)).elems ↔ other = elem ∨ other ∈ s.elems := by
  have fresh : Entry.fromElem elem ∉ keys s.table := by rwa [← sound.mem_elems]
  have members (entry : Entry α) : entry ∈ keys (s.table.set p (.live (.fromElem elem))) ↔
      entry = .fromElem elem ∨ entry ∈ keys s.table :=
    mem_keys_fill s.table p .empty _ entry empty rfl
  have kept : (s.place p (.fromElem elem)).Sound := {
    size := sound.size
    length := by simpa [Inner.place] using sound.length
    used := by
      simp only [Inner.place]
      rw [keys_length_fill s.table p .empty _ empty rfl,sound.used]
    fill := by
      simp only [Inner.place]
      rw [occupancy_fill s.table p _ empty,sound.fill]
    placed := sound.placed.fill p .empty _ before after empty fresh shape blocked
    hashed := by
      intro entry member
      rcases (members entry).mp member with same | old
      · rw [same]
        rfl
      · exact sound.hashed entry old
    room := room}
  refine ⟨kept,fun other => ?_⟩
  rw [kept.mem_elems,sound.mem_elems,Inner.place,members,fromElem_inj]

section Path

theorem Sound.path_inside {s : Inner α} (sound : s.Sound) (elem : α) (j : Nat)
    (member : j ∈ entryPath s.mask (.fromElem elem)) : j < s.table.length := by
  rw [sound.length]
  exact Nat.lt_succ_of_le (entryPath_le s.mask j _ member)

private theorem Sound.has_empty {s : Inner α} (sound : s.Sound) (elem : α)
    (nonneg : 0 ≤ PyHash.hash elem) :
    ∃ p ∈ entryPath s.mask (.fromElem elem), s.table[p]? = some .empty := by
  have room : occupancy s.table < s.table.length := by
    have bound := sound.room
    rw [sound.fill] at bound
    rw [sound.length]
    omega
  obtain ⟨p,bound,empty⟩ := exists_empty s.table room
  obtain ⟨k,_,shape⟩ := sound.size
  have mask : s.mask = 2 ^ k - 1 := by omega
  rw [sound.length,shape] at bound
  refine ⟨p,?_,empty⟩
  rw [mask]
  exact entryPath_covers k p _ nonneg bound

end Path

section Settling
variable [DecidableEq α]

/-- Some slot on the path of the element is empty or holds the element. -/
def settles (s : Inner α) (elem : α) : Bool :=
  (locate s.table (entryPath s.mask (.fromElem elem)) (.fromElem elem)).isSome

theorem Sound.lookEntry_eq {s : Inner α} (sound : s.Sound) (elem : α) :
    s.lookEntry (.fromElem elem) =
      ended (locate s.table (entryPath s.mask (.fromElem elem)) (.fromElem elem)) := by
  unfold lookEntry
  simp only [sound.room,not_true_eq_false,if_false]
  exact lookLoop_eq _ _ _ _ _ _ none (sound.path_inside elem)

theorem Sound.lookEntry_live {s : Inner α} (sound : s.Sound) (elem : α) (present : elem ∈ s.elems) :
    ∃ p, s.lookEntry (.fromElem elem) = .ok p ∧
      s.table[p]? = some (.live (.fromElem elem)) := by
  obtain ⟨p,found⟩ := (mem_keys _ _).mp ((sound.mem_elems elem).mp present)
  refine ⟨p,?_,found⟩
  rw [sound.lookEntry_eq,sound.placed.locate_live p _ found,ended]

private theorem settles_iff (s : Inner α) (elem : α) : s.settles elem = true ↔
    ∃ p ∈ entryPath s.mask (.fromElem elem),
      s.table[p]? = some .empty ∨ s.table[p]? = some (.live (.fromElem elem)) := by
  simp only [settles,locate,List.find?_isSome,stops_iff]

private theorem Sound.settles_nonneg {s : Inner α} (sound : s.Sound) (elem : α)
    (nonneg : 0 ≤ PyHash.hash elem) : s.settles elem = true := by
  obtain ⟨p,member,empty⟩ := sound.has_empty elem nonneg
  exact (s.settles_iff elem).mpr ⟨p,member,.inl empty⟩

/-- What the probe loop does without a bound on its rounds: it ends exactly for
the elements that settle. -/
theorem Sound.lookLoop_ends_iff {s : Inner α} (sound : s.Sound) (elem : α) :
    (∃ rounds index, lookLoop s.table s.mask (.fromElem elem) rounds
      (pyAnd (PyHash.hash elem) s.mask) (PyHash.hash elem) none = .ok index) ↔
    s.settles elem = true := by
  constructor
  · rintro ⟨rounds,index,ends⟩
    have inside (j : Nat) (member : j ∈ probePath s.mask rounds (pyAnd (PyHash.hash elem) s.mask)
        (PyHash.hash elem)) : j ∈ entryPath s.mask (.fromElem elem) :=
      entryPath_exhausts s.mask rounds j (.fromElem elem) member
    rw [lookLoop_eq _ _ _ _ _ _ _ (fun j member => sound.path_inside elem j (inside j member))] at ends
    cases found : locate s.table (probePath s.mask rounds (pyAnd (PyHash.hash elem) s.mask)
      (PyHash.hash elem)) (.fromElem elem) with
    | none => simp [found,ended] at ends
    | some p =>
      have stopped := List.find?_some found
      exact (s.settles_iff elem).mpr ⟨p,inside p (List.mem_of_find?_eq_some found),
        (stops_iff _ _ _).mp stopped⟩
  · intro settled
    obtain ⟨p,located⟩ := Option.isSome_iff_exists.mp settled
    have looped := lookLoop_eq s.table s.mask (.fromElem elem) (probeRounds s.mask (PyHash.hash elem))
      (pyAnd (PyHash.hash elem) s.mask) (PyHash.hash elem) none (sound.path_inside elem)
    refine ⟨_,p,looped.trans ?_⟩
    change ended (locate s.table (entryPath s.mask (.fromElem elem)) _) = _
    rw [located,ended]

/-- The loop of `insert_entry_clean` takes the same rounds for an absent element. -/
theorem Sound.cleanLoop_ends_iff {s : Inner α} (sound : s.Sound) (elem : α)
    (absent : elem ∉ s.elems) :
    (∃ rounds index, cleanLoop s.table s.mask rounds
      (pyAnd (PyHash.hash elem) s.mask) (PyHash.hash elem) = .ok index) ↔
    s.settles elem = true := by
  rw [← sound.lookLoop_ends_iff elem]
  apply exists_congr
  intro rounds
  have fresh : Entry.fromElem elem ∉ keys s.table := by rwa [← sound.mem_elems]
  have inside (j : Nat) (member : j ∈ probePath s.mask rounds (pyAnd (PyHash.hash elem) s.mask)
      (PyHash.hash elem)) : j < s.table.length :=
    sound.path_inside elem j (entryPath_exhausts s.mask rounds j (.fromElem elem) member)
  rw [cleanLoop_eq _ _ (.fromElem elem) _ _ _ fresh inside,lookLoop_eq _ _ _ _ _ _ _ inside]

/-- A search that does not settle never ends. -/
theorem Sound.lookEntry_diverges {s : Inner α} (sound : s.Sound) (elem : α)
    (stuck : s.settles elem = false) : s.lookEntry (.fromElem elem) = .error .diverges := by
  rw [settles,Option.isSome_eq_false_iff,Option.isNone_iff_eq_none] at stuck
  rw [sound.lookEntry_eq,stuck,ended]

private theorem Sound.lookEntry_vacant {s : Inner α} (sound : s.Sound) (elem : α)
    (absent : elem ∉ s.elems) (settled : s.settles elem = true) :
    ∃ p before after, s.lookEntry (.fromElem elem) = .ok p ∧ s.table[p]? = some .empty ∧
      entryPath s.mask (.fromElem elem) = before ++ p :: after ∧
      ∀ j ∈ before, s.table[j]? ≠ some .empty := by
  rw [sound.mem_elems] at absent
  obtain ⟨q,member,stop⟩ := (s.settles_iff elem).mp settled
  have free : s.table[q]? = some .empty :=
    stop.resolve_right (fun held => absent ((mem_keys _ _).mpr ⟨q,held⟩))
  obtain ⟨p,before,after,located,empty,shape,blocked⟩ :=
    locate_absent s.table _ _ absent ⟨q,member,free⟩
  refine ⟨p,before,after,?_,empty,shape,blocked⟩
  rw [sound.lookEntry_eq,located,ended]

end Settling

section Lookup
variable [DecidableEq α]

theorem Sound.lookEntry_absent [NonnegHash α] {s : Inner α} (sound : s.Sound) (elem : α)
    (absent : elem ∉ s.elems) :
    ∃ p before after, s.lookEntry (.fromElem elem) = .ok p ∧ s.table[p]? = some .empty ∧
      entryPath s.mask (.fromElem elem) = before ++ p :: after ∧
      ∀ j ∈ before, s.table[j]? ≠ some .empty :=
  sound.lookEntry_vacant elem absent (sound.settles_nonneg elem (NonnegHash.nonneg elem))

/-- `look_entry` always ends: at the element, or at an empty slot. -/
theorem Sound.containsEntry_spec [NonnegHash α] {s : Inner α} (sound : s.Sound) (elem : α) :
    s.containsEntry (.fromElem elem) = .ok (decide (elem ∈ s.elems)) := by
  unfold containsEntry slotAt
  by_cases present : elem ∈ s.elems
  · obtain ⟨p,look,found⟩ := sound.lookEntry_live elem present
    simp [look,found,bind,Except.bind,pure,Except.pure,present]
  · obtain ⟨p,_,_,look,found,_,_⟩ := sound.lookEntry_absent elem present
    simp [look,found,bind,Except.bind,pure,Except.pure,present]

theorem Sound.contains_spec [NonnegHash α] {s : Inner α} (sound : s.Sound) (elem : α) :
    s.contains elem = .ok (decide (elem ∈ s.elems)) :=
  sound.containsEntry_spec elem

theorem Sound.insert_present {s : Inner α} (sound : s.Sound) (elem : α) (present : elem ∈ s.elems) :
    s.insertEntry (.fromElem elem) = .ok (false,s) := by
  obtain ⟨p,look,found⟩ := sound.lookEntry_live elem present
  simp [insertEntry,slotAt,look,found,bind,Except.bind,pure,Except.pure]

private theorem Sound.insert_vacant {s : Inner α} (sound : s.Sound) (elem : α)
    (absent : elem ∉ s.elems) (settled : s.settles elem = true) (room : s.fill + 1 ≤ s.mask) :
    ∃ p, s.insertEntry (.fromElem elem) = .ok (true,s.place p (.fromElem elem)) ∧
      s.insertEntryClean (.fromElem elem) = .ok (s.place p (.fromElem elem)) ∧
      (s.place p (.fromElem elem)).Sound ∧
      ∀ other, other ∈ (s.place p (.fromElem elem)).elems ↔ other = elem ∨ other ∈ s.elems := by
  obtain ⟨p,before,after,look,empty,shape,blocked⟩ := sound.lookEntry_vacant elem absent settled
  refine ⟨p,?_,?_,sound.place elem p before after absent room empty shape blocked⟩
  · simp [insertEntry,slotAt,look,empty,bind,Except.bind,pure,Except.pure,Inner.place]
  · have fresh : Entry.fromElem elem ∉ keys s.table := by rwa [← sound.mem_elems]
    have loop := cleanLoop_eq s.table s.mask (.fromElem elem) (probeRounds s.mask _) _ _ fresh
      (sound.path_inside elem)
    rw [sound.lookEntry_eq] at look
    unfold entryPath at look
    rw [look] at loop
    simp [insertEntryClean,loop,bind,Except.bind,pure,Except.pure,Inner.place]

theorem Sound.insert_absent [NonnegHash α] {s : Inner α} (sound : s.Sound) (elem : α)
    (absent : elem ∉ s.elems) (room : s.fill + 1 ≤ s.mask) :
    ∃ p, s.insertEntry (.fromElem elem) = .ok (true,s.place p (.fromElem elem)) ∧
      s.insertEntryClean (.fromElem elem) = .ok (s.place p (.fromElem elem)) ∧
      (s.place p (.fromElem elem)).Sound ∧
      ∀ other, other ∈ (s.place p (.fromElem elem)).elems ↔ other = elem ∨ other ∈ s.elems :=
  sound.insert_vacant elem absent (sound.settles_nonneg elem (NonnegHash.nonneg elem)) room

theorem Sound.insertClean_guarded {s : Inner α} (sound : s.Sound) (elem : α)
    (absent : elem ∉ s.elems) (room : s.fill + 1 ≤ s.mask) :
    Guarded .diverges (s.settles elem) (0 ≤ PyHash.hash elem)
      (s.insertEntryClean (.fromElem elem))
      (fun t => ∃ p, t = s.place p (.fromElem elem) ∧ t.Sound ∧
        ∀ other, other ∈ t.elems ↔ other = elem ∨ other ∈ s.elems) where
  returns := by
    intro settled
    obtain ⟨p,_,clean,good,members⟩ := sound.insert_vacant elem absent settled room
    exact ⟨_,clean,p,rfl,good,members⟩
  sticks := by
    intro stuck
    have fresh : Entry.fromElem elem ∉ keys s.table := by rwa [← sound.mem_elems]
    have loop := cleanLoop_eq s.table s.mask (.fromElem elem) (probeRounds s.mask _) _ _ fresh
      (sound.path_inside elem)
    have look := sound.lookEntry_diverges elem stuck
    rw [sound.lookEntry_eq] at look
    unfold entryPath at look
    rw [look] at loop
    simp [insertEntryClean,loop,bind,Except.bind]
  sure := sound.settles_nonneg elem

theorem Sound.insert_guarded {s : Inner α} (sound : s.Sound) (elem : α)
    (room : s.fill + 1 ≤ s.mask) :
    Guarded .diverges (s.settles elem) (0 ≤ PyHash.hash elem) (s.insertEntry (.fromElem elem))
      (fun result => (elem ∈ s.elems ∧ result = (false,s)) ∨
        ∃ p, result = (true,s.place p (.fromElem elem)) ∧ (s.place p (.fromElem elem)).Sound ∧
          ∀ other, other ∈ (s.place p (.fromElem elem)).elems ↔ other = elem ∨ other ∈ s.elems) where
  returns := by
    intro settled
    by_cases present : elem ∈ s.elems
    · exact ⟨_,sound.insert_present elem present,.inl ⟨present,rfl⟩⟩
    · obtain ⟨p,insert,_,good,members⟩ := sound.insert_vacant elem present settled room
      exact ⟨_,insert,.inr ⟨p,rfl,good,members⟩⟩
  sticks := by
    intro stuck
    simp [insertEntry,sound.lookEntry_diverges elem stuck]
  sure := sound.settles_nonneg elem

theorem Sound.discard_guarded {s : Inner α} (sound : s.Sound) (elem : α) :
    Guarded .diverges (s.settles elem) (0 ≤ PyHash.hash elem) (s.discard elem)
      (fun result => result.1 = decide (elem ∈ s.elems) ∧ result.2.Sound ∧
        result.2.fill = s.fill ∧ result.2.mask = s.mask ∧
        ∀ other, other ∈ result.2.elems ↔ other ∈ s.elems ∧ other ≠ elem) where
  returns := by
    intro settled
    unfold discard discardEntry slotAt
    by_cases present : elem ∈ s.elems
    · obtain ⟨p,look,found⟩ := sound.lookEntry_live elem present
      let next : Inner α := {s with table := s.table.set p .removed,used := s.used - 1}
      have members (entry : Entry α) : entry ∈ keys next.table ↔
          entry ∈ keys s.table ∧ entry ≠ .fromElem elem :=
        sound.placed.mem_keys_remove p _ entry found
      have kept : next.Sound := {
        size := sound.size
        length := by simpa [next] using sound.length
        used := by
          have shorter := keys_length_remove s.table p _ found
          have before := sound.used
          simp only [next]
          omega
        fill := by
          simp only [next]
          rw [occupancy_replace s.table p _ .removed found rfl,sound.fill]
        placed := sound.placed.remove p _ found
        hashed := fun entry member => sound.hashed entry ((members entry).mp member).1
        room := sound.room}
      refine ⟨(true,next),?_,by simp [present],kept,rfl,rfl,fun other => ?_⟩
      · simp [look,found,bind,Except.bind,pure,Except.pure,next]
      · rw [kept.mem_elems,sound.mem_elems,members,ne_eq,fromElem_inj]
    · obtain ⟨p,_,_,look,found,_,_⟩ := sound.lookEntry_vacant elem present settled
      refine ⟨(false,s),?_,by simp [present],sound,rfl,rfl,fun other => ?_⟩
      · simp [look,found,bind,Except.bind,pure,Except.pure]
      · constructor
        · intro member
          refine ⟨member,?_⟩
          intro same
          exact present (same ▸ member)
        · intro both
          exact both.1
  sticks := by
    intro stuck
    simp [discard,discardEntry,sound.lookEntry_diverges elem stuck]
  sure := sound.settles_nonneg elem

theorem Sound.discard_spec [NonnegHash α] {s : Inner α} (sound : s.Sound) (elem : α) :
    ∃ next, s.discard elem = .ok (decide (elem ∈ s.elems),next) ∧ next.Sound ∧
      next.fill = s.fill ∧ next.mask = s.mask ∧
      ∀ other, other ∈ next.elems ↔ other ∈ s.elems ∧ other ≠ elem := by
  obtain ⟨⟨discarded,next⟩,run,rfl,good⟩ := (sound.discard_guarded elem).total (NonnegHash.nonneg elem)
  exact ⟨next,run,good⟩

end Lookup
end Inner
end IndyNode.CompatSet

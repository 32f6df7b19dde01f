import IndyNode.CompatSetInvariant

/-! Every method of the set returns, keeps the table invariant and computes the
content it names. Loops over entries are handled by one invariant rule. -/
namespace IndyNode.CompatSet
open OpenAddressing

namespace Inner
variable {α : Type}

theorem insertAll_eq (insert : Inner α → Entry α → Except Raised (Inner α)) (s : Inner α)
    (table : List (Slot α)) : insertAll insert s table = (keys table).foldlM insert s := by
  induction table generalizing s with
  | nil => rfl
  | cons slot table ih =>
    cases slot with
    | empty => exact ih s
    | removed => exact ih s
    | live entry =>
      change (insert s entry >>= fun next => insertAll insert next table) =
        (entry :: keys table).foldlM insert s
      rw [List.foldlM_cons]
      congr 1
      funext next
      exact ih next

theorem newSizeLoop_spec (minUsed rounds k : Nat) (enough : minUsed < 2 ^ k * 2 ^ rounds) :
    ∃ l, k ≤ l ∧ newSizeLoop minUsed (rounds+1) (2 ^ k) = .ok (2 ^ l) ∧ minUsed < 2 ^ l := by
  induction rounds generalizing k with
  | zero =>
    have fits : ¬2 ^ k ≤ minUsed := by simpa using enough
    exact ⟨k,le_refl k,by simp [newSizeLoop,fits],by omega⟩
  | succ rounds ih =>
    by_cases small : 2 ^ k ≤ minUsed
    · obtain ⟨l,later,loop,bound⟩ := ih (k+1) (by rwa [pow_succ,mul_assoc,← pow_succ'])
      refine ⟨l,by omega,?_,bound⟩
      rw [newSizeLoop,if_pos small,← pow_succ]
      exact loop
    · exact ⟨k,le_refl k,by simp [newSizeLoop,small],by omega⟩

private theorem nextLoop_spec (s : Inner α) (length : s.table.length = s.mask + 1) (rounds pos : Nat)
    (start : pos ≤ s.mask + 1) (enough : s.mask + 1 < rounds + pos) :
    (∃ entry later, s.nextLoop rounds pos = .ok (later,some entry) ∧ pos < later ∧
        later ≤ s.mask + 1 ∧ keys (s.table.drop pos) = entry :: keys (s.table.drop later)) ∨
      (∃ later, s.nextLoop rounds pos = .ok (later,none)) ∧ keys (s.table.drop pos) = [] := by
  induction rounds generalizing pos with
  | zero => omega
  | succ rounds ih =>
    by_cases past : pos > s.mask
    · refine .inr ⟨⟨pos,by simp [nextLoop,past]⟩,?_⟩
      have outside : s.table.drop pos = [] := List.drop_eq_nil_of_le (by omega)
      rw [outside]
      rfl
    · have bound : pos < s.table.length := by omega
      have unfolded : s.table.drop pos = s.table[pos] :: s.table.drop (pos+1) :=
        List.drop_eq_getElem_cons bound
      simp only [nextLoop,past,if_false,List.getElem?_eq_getElem bound]
      rw [unfolded]
      cases s.table[pos] with
      | live entry => exact .inl ⟨entry,pos+1,rfl,by omega,by omega,rfl⟩
      | empty =>
        rcases ih (pos+1) (by omega) (by omega) with ⟨entry,later,loop,after,inside,rest⟩ | ⟨loop,rest⟩
        · exact .inl ⟨entry,later,loop,by omega,inside,rest⟩
        · exact .inr ⟨loop,rest⟩
      | removed =>
        rcases ih (pos+1) (by omega) (by omega) with ⟨entry,later,loop,after,inside,rest⟩ | ⟨loop,rest⟩
        · exact .inl ⟨entry,later,loop,by omega,inside,rest⟩
        · exact .inr ⟨loop,rest⟩

private theorem entriesLoop_spec (s : Inner α) (length : s.table.length = s.mask + 1)
    (rounds pos : Nat) (start : pos ≤ s.mask + 1) (enough : s.mask + 1 < rounds + pos) :
    s.entriesLoop rounds pos = .ok (keys (s.table.drop pos)) := by
  induction rounds generalizing pos with
  | zero => omega
  | succ rounds ih =>
    rcases nextLoop_spec s length (s.mask + 2) pos start (by omega) with
      ⟨entry,later,loop,after,inside,rest⟩ | ⟨⟨later,loop⟩,rest⟩
    · simp only [entriesLoop,next,loop,bind,Except.bind,pure,Except.pure,rest]
      rw [ih later inside (by omega)]
    · simp only [entriesLoop,next,loop,bind,Except.bind,pure,Except.pure,rest]

theorem merge_self [DecidableEq α] (s other : Inner α) : s.merge other true = .ok s := by
  simp [merge,pure,Except.pure]

variable [PyHash α]

theorem Sound.keys_eq {s : Inner α} (sound : s.Sound) : keys s.table = s.elems.map Entry.fromElem := by
  rw [elems,List.map_map]
  conv_lhs => rw [← List.map_id (keys s.table)]
  apply List.map_congr_left
  intro entry member
  exact sound.hashed entry member

theorem Sound.entries_spec {s : Inner α} (sound : s.Sound) : s.entries = .ok (keys s.table) := by
  simpa [entries] using entriesLoop_spec s sound.length (s.mask + 2) 0 (by omega) (by omega)

/-- Iteration lists the content. -/
theorem Sound.iterate_spec {s : Inner α} (sound : s.Sound) : s.iterate = .ok s.elems := by
  simp [iterate,sound.entries_spec,bind,Except.bind,pure,Except.pure,elems]

private theorem fresh_sound (k : Nat) (large : 3 ≤ k) (search : Nat) :
    (⟨0,2 ^ k - 1,search,List.replicate (2 ^ k) .empty,0⟩ : Inner α).Sound := by
  have positive : 0 < 2 ^ k := by positivity
  have none_live : keys (List.replicate (2 ^ k) (.empty : Slot α)) = [] := by
    simp [keys,List.filterMap_replicate]
  exact {
    size := ⟨k,large,by simp only; omega⟩
    length := by simp only [List.length_replicate]; omega
    used := by simp [none_live]
    fill := by simp [occupancy,List.countP_replicate]
    placed := placed_empty _ _
    hashed := by simp [none_live]
    room := by simp }

theorem Valid.insert_room {s : Inner α} (valid : s.Valid) : s.fill + 1 ≤ s.mask := by
  have load := valid.load
  have large := valid.mask_ge
  omega

private theorem block_copy {s other : Inner α} (valid : other.Valid) (mask : s.mask = other.mask) :
    ({s with table := other.table,fill := other.fill,used := other.used} : Inner α).Valid where
  size := by rw [mask]; exact valid.size
  length := by rw [mask]; exact valid.length
  used := valid.used
  fill := valid.fill
  placed := by rw [mask]; exact valid.placed
  hashed := valid.hashed
  room := by rw [mask]; exact valid.room
  load := by rw [mask]; exact valid.load

private theorem Sound.elems_of_fill_zero {s : Inner α} (sound : s.Sound) (zero : s.fill = 0) :
    s.elems = [] := by
  have none_used := sound.used_le_fill
  rw [← List.length_eq_zero_iff,sound.elems_length]
  omega

/-- Every element has a non-negative hash. -/
def Plain (elems : List α) : Prop := ∀ elem ∈ elems, 0 ≤ PyHash.hash elem

theorem plain_of_nonneg [NonnegHash α] (elems : List α) : Plain elems :=
  fun elem _ => NonnegHash.nonneg elem

variable [DecidableEq α]

/-! The checks follow the operations: each search is checked in the table in
which it is made. -/

def settledClean (s : Inner α) (added : List α) : Bool :=
  permitted (fun s elem => insertEntryClean s (.fromElem elem)) settles added s

def settledInserts (s : Inner α) (added : List α) : Bool :=
  permitted (fun s elem => do return (← insertEntry s (.fromElem elem)).2) settles added s

def settledResize (s : Inner α) (minUsed : Nat) : Bool :=
  checked true (newSizeLoop minUsed (minUsed + 1) minSize) (fun newSize =>
    settledClean {s with
      table := List.replicate newSize .empty,fill := 0,mask := newSize - 1,used := 0} s.elems)

def settledGrow (s : Inner α) : Bool :=
  s.settledResize (if s.used > 50000 then s.used * 2 else s.used * 4)

def settledAdd (s : Inner α) (elem : α) : Bool :=
  checked (s.settles elem) (s.insertEntry (.fromElem elem)) (fun result =>
    if result.1 ∧ result.2.fill * 3 ≥ (result.2.mask + 1) * 2 then result.2.settledGrow else true)

def settledMerge (s other : Inner α) : Bool :=
  if other.used = 0 then true else
    checked (if (s.fill + other.used) * 3 ≥ (s.mask + 1) * 2
        then s.settledResize ((s.used + other.used) * 2) else true)
      (if (s.fill + other.used) * 3 ≥ (s.mask + 1) * 2
        then s.resize ((s.used + other.used) * 2) else pure s)
      (fun t => if t.fill = 0 ∧ t.mask = other.mask ∧ other.fill = other.used then true
        else if t.fill = 0 then t.settledClean other.elems else t.settledInserts other.elems)

def settledCopy (s : Inner α) : Bool := settledMerge new s

section Guards

/-- Elements known to be new can be inserted one after the other, by either
insertion, as long as one slot stays empty. -/
theorem Sound.insertCleans_guarded {s : Inner α} (sound : s.Sound) (added : List α)
    (distinct : added.Nodup) (fresh : ∀ elem ∈ added, elem ∉ s.elems)
    (room : s.fill + added.length ≤ s.mask) :
    Guarded .diverges (s.settledClean added) (Plain added)
      ((added.map Entry.fromElem).foldlM insertEntryClean s)
      (fun final => final.Sound ∧ final.fill = s.fill + added.length ∧
        final.used = s.used + added.length ∧ final.mask = s.mask ∧
        ∀ elem, elem ∈ final.elems ↔ elem ∈ added ∨ elem ∈ s.elems) := by
  rw [List.foldlM_map]
  refine Guarded.foldlM (fun s elem => insertEntryClean s (.fromElem elem)) settles
    (fun before (t : Inner α) => t.Sound ∧ t.fill = s.fill + before.length ∧
      t.used = s.used + before.length ∧ t.mask = s.mask ∧
      ∀ elem, elem ∈ t.elems ↔ elem ∈ before ∨ elem ∈ s.elems)
    added s ⟨sound,by simp,by simp,rfl,by simp⟩ ?_
  rintro before elem after t shape ⟨good,fill,used,mask,members⟩
  have absent : elem ∉ t.elems := by
    rw [members]
    rw [shape] at distinct fresh
    have apart := (List.nodup_append.mp distinct).2.2
    intro present
    rcases present with inside | old
    · exact apart elem inside elem (by simp) rfl
    · exact fresh elem (by simp) old
  have space : t.fill + 1 ≤ t.mask := by
    rw [shape,List.length_append,List.length_cons] at room
    omega
  refine (good.insertClean_guarded elem absent space).imp ?_ (fun plain => plain elem (by simp [shape]))
  rintro _ ⟨p,rfl,next,content⟩
  refine ⟨next,?_,?_,mask,fun other => ?_⟩
  · simp only [Inner.place,fill,List.length_append,List.length_singleton]
    omega
  · simp only [Inner.place,used,List.length_append,List.length_singleton]
    omega
  · rw [content,members,List.mem_append,List.mem_singleton]
    tauto

private theorem Sound.resize_guarded {s : Inner α} (sound : s.Sound) (minUsed : Nat)
    (bound : s.used ≤ minUsed) :
    Guarded .diverges (s.settledResize minUsed) (Plain s.elems) (s.resize minUsed)
      (fun final => final.Sound ∧ final.fill = s.used ∧ final.used = s.used ∧
        minUsed < final.mask + 1 ∧ ∀ elem, elem ∈ final.elems ↔ elem ∈ s.elems) := by
  obtain ⟨k,large,loop,fits⟩ := newSizeLoop_spec minUsed minUsed 3 (by
    have grows : minUsed < 2 ^ minUsed := Nat.lt_two_pow_self
    omega)
  have size : newSizeLoop minUsed (minUsed + 1) minSize = .ok (2 ^ k) := loop
  have start := fresh_sound (α := α) k large s.search
  have nothing : (⟨0,2 ^ k - 1,s.search,List.replicate (2 ^ k) .empty,0⟩ : Inner α).elems = [] := by
    simp [elems,keys,List.filterMap_replicate]
  have count := sound.elems_length
  have reinserted := start.insertCleans_guarded s.elems sound.elems_nodup (by simp [nothing])
    (by simp only; omega)
  simp only [resize,settledResize,size,checked,ok_bind,insertAll_eq,sound.keys_eq,Bool.true_and]
  refine reinserted.imp ?_ id
  rintro final ⟨good,fill,used,mask,members⟩
  refine ⟨good,by simpa [count] using fill,by simpa [count] using used,?_,by simpa [nothing] using members⟩
  rw [mask]
  simp only
  omega

theorem Sound.grow_guarded {s : Inner α} (sound : s.Sound) :
    Guarded .diverges s.settledGrow (Plain s.elems) s.grow
      (fun final => final.Valid ∧ ∀ elem, elem ∈ final.elems ↔ elem ∈ s.elems) := by
  refine (sound.resize_guarded (if s.used > 50000 then s.used * 2 else s.used * 4)
    (by split <;> omega)).imp ?_ id
  rintro final ⟨good,fill,_,fits,members⟩
  refine ⟨⟨good,?_⟩,members⟩
  rw [fill]
  split at fits <;> omega

theorem Valid.add_guarded {s : Inner α} (valid : s.Valid) (elem : α) :
    Guarded .diverges (s.settledAdd elem) (0 ≤ PyHash.hash elem ∧ Plain s.elems)
      (s.addEntry (.fromElem elem))
      (fun final => final.Valid ∧ ∀ other, other ∈ final.elems ↔ other = elem ∨ other ∈ s.elems) := by
  refine ((valid.insert_guarded elem valid.insert_room).imp (fun _ good => good)
    (fun easy => easy.1)).bind ?_
  rintro ⟨inserted,t⟩ (⟨present,same⟩ | ⟨p,same,good,members⟩)
  · obtain ⟨rfl,rfl⟩ := Prod.mk.inj same
    simp only [Bool.false_eq_true,false_and,if_false]
    refine Guarded.ok _ ⟨valid,fun other => ?_⟩
    constructor
    · exact .inr
    · intro either
      rcases either with same | old
      · rw [same]
        exact present
      · exact old
  · obtain ⟨rfl,rfl⟩ := Prod.mk.inj same
    simp only [true_and]
    refine Guarded.ite _ (fun _ => ?_) (fun light => Guarded.ok _ ⟨⟨good,by omega⟩,members⟩)
    refine good.grow_guarded.imp ?_ ?_
    · rintro final ⟨kept,same⟩
      exact ⟨kept,fun other => (same other).trans (members other)⟩
    · rintro ⟨first,rest⟩ other member
      rcases (members other).mp member with same | old
      · rw [same]
        exact first
      · exact rest other old

theorem Valid.discard_guarded {s : Inner α} (valid : s.Valid) (elem : α) :
    Guarded .diverges (s.settles elem) (0 ≤ PyHash.hash elem) (s.discard elem)
      (fun result => result.1 = decide (elem ∈ s.elems) ∧ result.2.Valid ∧
        ∀ other, other ∈ result.2.elems ↔ other ∈ s.elems ∧ other ≠ elem) := by
  refine (valid.toSound.discard_guarded elem).imp ?_ id
  rintro result ⟨found,good,fill,mask,members⟩
  exact ⟨found,⟨good,by rw [fill,mask]; exact valid.load⟩,members⟩

private theorem Sound.inserts_guarded {s : Inner α} (sound : s.Sound) (added : List α)
    (room : s.fill + added.length ≤ s.mask) :
    Guarded .diverges (s.settledInserts added) (Plain added)
      ((added.map Entry.fromElem).foldlM (fun s entry => do return (← insertEntry s entry).2) s)
      (fun final => final.Sound ∧ final.fill ≤ s.fill + added.length ∧ final.mask = s.mask ∧
        ∀ elem, elem ∈ final.elems ↔ elem ∈ added ∨ elem ∈ s.elems) := by
  rw [List.foldlM_map]
  refine Guarded.foldlM (fun s elem => do return (← insertEntry s (.fromElem elem)).2) settles
    (fun before (t : Inner α) => t.Sound ∧ t.fill ≤ s.fill + before.length ∧ t.mask = s.mask ∧
      ∀ elem, elem ∈ t.elems ↔ elem ∈ before ∨ elem ∈ s.elems)
    added s ⟨sound,by simp,rfl,by simp⟩ ?_
  rintro before elem after t shape ⟨good,fill,mask,members⟩
  rw [shape,List.length_append,List.length_cons] at room
  refine ((good.insert_guarded elem (by omega)).imp (fun _ holds => holds)
    (fun plain => plain elem (by simp [shape]))).andThen ?_
  rintro result (⟨present,rfl⟩ | ⟨p,rfl,next,content⟩)
  · refine ⟨t,rfl,good,by simp only [List.length_append,List.length_singleton]; omega,mask,
      fun other => ?_⟩
    rw [members] at present
    rw [members,List.mem_append,List.mem_singleton]
    constructor
    · intro either
      tauto
    · intro either
      rcases either with (inside | same) | old
      · exact .inl inside
      · rwa [same]
      · exact .inr old
  · refine ⟨_,rfl,next,?_,mask,fun other => ?_⟩
    · simp only [Inner.place,List.length_append,List.length_singleton]
      omega
    · rw [content,members,List.mem_append,List.mem_singleton]
      tauto

private theorem merge_tail {s other : Inner α} (sound : s.Sound) (valid : other.Valid)
    (load : 3 * (s.fill + other.used) < 2 * (s.mask + 1)) :
    Guarded .diverges
      (if s.fill = 0 ∧ s.mask = other.mask ∧ other.fill = other.used then true
        else if s.fill = 0 then s.settledClean other.elems else s.settledInserts other.elems)
      (Plain other.elems)
      (if s.fill = 0 ∧ s.mask = other.mask ∧ other.fill = other.used then
        pure {s with table := other.table,fill := other.fill,used := other.used}
      else if s.fill = 0 then insertAll insertEntryClean s other.table
      else insertAll (fun s entry => do return (← s.insertEntry entry).2) s other.table)
      (fun final => final.Valid ∧
        ∀ elem, elem ∈ final.elems ↔ elem ∈ other.elems ∨ elem ∈ s.elems) := by
  have large := sound.mask_ge
  have count := valid.elems_length
  refine Guarded.ite _ (fun same => ?_) (fun _ => Guarded.ite _ (fun zero => ?_) (fun _ => ?_))
  · refine Guarded.ok _ ⟨block_copy valid same.2.1,fun elem => ?_⟩
    rw [sound.elems_of_fill_zero same.1]
    simp [elems]
  · rw [insertAll_eq,valid.keys_eq]
    refine (sound.insertCleans_guarded other.elems valid.elems_nodup
      (by simp [sound.elems_of_fill_zero zero]) (by omega)).imp ?_ id
    rintro final ⟨good,fill,used,mask,members⟩
    exact ⟨⟨good,by omega⟩,members⟩
  · rw [insertAll_eq,valid.keys_eq]
    refine (sound.inserts_guarded other.elems (by omega)).imp ?_ id
    rintro final ⟨good,fill,mask,members⟩
    exact ⟨⟨good,by omega⟩,members⟩

private theorem Valid.merge_guarded {s other : Inner α} (valid : s.Valid) (source : other.Valid) :
    Guarded .diverges (s.settledMerge other) (Plain s.elems ∧ Plain other.elems)
      (s.merge other false)
      (fun final => final.Valid ∧
        ∀ elem, elem ∈ final.elems ↔ elem ∈ other.elems ∨ elem ∈ s.elems) := by
  simp only [merge,settledMerge,Bool.false_eq_true,false_or]
  refine Guarded.ite _ (fun nothing => ?_) (fun _ => ?_)
  · have none_other : other.elems = [] := by
      rw [← List.length_eq_zero_iff,source.elems_length,nothing]
    exact Guarded.ok _ ⟨valid,by simp [none_other]⟩
  · by_cases heavy : (s.fill + other.used) * 3 ≥ (s.mask + 1) * 2
    · simp only [if_pos heavy]
      refine ((valid.resize_guarded ((s.used + other.used) * 2) (by omega)).imp (fun _ good => good)
        (fun easy => easy.1)).bind ?_
      rintro t ⟨good,fill,used,fits,same⟩
      refine (merge_tail good source (by omega)).imp ?_ (fun easy => easy.2)
      rintro final ⟨kept,members⟩
      exact ⟨kept,fun elem => by rw [members,same]⟩
    · simp only [if_neg heavy]
      refine (Guarded.ok s rfl : Guarded Raised.diverges true _ (.ok s) (· = s)).bind ?_
      rintro t rfl
      exact (merge_tail valid.toSound source (by omega)).imp (fun _ good => good) (fun easy => easy.2)

theorem Valid.copy_guarded {s : Inner α} (valid : s.Valid) :
    Guarded .diverges s.settledCopy (Plain s.elems) s.copy
      (fun final => final.Valid ∧ ∀ elem, elem ∈ final.elems ↔ elem ∈ s.elems) := by
  refine (new_valid.merge_guarded valid).imp ?_ (fun plain => ⟨by simp [Plain,new_elems],plain⟩)
  rintro final ⟨kept,members⟩
  exact ⟨kept,by simpa [new_elems] using members⟩

end Guards

section Total
variable [NonnegHash α]

theorem Sound.resize_spec {s : Inner α} (sound : s.Sound) (minUsed : Nat) (bound : s.used ≤ minUsed) :
    ∃ final, s.resize minUsed = .ok final ∧ final.Sound ∧ final.fill = s.used ∧
      final.used = s.used ∧ minUsed < final.mask + 1 ∧ ∀ elem, elem ∈ final.elems ↔ elem ∈ s.elems :=
  (sound.resize_guarded minUsed bound).total (plain_of_nonneg _)

theorem Sound.grow_spec {s : Inner α} (sound : s.Sound) :
    ∃ final, s.grow = .ok final ∧ final.Valid ∧ ∀ elem, elem ∈ final.elems ↔ elem ∈ s.elems :=
  sound.grow_guarded.total (plain_of_nonneg _)

theorem Valid.addEntry_spec {s : Inner α} (valid : s.Valid) (elem : α) :
    ∃ final, s.addEntry (.fromElem elem) = .ok final ∧ final.Valid ∧
      ∀ other, other ∈ final.elems ↔ other = elem ∨ other ∈ s.elems :=
  (valid.add_guarded elem).total ⟨NonnegHash.nonneg elem,plain_of_nonneg _⟩

theorem Valid.add_spec {s : Inner α} (valid : s.Valid) (elem : α) :
    ∃ final, s.add elem = .ok final ∧ final.Valid ∧
      ∀ other, other ∈ final.elems ↔ other = elem ∨ other ∈ s.elems :=
  valid.addEntry_spec elem

theorem Valid.discard_spec {s : Inner α} (valid : s.Valid) (elem : α) :
    ∃ final, s.discard elem = .ok (decide (elem ∈ s.elems),final) ∧ final.Valid ∧
      ∀ other, other ∈ final.elems ↔ other ∈ s.elems ∧ other ≠ elem := by
  obtain ⟨final,run,good,fill,mask,members⟩ := valid.toSound.discard_spec elem
  exact ⟨final,run,⟨good,by rw [fill,mask]; exact valid.load⟩,members⟩

theorem Valid.merge_spec {s other : Inner α} (valid : s.Valid) (source : other.Valid) :
    ∃ final, s.merge other false = .ok final ∧ final.Valid ∧
      ∀ elem, elem ∈ final.elems ↔ elem ∈ other.elems ∨ elem ∈ s.elems :=
  (valid.merge_guarded source).total ⟨plain_of_nonneg _,plain_of_nonneg _⟩

theorem Valid.copy_spec {s : Inner α} (valid : s.Valid) :
    ∃ final, s.copy = .ok final ∧ final.Valid ∧ ∀ elem, elem ∈ final.elems ↔ elem ∈ s.elems :=
  valid.copy_guarded.total (plain_of_nonneg _)

end Total
end Inner
end IndyNode.CompatSet

import IndyNode.CompatSetRun
import IndyNode.Semantics.Python35Set

/-! Iteration order against the built-in set of CPython 3.5. The two tables
differ in one place: for an absent element `look_entry` returns the empty slot
even after it has passed a `REMOVED` one. As long as no insertion meets that
situation the tables are equal slot by slot. -/
namespace IndyNode.CompatSet
open OpenAddressing Semantics Semantics.Python35Set

variable {α : Type}

def toIterable : Operand α → Iterable α
  | .list elems => .list elems
  | .set inner isSelf => .compatSet inner isSelf

private theorem toIterable_toFresh (other : Operand α) :
    toIterable other.toFresh = (toIterable other).toFresh := by
  cases other <;> rfl

/-- The reference leaves a small table without markers alone; the model rebuilds
it. No caller asks for that case. -/
private theorem resize_agree (s : Inner α) (minUsed : Nat)
    (needed : 8 ≤ minUsed ∨ s.fill ≠ s.used) : tableResize s minUsed = s.resize minUsed := by
  obtain ⟨k,_,loop,fits⟩ := Inner.newSizeLoop_spec minUsed minUsed 3 (by
    have grows : minUsed < 2 ^ minUsed := Nat.lt_two_pow_self
    omega)
  have size : Inner.newSizeLoop minUsed (minUsed + 1) minSize = .ok (2 ^ k) := loop
  have moves : ¬(2 ^ k = minSize ∧ s.mask + 1 = minSize ∧ s.fill = s.used) := by
    intro ⟨small,_,full⟩
    rcases needed with many | removed
    · simp only [minSize] at small
      omega
    · exact removed full
  simp only [tableResize,Inner.resize,size,ok_bind,moves,if_false]

private theorem grow_agree (s : Inner α) (needed : 2 ≤ s.used ∨ s.fill ≠ s.used) :
    growTable s = s.grow := by
  unfold growTable Inner.grow
  apply resize_agree
  split <;> omega

variable [DecidableEq α]

/-- The search for an absent element passes no `REMOVED` slot. -/
def unmarked (s : Inner α) (entry : Entry α) : Bool :=
  decide (entry ∈ keys s.table) || (passedMarker s.table (entryPath s.mask entry) entry).isNone

private def answer (table : List (Slot α)) (freeslot : Option Nat) (index : Nat) : Nat :=
  if table[index]? = some .empty then freeslot.getD index else index

private theorem examineSlots_eq (table : List (Slot α)) (entry : Entry α) (slots : List Nat)
    (freeslot : Option Nat) (inside : ∀ i ∈ slots, i < table.length) :
    examineSlots table entry slots freeslot =
      .ok (match locate table slots entry with
        | some index =>
          .found (answer table (freeslot.or (passedMarker table slots entry)) index)
        | none => .goOn (freeslot.or (passedMarker table slots entry))) := by
  induction slots generalizing freeslot with
  | nil => simp [examineSlots,locate,passedMarker]
  | cons i rest ih =>
    have bound := inside i (by simp)
    have later (next : Option Nat) := ih next (fun j member => inside j (by simp [member]))
    rw [passedMarker_cons]
    simp only [examineSlots,examine,locate,List.find?_cons,stops,List.getElem?_eq_getElem bound]
    cases slot : table[i] with
    | empty => simp [answer,List.getElem?_eq_getElem bound,slot,pure,Except.pure]
    | removed =>
      simp only [ok_bind,later,locate]
      cases rest.find? (stops table entry) <;> simp
    | live held =>
      by_cases same : held = entry
      · simp [answer,List.getElem?_eq_getElem bound,slot,same,pure,Except.pure]
      · simp [same,later,locate]

private theorem lookkeyLoop_eq (table : List (Slot α)) (mask : Nat) (entry : Entry α)
    (rounds i : Nat) (perturb : Int) (freeslot : Option Nat)
    (inside : ∀ j ∈ probePath mask rounds i perturb, j < table.length) :
    lookkeyLoop table mask entry rounds i perturb freeslot =
      ended ((locate table (probePath mask rounds i perturb) entry).map (answer table
        (freeslot.or (passedMarker table (probePath mask rounds i perturb) entry)))) := by
  induction rounds generalizing i perturb freeslot with
  | zero => rfl
  | succ rounds ih =>
    simp only [probePath,List.mem_append] at inside
    have first := examineSlots_eq table entry (roundSlots mask i) freeslot
      (fun j member => inside j (.inl member))
    simp only [lookkeyLoop,first,probePath,passedMarker_append,ok_bind]
    have split : locate table (roundSlots mask i ++ probePath mask rounds
        (nextIndex mask i (perturb >>> perturbShift)) (perturb >>> perturbShift)) entry =
        (locate table (roundSlots mask i) entry).or (locate table (probePath mask rounds
          (nextIndex mask i (perturb >>> perturbShift)) (perturb >>> perturbShift)) entry) := by
      simp only [locate,List.find?_append]
    rw [split]
    cases hit : locate table (roundSlots mask i) entry with
    | some index => rfl
    | none =>
      simp only [Option.isSome_none,Bool.false_eq_true,if_false,Option.none_or,← Option.or_assoc]
      exact ih _ _ _ (fun j member => inside j (.inr member))

variable [PyHash α]

private theorem unmarked_of_full {s : Inner α} (sound : s.Sound) (full : s.fill = s.used) (entry : Entry α) :
    unmarked s entry = true := by
  have none_removed (p : Nat) : s.table[p]? ≠ some .removed :=
    no_removed s.table (by rw [← sound.used,← sound.fill,full]) p
  simp [unmarked,passedMarker_none _ _ _ none_removed]

section Lookup
variable {s : Inner α}

private theorem lookkey_eq (sound : s.Sound) (elem : α) :
    lookkey s (.fromElem elem) =
      ended ((locate s.table (entryPath s.mask (.fromElem elem)) (.fromElem elem)).map
        (answer s.table
          (passedMarker s.table (entryPath s.mask (.fromElem elem)) (.fromElem elem)))) := by
  exact lookkeyLoop_eq s.table s.mask (.fromElem elem) _ _ _ none (sound.path_inside elem)

private theorem lookkey_live (sound : s.Sound) (elem : α) (present : elem ∈ s.elems) :
    lookkey s (.fromElem elem) = s.lookEntry (.fromElem elem) := by
  obtain ⟨p,found⟩ := (mem_keys _ _).mp ((sound.mem_elems elem).mp present)
  rw [lookkey_eq sound,sound.lookEntry_eq,sound.placed.locate_live p _ found]
  simp [answer,found]

variable [NonnegHash α]

private theorem lookkey_absent (sound : s.Sound) (elem : α) (absent : elem ∉ s.elems) :
    ∃ p, s.lookEntry (.fromElem elem) = .ok p ∧ s.table[p]? = some .empty ∧
      lookkey s (.fromElem elem) = .ok ((passedMarker s.table
        (entryPath s.mask (.fromElem elem)) (.fromElem elem)).getD p) := by
  obtain ⟨p,_,_,look,empty,_,_⟩ := sound.lookEntry_absent elem absent
  refine ⟨p,look,empty,?_⟩
  rw [sound.lookEntry_eq] at look
  rw [lookkey_eq sound]
  cases located : locate s.table (entryPath s.mask (.fromElem elem)) (.fromElem elem) with
  | none => simp [located,ended] at look
  | some q =>
    rw [located,ended,Except.ok.injEq] at look
    subst q
    simp [answer,empty,ended]

private theorem contains_agree (sound : s.Sound) (elem : α) :
    Python35Set.containsEntry s (.fromElem elem) = s.containsEntry (.fromElem elem) := by
  rw [sound.containsEntry_spec]
  unfold Python35Set.containsEntry Inner.slotAt
  by_cases present : elem ∈ s.elems
  · obtain ⟨p,look,found⟩ := sound.lookEntry_live elem present
    simp [lookkey_live sound elem present,look,found,present,pure,Except.pure]
  · obtain ⟨p,_,empty,found⟩ := lookkey_absent sound elem present
    cases passed : passedMarker s.table (entryPath s.mask (.fromElem elem)) (.fromElem elem) with
    | none => simp [found,passed,empty,present,pure,Except.pure]
    | some q =>
      simp [found,passed,passedMarker_removed _ _ _ q passed,present,pure,Except.pure]

theorem discard_agree (sound : s.Sound) (elem : α) :
    Python35Set.discard s elem = (do return (← s.discard elem).2) := by
  unfold Python35Set.discard Python35Set.discardEntry Inner.discard Inner.discardEntry Inner.slotAt
  by_cases present : elem ∈ s.elems
  · obtain ⟨p,look,found⟩ := sound.lookEntry_live elem present
    simp [lookkey_live sound elem present,look,found,pure,Except.pure]
  · obtain ⟨p,look,empty,found⟩ := lookkey_absent sound elem present
    cases passed : passedMarker s.table (entryPath s.mask (.fromElem elem)) (.fromElem elem) with
    | none => simp [found,look,passed,empty,pure,Except.pure]
    | some q => simp [found,look,passed,passedMarker_removed _ _ _ q passed,empty,pure,Except.pure]

/-- An insertion takes the slot CPython 3.5 takes exactly when its search passes
no `REMOVED` slot. -/
theorem insert_agree_iff (sound : s.Sound) (elem : α) :
    Python35Set.insertKey s (.fromElem elem) = (do return (← s.insertEntry (.fromElem elem)).2) ↔
      unmarked s (.fromElem elem) = true := by
  unfold Python35Set.insertKey Inner.insertEntry Inner.slotAt unmarked
  by_cases present : elem ∈ s.elems
  · obtain ⟨p,look,found⟩ := sound.lookEntry_live elem present
    simp [lookkey_live sound elem present,look,found,pure,Except.pure,(sound.mem_elems elem).mp present]
  · obtain ⟨p,look,empty,found⟩ := lookkey_absent sound elem present
    have fresh : Entry.fromElem elem ∉ keys s.table := by rwa [← sound.mem_elems]
    cases passed : passedMarker s.table (entryPath s.mask (.fromElem elem)) (.fromElem elem) with
    | none => simp [found,look,passed,empty,pure,Except.pure]
    | some q =>
      simp [found,look,passed,passedMarker_removed _ _ _ q passed,empty,pure,Except.pure,fresh]

end Lookup

section Operations
variable [NonnegHash α] {s : Inner α}

theorem addEntry_agree (valid : s.Valid) (elem : α)
    (clean : unmarked s (.fromElem elem) = true) :
    Python35Set.addEntry s (.fromElem elem) = s.addEntry (.fromElem elem) := by
  have same := (insert_agree_iff valid.toSound elem).mpr clean
  unfold Python35Set.addEntry Inner.addEntry
  rw [same]
  by_cases present : elem ∈ s.elems
  · simp [valid.insert_present elem present,pure,Except.pure]
  · obtain ⟨p,insert,_,_,_⟩ := valid.insert_absent elem present valid.insert_room
    have large := valid.mask_ge
    simp only [insert,ok_bind,pure,Except.pure,Inner.place,true_and]
    split
    · rename_i heavy
      rw [if_pos heavy.2]
      apply grow_agree
      simp only
      omega
    · rename_i light
      rw [if_neg (fun heavy => light ⟨by omega,heavy⟩)]

private theorem addEntry_full (valid : s.Valid) (full : s.fill = s.used) (elem : α) :
    ∃ final, s.addEntry (.fromElem elem) = .ok final ∧ final.Valid ∧ final.fill = final.used := by
  obtain ⟨final,run,kept,_⟩ := valid.addEntry_spec elem
  refine ⟨final,run,kept,?_⟩
  unfold Inner.addEntry at run
  by_cases present : elem ∈ s.elems
  · simp [valid.insert_present elem present,pure,Except.pure] at run
    rwa [← run]
  · obtain ⟨p,insert,_,good,_⟩ := valid.insert_absent elem present valid.insert_room
    simp only [insert,ok_bind,true_and] at run
    split at run
    · obtain ⟨grown,resized,_,fill,used,_,_⟩ := good.resize_spec
        (if (s.place p (.fromElem elem)).used > 50000 then (s.place p (.fromElem elem)).used * 2
          else (s.place p (.fromElem elem)).used * 4) (by split <;> omega)
      rw [Inner.grow,resized,Except.ok.injEq] at run
      rw [← run,fill,used]
    · simp only [pure,Except.pure,Except.ok.injEq] at run
      rw [← run]
      simp only [Inner.place]
      omega

/-- Elements that arrive one by one meet no marker at a table that has none. -/
private theorem filter_agree (excluded reference : Entry α → Except Raised Bool) (held : List α)
    (same : ∀ elem : α, reference (.fromElem elem) = excluded (.fromElem elem)) :
    (held.map Entry.fromElem).foldlM (fun (res : Inner α) entry => do
        if ← reference entry then return res else Python35Set.addEntry res entry) Inner.new =
      (held.map Entry.fromElem).foldlM (fun (res : Inner α) entry => do
        if ← excluded entry then return res else res.addEntry entry) Inner.new := by
  rw [List.foldlM_map,List.foldlM_map]
  refine foldlM_same _ _ (fun _ t => t.Valid ∧ t.fill = t.used) held Inner.new
    ⟨Inner.new_valid,rfl⟩ ?_ ?_
  · intro elem _ t next good body
    obtain ⟨out,_,rest⟩ := bind_success _ _ _ body
    split at rest
    · simp only [pure,Except.pure,Except.ok.injEq] at rest
      rwa [← rest]
    · obtain ⟨final,run,kept⟩ := addEntry_full good.1 good.2 elem
      rw [run,Except.ok.injEq] at rest
      rwa [← rest]
  · intro elem _ t good
    rw [same,addEntry_agree good.1 elem (unmarked_of_full good.1.toSound good.2 _)]

private theorem discards_agree (valid : s.Valid) (gone : List α) :
    gone.foldlM Python35Set.discard s =
      gone.foldlM (fun (s : Inner α) elem => do return (← s.discard elem).2) s := by
  refine foldlM_same _ _ (fun _ t => t.Valid) gone s valid ?_ ?_
  · intro elem _ t next good body
    obtain ⟨final,run,kept,_⟩ := good.discard_spec elem
    simp only [run,ok_bind,pure,Except.pure,Except.ok.injEq] at body
    rwa [← body]
  · intro elem _ t good
    exact discard_agree good.toSound elem

/-- No addition of a list of elements meets a marker. -/
def unmarkedAdds (s : Inner α) (elems : List α) : Bool :=
  permitted Inner.add (fun t elem => unmarked t (.fromElem elem)) elems s

private theorem adds_agree (valid : s.Valid) (elems : List α) (clean : unmarkedAdds s elems = true) :
    elems.foldlM Python35Set.add s = elems.foldlM Inner.add s := by
  refine foldlM_agree _ _ _ (fun _ t => t.Valid) elems s valid ?_ ?_ clean
  · intro elem _ t next good body
    obtain ⟨final,run,kept,_⟩ := good.add_spec elem
    rw [run,Except.ok.injEq] at body
    rwa [← body]
  · intro elem _ t good permit
    exact addEntry_agree good elem permit

theorem adds_agree_new (elems : List α) :
    elems.foldlM Python35Set.add Inner.new = elems.foldlM Inner.add Inner.new := by
  have same := filter_agree (fun _ => .ok false) (fun _ => .ok false) elems (fun _ => rfl)
  rwa [List.foldlM_map,List.foldlM_map] at same

/-- No insertion of a merge that keeps the table meets a marker. A merge that
rebuilds the table leaves none in it. -/
def unmarkedMerge (s other : Inner α) (isSelf : Bool) : Bool :=
  isSelf || decide (other.used = 0) || decide ((s.fill + other.used) * 3 ≥ (s.mask + 1) * 2) ||
    permitted (fun t elem => do return (← Inner.insertEntry t (.fromElem elem)).2)
      (fun t elem => unmarked t (.fromElem elem)) other.elems s

private theorem insert_keeps (sound : s.Sound) (room : s.fill + 1 ≤ s.mask) (elem : α) :
    ∃ next, (do return (← s.insertEntry (.fromElem elem)).2 : Except Raised (Inner α)) = .ok next ∧
      next.Sound ∧ next.fill ≤ s.fill + 1 ∧ next.mask = s.mask ∧
      (s.fill = s.used → next.fill = next.used) := by
  by_cases present : elem ∈ s.elems
  · refine ⟨s,?_,sound,by omega,rfl,id⟩
    simp [sound.insert_present elem present,pure,Except.pure]
  · obtain ⟨p,insert,_,good,_⟩ := sound.insert_absent elem present room
    refine ⟨_,by simp only [insert,ok_bind,pure,Except.pure],good,le_refl _,rfl,?_⟩
    simp only [Inner.place]
    omega

private theorem inserts_agree (sound : s.Sound) (elems : List α)
    (room : s.fill + elems.length ≤ s.mask)
    (clean : permitted (fun t elem => do return (← Inner.insertEntry t (.fromElem elem)).2)
      (fun t elem => unmarked t (.fromElem elem)) elems s = true) :
    (elems.map Entry.fromElem).foldlM insertKey s =
      (elems.map Entry.fromElem).foldlM
        (fun t entry => do return (← Inner.insertEntry t entry).2) s := by
  rw [List.foldlM_map,List.foldlM_map]
  refine foldlM_agree _ _ _ (fun rest t => t.Sound ∧ t.fill + rest.length ≤ t.mask) elems s
    ⟨sound,room⟩ ?_ ?_ clean
  · intro elem rest t next ⟨good,space⟩ body
    rw [List.length_cons] at space
    obtain ⟨final,run,kept,fill,mask,_⟩ := insert_keeps good (by omega) elem
    rw [run,Except.ok.injEq] at body
    rw [← body]
    exact ⟨kept,by omega⟩
  · intro elem rest t good permit
    exact (insert_agree_iff good.1 elem).mpr permit

private theorem inserts_unmarked (sound : s.Sound) (full : s.fill = s.used) (elems : List α)
    (room : s.fill + elems.length ≤ s.mask) :
    permitted (fun t elem => do return (← Inner.insertEntry t (.fromElem elem)).2)
      (fun t elem => unmarked t (.fromElem elem)) elems s = true := by
  refine permitted_of_invariant _ _
    (fun rest t => t.Sound ∧ t.fill = t.used ∧ t.fill + rest.length ≤ t.mask) elems s
    ⟨sound,full,room⟩ ?_ ?_
  · intro elem rest t next ⟨good,whole,space⟩ body
    rw [List.length_cons] at space
    obtain ⟨final,run,kept,fill,mask,still⟩ := insert_keeps good (by omega) elem
    rw [run,Except.ok.injEq] at body
    rw [← body]
    exact ⟨kept,still whole,by omega⟩
  · intro elem rest t good
    exact unmarked_of_full good.1 good.2.1 _

private theorem merge_agree {other : Inner α} (valid : s.Valid) (source : other.Valid)
    (isSelf : Bool) (clean : unmarkedMerge s other isSelf = true) :
    Python35Set.merge s other isSelf = s.merge other isSelf := by
  have large := valid.mask_ge
  have count := source.elems_length
  unfold Python35Set.merge Inner.merge
  by_cases trivial_merge : isSelf = true ∨ other.used = 0
  · simp only [trivial_merge,if_true]
  · simp only [trivial_merge,if_false,Inner.insertAll_eq,source.keys_eq]
    by_cases heavy : (s.fill + other.used) * 3 ≥ (s.mask + 1) * 2
    · obtain ⟨t,run,good,fill,used,fits,_⟩ := valid.resize_spec
        ((s.used + other.used) * 2) (by omega)
      have resized : tableResize s ((s.used + other.used) * 2) = .ok t := by
        rw [← run]
        apply resize_agree
        omega
      have room : t.fill + other.elems.length ≤ t.mask := by omega
      have agree := inserts_agree good other.elems room
        (inserts_unmarked good (by omega) other.elems room)
      simp only [heavy,if_true,resized,run,ok_bind,agree]
    · have permits := clean
      simp only [unmarkedMerge,heavy,decide_false,Bool.or_false,Bool.or_eq_true,decide_eq_true_eq,
        trivial_merge,false_or] at permits
      have agree := inserts_agree valid.toSound other.elems (by omega) permits
      simp only [heavy,if_false,pure_bind,agree]

private theorem copy_agree (valid : s.Valid) : Python35Set.copy s = s.copy := by
  have large := valid.mask_ge
  have count := valid.elems_length
  refine merge_agree Inner.new_valid valid false ?_
  by_cases heavy : ((Inner.new : Inner α).fill + s.used) * 3 ≥ ((Inner.new : Inner α).mask + 1) * 2
  · simp [unmarkedMerge,heavy]
  · have room : (Inner.new : Inner α).fill + s.elems.length ≤ (Inner.new : Inner α).mask := by
      simp only [Inner.new,minSize] at heavy ⊢
      omega
    rw [unmarkedMerge,inserts_unmarked Inner.new_valid.toSound rfl s.elems room,Bool.or_true]

end Operations

section Methods
variable [NonnegHash α] {s : Inner α}

/-- No insertion made by `update` meets a marker. -/
def unmarkedUpdate (s : Inner α) : Iterable α → Bool
  | .list elems => unmarkedAdds s elems
  | .pySet elems _ => unmarkedAdds s elems
  | .compatSet inner isSelf => unmarkedMerge s inner isSelf

theorem update_agree (valid : s.Valid) (other : Operand α) (fits : (toIterable other).Fits s)
    (clean : unmarkedUpdate s (toIterable other) = true) :
    Python35Set.update s other = s.update (toIterable other) := by
  cases other with
  | list elems => exact adds_agree valid elems clean
  | set inner isSelf => exact merge_agree valid fits.1 isSelf clean

private theorem differenceUpdate_agree (valid : s.Valid) (other : Operand α)
    (fits : (toIterable other).Fits s) :
    Python35Set.differenceUpdate s other = s.differenceUpdate (toIterable other) := by
  have removing (gone : List α) : (do
        let s ← gone.foldlM Python35Set.discard s
        if (s.fill - s.used) * 5 < s.mask then return s else growTable s) = (do
        let s ← gone.foldlM (fun (s : Inner α) elem => do return (← s.discard elem).2) s
        if (s.fill - s.used) * 5 ≥ s.mask then s.grow else return s) := by
    rw [discards_agree valid gone]
    obtain ⟨t,run,good,_⟩ := valid.discard_all gone
    have large := good.mask_ge
    simp only [run,ok_bind]
    by_cases few : (t.fill - t.used) * 5 < t.mask
    · rw [if_pos few,if_neg (by omega)]
    · rw [if_neg few,if_pos (by omega)]
      apply grow_agree
      omega
  cases other with
  | list elems => exact removing elems
  | set inner isSelf =>
    cases isSelf with
    | true => rfl
    | false =>
      simp only [Python35Set.differenceUpdate,Inner.differenceUpdate,Operand.elems,Iterable.elems,
        toIterable]
      have order : Python35Set.iterate inner = .ok inner.elems := fits.1.iterate_spec
      simp only [order,fits.1.iterate_spec,ok_bind]
      exact removing inner.elems

private theorem difference_agree (valid : s.Valid) (other : Operand α) (fits : (toIterable other).Fits s) :
    Python35Set.difference s other = s.difference (toIterable other) := by
  obtain ⟨t,run,good,_⟩ := valid.copy_spec
  have copying : (do Python35Set.differenceUpdate (← Python35Set.copy s) other.toFresh) =
      (do (← s.copy).differenceUpdate (toIterable other).toFresh) := by
    rw [copy_agree valid,run]
    simp only [ok_bind]
    rw [differenceUpdate_agree good other.toFresh,toIterable_toFresh]
    rw [toIterable_toFresh]
    exact Iterable.toFresh_fits s t _ fits
  cases other with
  | list elems => exact copying
  | set inner isSelf =>
    simp only [Python35Set.difference,Inner.difference,toIterable]
    by_cases many : s.used >>> 2 ≤ inner.used
    · rw [if_neg (by omega),if_pos many,valid.entries_spec,valid.keys_eq]
      exact filter_agree inner.containsEntry (Python35Set.containsEntry inner) s.elems
        (fun elem => contains_agree fits.1.toSound elem)
    · rw [if_pos (by omega),if_neg many]
      exact copying

theorem differenceAll_agree (valid : s.Valid) (others : List (Operand α))
    (fits : ∀ other ∈ others, (toIterable other).Fits s) :
    differenceAll s others = difference s (others.map toIterable) := by
  cases others with
  | nil => exact copy_agree valid
  | cons first rest =>
    have fit := fits first (by simp)
    obtain ⟨t,run,good,_⟩ := valid.difference_spec (toIterable first) fit
    simp only [differenceAll,difference,List.map_cons,difference_agree valid first fit,run,ok_bind,
      List.foldlM_map]
    refine foldlM_same _ _ (fun left u => u.Valid ∧ ∀ other ∈ left, (toIterable other).Fits s)
      rest t ⟨good,fun other member => fits other (by simp [member])⟩ ?_ ?_
    · intro other left u next holds body
      obtain ⟨light,fitting⟩ := holds
      obtain ⟨final,removed,kept,_⟩ := light.differenceUpdate_spec (toIterable other).toFresh
        (Iterable.toFresh_fits s u _ (fitting other (by simp))) (Iterable.toFresh_honest u _)
      rw [removed,Except.ok.injEq] at body
      rw [← body]
      exact ⟨kept,fun later member => fitting later (by simp [member])⟩
    · intro other left u holds
      obtain ⟨light,fitting⟩ := holds
      rw [differenceUpdate_agree light other.toFresh,toIterable_toFresh]
      rw [toIterable_toFresh]
      exact Iterable.toFresh_fits s u _ (fitting other (by simp))

end Methods
end IndyNode.CompatSet

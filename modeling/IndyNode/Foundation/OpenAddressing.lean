import Mathlib.Data.List.Basic
import Mathlib.Data.List.Nodup

/-! Open addressing with deletion markers, over an arbitrary key type and an
arbitrary probe path for each key. A search follows the path to the first cell
that is empty or holds the key; the placement invariant says that every live key
is met by its own search before any empty cell. -/
namespace IndyNode.OpenAddressing

inductive Cell (κ : Type) where
  | empty
  | removed
  | live (key : κ)
deriving DecidableEq, Repr

namespace Cell

def key? {κ : Type} : Cell κ → Option κ
  | .live key => some key
  | _ => none

def occupied {κ : Type} : Cell κ → Bool
  | .empty => false
  | _ => true

@[simp] theorem key?_empty {κ : Type} : (empty : Cell κ).key? = none := rfl
@[simp] theorem key?_removed {κ : Type} : (removed : Cell κ).key? = none := rfl
@[simp] theorem key?_live {κ : Type} (key : κ) : (live key).key? = some key := rfl
@[simp] theorem occupied_empty {κ : Type} : (empty : Cell κ).occupied = false := rfl
@[simp] theorem occupied_removed {κ : Type} : (removed : Cell κ).occupied = true := rfl
@[simp] theorem occupied_live {κ : Type} (key : κ) : (live key).occupied = true := rfl

theorem key?_eq_some {κ : Type} (cell : Cell κ) (key : κ) :
    cell.key? = some key ↔ cell = .live key := by
  cases cell <;> simp

end Cell

variable {κ : Type}

/-- The live keys in table order. -/
def keys (table : List (Cell κ)) : List κ := table.filterMap Cell.key?

def occupancy (table : List (Cell κ)) : Nat := table.countP Cell.occupied

theorem mem_keys (table : List (Cell κ)) (key : κ) :
    key ∈ keys table ↔ ∃ p : Nat, table[p]? = some (.live key) := by
  simp only [keys,List.mem_filterMap,Cell.key?_eq_some]
  constructor
  · rintro ⟨cell,member,rfl⟩
    exact List.mem_iff_getElem?.mp member
  · rintro ⟨p,found⟩
    exact ⟨_,List.mem_of_getElem? found,rfl⟩

theorem set_split (table : List (Cell κ)) (p : Nat) (cell : Cell κ) (found : table[p]? = some cell) :
    ∃ left right, table = left ++ cell :: right ∧
      ∀ next, table.set p next = left ++ next :: right := by
  obtain ⟨bound,rfl⟩ := List.getElem?_eq_some_iff.mp found
  refine ⟨table.take p,table.drop (p+1),?_,fun next => ?_⟩
  · simp
  · rw [List.set_eq_take_append_cons_drop,if_pos bound]

theorem occupancy_fill (table : List (Cell κ)) (p : Nat) (key : κ)
    (found : table[p]? = some .empty) :
    occupancy (table.set p (.live key)) = occupancy table + 1 := by
  obtain ⟨left,right,shape,update⟩ := set_split table p _ found
  rw [update,shape]
  simp [occupancy,List.countP_append,List.countP_cons]
  omega

theorem occupancy_replace (table : List (Cell κ)) (p : Nat) (cell next : Cell κ)
    (found : table[p]? = some cell) (same : cell.occupied = next.occupied) :
    occupancy (table.set p next) = occupancy table := by
  obtain ⟨left,right,shape,update⟩ := set_split table p _ found
  rw [update,shape]
  simp [occupancy,List.countP_append,List.countP_cons,same]

theorem keys_length_fill (table : List (Cell κ)) (p : Nat) (cell : Cell κ) (key : κ)
    (found : table[p]? = some cell) (vacant : cell.key? = none) :
    (keys (table.set p (.live key))).length = (keys table).length + 1 := by
  obtain ⟨left,right,shape,update⟩ := set_split table p _ found
  rw [update,shape]
  simp [keys,List.filterMap_append,vacant]
  omega

theorem keys_length_remove (table : List (Cell κ)) (p : Nat) (key : κ)
    (found : table[p]? = some (.live key)) :
    (keys (table.set p .removed)).length + 1 = (keys table).length := by
  obtain ⟨left,right,shape,update⟩ := set_split table p _ found
  rw [update,shape]
  simp [keys,List.filterMap_append,List.filterMap_cons]
  omega

theorem mem_keys_fill (table : List (Cell κ)) (p : Nat) (cell : Cell κ) (key other : κ)
    (found : table[p]? = some cell) (vacant : cell.key? = none) :
    other ∈ keys (table.set p (.live key)) ↔ other = key ∨ other ∈ keys table := by
  obtain ⟨left,right,shape,update⟩ := set_split table p _ found
  rw [update,shape]
  simp only [keys,List.filterMap_append,List.filterMap_cons,vacant,Cell.key?_live,
    List.mem_append,List.mem_cons]
  tauto

theorem keys_length_le_occupancy (table : List (Cell κ)) :
    (keys table).length ≤ occupancy table := by
  induction table with
  | nil => simp [keys,occupancy]
  | cons cell table ih =>
    cases cell <;> simp [keys,occupancy,List.filterMap_cons,List.countP_cons] at ih ⊢ <;> omega

theorem keys_length (table : List (Cell κ)) :
    (keys table).length = table.countP (fun cell => cell.key?.isSome) := by
  induction table with
  | nil => rfl
  | cons cell table ih =>
    cases cell <;> simp [keys,List.filterMap_cons,List.countP_cons] at ih ⊢ <;> omega

theorem occupancy_eq [DecidableEq κ] (table : List (Cell κ)) :
    occupancy table = table.countP (fun cell => cell.key?.isSome) + table.count .removed := by
  induction table with
  | nil => rfl
  | cons cell table ih => cases cell <;> simp [occupancy,List.countP_cons] at ih ⊢ <;> omega

/-- As many live keys as occupied cells leave no cell for a deletion marker. -/
theorem no_removed [DecidableEq κ] (table : List (Cell κ))
    (full : (keys table).length = occupancy table) (p : Nat) : table[p]? ≠ some .removed := by
  intro found
  have member := List.mem_of_getElem? found
  have positive := List.count_pos_iff.mpr member
  rw [keys_length,occupancy_eq] at full
  omega

theorem exists_empty (table : List (Cell κ)) (room : occupancy table < table.length) :
    ∃ p : Nat, p < table.length ∧ table[p]? = some .empty := by
  obtain ⟨cell,member,free⟩ : ∃ cell ∈ table, ¬cell.occupied = true := by
    by_contra full
    simp only [not_exists,not_and,Classical.not_not] at full
    have all := List.countP_eq_length.mpr full
    simp only [occupancy] at room
    omega
  obtain ⟨p,found⟩ := List.mem_iff_getElem?.mp member
  cases cell with
  | empty => exact ⟨p,(List.getElem?_eq_some_iff.mp found).1,found⟩
  | removed => simp at free
  | live key => simp at free

/-- Every live key is reached by its own path before any empty cell, and stands
in one cell only. -/
structure Placed (path : κ → List Nat) (table : List (Cell κ)) : Prop where
  reached : ∀ (p : Nat) (key : κ), table[p]? = some (.live key) →
    ∃ before after, path key = before ++ p :: after ∧
      ∀ j ∈ before, table[j]? ≠ some .empty
  unique : ∀ (p q : Nat) (key : κ), table[p]? = some (.live key) →
    table[q]? = some (.live key) → p = q

theorem placed_empty (path : κ → List Nat) (n : Nat) :
    Placed path (List.replicate n (.empty : Cell κ)) := by
  have no_live (p : Nat) (key : κ) :
      (List.replicate n (.empty : Cell κ))[p]? ≠ some (.live key) := by
    simp only [List.getElem?_replicate]
    split <;> simp
  exact ⟨fun p key found => absurd found (no_live p key),
    fun p q key found _ => absurd found (no_live p key)⟩

private theorem nodup_of_unique (table : List (Cell κ))
    (unique : ∀ (p q : Nat) (key : κ), table[p]? = some (.live key) →
      table[q]? = some (.live key) → p = q) : (keys table).Nodup := by
  induction table with
  | nil => simp [keys]
  | cons cell table ih =>
    have rest := ih (fun p q key hp hq => by
      have shifted := unique (p+1) (q+1) key (by simpa using hp) (by simpa using hq)
      omega)
    cases cell with
    | empty => simpa [keys,List.filterMap_cons] using rest
    | removed => simpa [keys,List.filterMap_cons] using rest
    | live key =>
      have fresh : key ∉ keys table := by
        intro member
        obtain ⟨p,found⟩ := (mem_keys table key).mp member
        have clash := unique 0 (p+1) key (by simp) (by simpa using found)
        omega
      exact List.nodup_cons.mpr ⟨fresh,rest⟩

theorem Placed.nodup_keys {path : κ → List Nat} {table : List (Cell κ)}
    (placed : Placed path table) : (keys table).Nodup :=
  nodup_of_unique table placed.unique

theorem Placed.fill {path : κ → List Nat} {table : List (Cell κ)} (placed : Placed path table)
    (p : Nat) (cell : Cell κ) (key : κ) (before after : List Nat)
    (found : table[p]? = some cell) (absent : key ∉ keys table)
    (shape : path key = before ++ p :: after)
    (blocked : ∀ j ∈ before, table[j]? ≠ some .empty) :
    Placed path (table.set p (.live key)) := by
  have bound := (List.getElem?_eq_some_iff.mp found).1
  have blocks (j : Nat) (full : table[j]? ≠ some .empty) :
      (table.set p (.live key))[j]? ≠ some .empty := by
    by_cases same : p = j
    · subst j
      simp [bound]
    · rwa [List.getElem?_set_ne same]
  have earlier (q : Nat) (other : κ) (held : (table.set p (.live key))[q]? = some (.live other)) :
      (q = p ∧ other = key) ∨ table[q]? = some (.live other) := by
    by_cases same : p = q
    · subst q
      simp only [List.getElem?_set_self bound,Option.some.injEq,Cell.live.injEq] at held
      exact .inl ⟨rfl,held.symm⟩
    · rw [List.getElem?_set_ne same] at held
      exact .inr held
  constructor
  · intro q other held
    rcases earlier q other held with ⟨rfl,rfl⟩ | old
    · exact ⟨before,after,shape,fun j member => blocks j (blocked j member)⟩
    · obtain ⟨front,back,split,full⟩ := placed.reached q other old
      exact ⟨front,back,split,fun j member => blocks j (full j member)⟩
  · intro q r other hq hr
    rcases earlier q other hq with ⟨rfl,rfl⟩ | oldq
    · rcases earlier r _ hr with ⟨rfl,-⟩ | oldr
      · rfl
      · exact absurd ((mem_keys table _).mpr ⟨r,oldr⟩) absent
    · rcases earlier r _ hr with ⟨rfl,rfl⟩ | oldr
      · exact absurd ((mem_keys table _).mpr ⟨q,oldq⟩) absent
      · exact placed.unique q r other oldq oldr

theorem Placed.remove {path : κ → List Nat} {table : List (Cell κ)} (placed : Placed path table)
    (p : Nat) (cell : Cell κ) (found : table[p]? = some cell) :
    Placed path (table.set p .removed) := by
  have bound := (List.getElem?_eq_some_iff.mp found).1
  have earlier (q : Nat) (other : κ) (held : (table.set p .removed)[q]? = some (.live other)) :
      table[q]? = some (.live other) := by
    by_cases same : p = q
    · subst q
      simp [bound] at held
    · rwa [List.getElem?_set_ne same] at held
  constructor
  · intro q other held
    obtain ⟨front,back,split,full⟩ := placed.reached q other (earlier q other held)
    refine ⟨front,back,split,fun j member => ?_⟩
    by_cases same : p = j
    · subst j
      simp [bound]
    · rw [List.getElem?_set_ne same]
      exact full j member
  · intro q r other hq hr
    exact placed.unique q r other (earlier q other hq) (earlier r other hr)

theorem Placed.mem_keys_remove {path : κ → List Nat} {table : List (Cell κ)}
    (placed : Placed path table) (p : Nat) (key other : κ)
    (found : table[p]? = some (.live key)) :
    other ∈ keys (table.set p .removed) ↔ other ∈ keys table ∧ other ≠ key := by
  have bound := (List.getElem?_eq_some_iff.mp found).1
  rw [mem_keys,mem_keys]
  constructor
  · rintro ⟨q,held⟩
    have apart : p ≠ q := by
      rintro rfl
      simp [bound] at held
    rw [List.getElem?_set_ne apart] at held
    refine ⟨⟨q,held⟩,?_⟩
    rintro rfl
    exact apart (placed.unique p q _ found held)
  · rintro ⟨⟨q,held⟩,differs⟩
    have apart : p ≠ q := by
      rintro rfl
      rw [found] at held
      exact differs (by simpa using held.symm)
    exact ⟨q,by rwa [List.getElem?_set_ne apart]⟩

section Search
variable [DecidableEq κ]

/-- A search for `key` ends at cell `j`: the cell is empty or holds the key. -/
def stops (table : List (Cell κ)) (key : κ) (j : Nat) : Bool :=
  match table[j]? with
  | some .empty => true
  | some (.live held) => decide (held = key)
  | _ => false

def locate (table : List (Cell κ)) (path : List Nat) (key : κ) : Option Nat :=
  path.find? (stops table key)

/-- The first deletion marker a search for `key` passes before it ends. -/
def passedMarker (table : List (Cell κ)) (path : List Nat) (key : κ) : Option Nat :=
  (path.takeWhile (fun j => !stops table key j)).find? (fun j => table[j]? = some .removed)

theorem stops_iff (table : List (Cell κ)) (key : κ) (j : Nat) :
    stops table key j = true ↔ table[j]? = some .empty ∨ table[j]? = some (.live key) := by
  unfold stops
  split <;> simp_all

theorem passedMarker_cons (table : List (Cell κ)) (i : Nat) (rest : List Nat) (key : κ) :
    passedMarker table (i::rest) key =
      if stops table key i then none
      else if table[i]? = some .removed then some i else passedMarker table rest key := by
  unfold passedMarker
  cases stop : stops table key i with
  | true => simp [stop]
  | false =>
    by_cases marker : table[i]? = some .removed
    · simp [stop,marker]
    · simp [stop,marker]

theorem passedMarker_append (table : List (Cell κ)) (front back : List Nat) (key : κ) :
    passedMarker table (front ++ back) key =
      if (locate table front key).isSome then passedMarker table front key
      else (passedMarker table front key).or (passedMarker table back key) := by
  induction front with
  | nil => simp [locate,passedMarker]
  | cons i front ih =>
    rw [List.cons_append,passedMarker_cons,passedMarker_cons,ih]
    unfold locate
    cases stop : stops table key i with
    | true => simp [stop]
    | false =>
      simp only [Bool.false_eq_true,if_false,List.find?_cons,stop]
      split_ifs <;> simp

theorem passedMarker_removed (table : List (Cell κ)) (path : List Nat) (key : κ) (j : Nat)
    (passed : passedMarker table path key = some j) : table[j]? = some .removed := by
  have marker := List.find?_some passed
  simpa using marker

theorem passedMarker_none (table : List (Cell κ)) (path : List Nat) (key : κ)
    (unmarked : ∀ j : Nat, table[j]? ≠ some .removed) : passedMarker table path key = none := by
  cases passed : passedMarker table path key with
  | none => rfl
  | some j => exact absurd (passedMarker_removed table path key j passed) (unmarked j)

theorem Placed.locate_live {path : κ → List Nat} {table : List (Cell κ)}
    (placed : Placed path table) (p : Nat) (key : κ) (found : table[p]? = some (.live key)) :
    locate table (path key) key = some p := by
  obtain ⟨before,after,shape,full⟩ := placed.reached p key found
  by_cases early : p ∈ before
  · -- The path may pass the cell more than once; the search takes the first pass.
    obtain ⟨front,back,split,fresh⟩ := List.eq_append_cons_of_mem early
    rw [locate,List.find?_eq_some_iff_append]
    refine ⟨(stops_iff table key p).mpr (.inr found),front,back ++ p :: after,by
      rw [shape,split,List.append_assoc]; rfl,fun j member => ?_⟩
    simp only [Bool.not_eq_true']
    by_contra stopped
    rw [Bool.not_eq_false,stops_iff] at stopped
    rcases stopped with empty | held
    · exact full j (by rw [split]; exact List.mem_append_left _ member) empty
    · exact fresh ((placed.unique j p key held found) ▸ member)
  · rw [locate,List.find?_eq_some_iff_append]
    refine ⟨(stops_iff table key p).mpr (.inr found),before,after,shape,fun j member => ?_⟩
    simp only [Bool.not_eq_true']
    by_contra stopped
    rw [Bool.not_eq_false,stops_iff] at stopped
    rcases stopped with empty | held
    · exact full j member empty
    · exact early ((placed.unique j p key held found) ▸ member)

theorem locate_absent (table : List (Cell κ)) (path : List Nat) (key : κ)
    (absent : key ∉ keys table) (free : ∃ p ∈ path, table[p]? = some .empty) :
    ∃ p before after, locate table path key = some p ∧ table[p]? = some .empty ∧
      path = before ++ p :: after ∧ ∀ j ∈ before, table[j]? ≠ some .empty := by
  obtain ⟨q,member,empty⟩ := free
  have some_stop : (locate table path key).isSome := by
    rw [locate,List.find?_isSome]
    exact ⟨q,member,(stops_iff table key q).mpr (.inl empty)⟩
  obtain ⟨p,located⟩ := Option.isSome_iff_exists.mp some_stop
  obtain ⟨stopped,before,after,shape,earlier⟩ := List.find?_eq_some_iff_append.mp located
  refine ⟨p,before,after,located,?_,shape,fun j inside vacant => ?_⟩
  · rcases (stops_iff table key p).mp stopped with vacant | held
    · exact vacant
    · exact absurd ((mem_keys table key).mpr ⟨p,held⟩) absent
  · have passed := earlier j inside
    rw [(stops_iff table key j).mpr (.inl vacant)] at passed
    simp at passed

end Search
end IndyNode.OpenAddressing

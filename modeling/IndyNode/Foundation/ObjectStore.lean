import IndyNode.Foundation.JsonTree
import Mathlib.Data.List.Forall2
import Mathlib.Data.List.Infix

/-! Programs on a store of mutable objects that refer to each other by address: running them,
what stays as it was, and the documents that dictionaries and lists in a store spell out. -/
namespace IndyNode

/-- A program that may fail. What it has written before stays written. -/
def Exec (ε κ α : Type) : Type := List κ → Except ε α × List κ

namespace Exec
variable {ε κ α β : Type}

instance : Monad (Exec ε κ) where
  pure value := fun store => (.ok value,store)
  bind first next := fun store =>
    match first store with
    | (.ok value,after) => next value after
    | (.error error,after) => (.error error,after)

def raise (error : ε) : Exec ε κ α := fun store => (.error error,store)

def alloc (cell : κ) : Exec ε κ Nat := fun store => (.ok store.length,store ++ [cell])

def load (missing : ε) (address : Nat) : Exec ε κ κ := fun store =>
  match store[address]? with
  | none => (.error missing,store)
  | some cell => (.ok cell,store)

def write (address : Nat) (cell : κ) : Exec ε κ Unit := fun store => (.ok (),store.set address cell)

/-- The body for each item in turn. -/
def each (body : α → Exec ε κ β) : List α → Exec ε κ (List β)
  | [] => pure []
  | item::items => do
    let first ← body item
    let rest ← each body items
    return first :: rest

@[simp] theorem pure_run (value : α) (store : List κ) : (pure value : Exec ε κ α) store = (.ok value,store) := rfl

@[simp] theorem raise_run (error : ε) (store : List κ) :
    (raise error : Exec ε κ α) store = (.error error,store) := rfl

@[simp] theorem alloc_run (cell : κ) (store : List κ) :
    (alloc cell : Exec ε κ Nat) store = (.ok store.length,store ++ [cell]) := rfl

@[simp] theorem write_run (address : Nat) (cell : κ) (store : List κ) :
    (write address cell : Exec ε κ Unit) store = (.ok (),store.set address cell) := rfl

theorem load_run {missing : ε} {address : Nat} {cell : κ} {store : List κ} (there : store[address]? = some cell) :
    load missing address store = (.ok cell,store) := by rw [load,there]

theorem bind_run {first : Exec ε κ α} {store after : List κ} {value : α} (run : first store = (.ok value,after))
    (next : α → Exec ε κ β) : (first >>= next) store = next value after := by
  change (match first store with
    | (.ok value,after) => next value after
    | (.error error,after) => (.error error,after)) = _
  rw [run]

theorem bind_fails {first : Exec ε κ α} {store after : List κ} {error : ε} (run : first store = (.error error,after))
    (next : α → Exec ε κ β) : (first >>= next) store = (.error error,after) := by
  change (match first store with
    | (.ok value,after) => next value after
    | (.error error,after) => (.error error,after)) = _
  rw [run]

end Exec

section Kept
variable {κ : Type}

/-- The cells at the addresses are still what they were, and among the wider ones. -/
def Kept (inside wider : Nat → Prop) (before after : List κ) : Prop :=
  ∀ address cell, inside address → before[address]? = some cell → wider address ∧ after[address]? = some cell

theorem kept_of_longer {before after : List κ} (longer : before <+: after) {inside wider : Nat → Prop}
    (widen : ∀ address, inside address → wider address) : Kept inside wider before after := by
  obtain ⟨rest,rfl⟩ := longer
  intro address cell listed there
  obtain ⟨within,_⟩ := List.getElem?_eq_some_iff.mp there
  rw [List.getElem?_append_left within]
  exact ⟨widen address listed,there⟩

/-- Addresses that are followed are those of cells. -/
theorem kept_within (store : List κ) (inside : Nat → Prop) : Kept inside (· < store.length) store store :=
  fun _ _ _ there => ⟨(List.getElem?_eq_some_iff.mp there).1,there⟩

theorem kept_set {inside wider : Nat → Prop} (store : List κ) {address : Nat} (cell : κ)
    (widen : ∀ address, inside address → wider address) (outside : ¬inside address) :
    Kept inside wider store (store.set address cell) := by
  intro other held listed there
  have apart : address ≠ other := by
    rintro rfl
    exact outside listed
  rw [List.getElem?_set_ne apart]
  exact ⟨widen other listed,there⟩

theorem Kept.trans {inside middle wider : Nat → Prop} {first second third : List κ}
    (one : Kept inside middle first second) (two : Kept middle wider second third) :
    Kept inside wider first third := by
  intro address cell listed there
  obtain ⟨listed,there⟩ := one address cell listed there
  exact two address cell listed there

/-- A cell behind the original store may be written. -/
theorem longer_set {before store : List κ} (longer : before <+: store) {address : Nat}
    (behind : before.length ≤ address) (cell : κ) : before <+: store.set address cell := by
  obtain ⟨rest,rfl⟩ := longer
  rw [List.set_append_right _ _ behind]
  exact List.prefix_append _ _

end Kept

section Refines
variable {ε κ φ α β τ υ : Type} {error : ε} {start : List κ}

/-- The run has only added to the store, and ends as the outcome does: in the error, or in a
value that meets the one of the outcome. -/
def Refines (error : ε) (meets : List κ → α → τ → Prop) (start : List κ) (run : Except ε α × List κ)
    (outcome : Except φ τ) : Prop :=
  start <+: run.2 ∧
    match outcome with
    | .error _ => run.1 = .error error
    | .ok result => ∃ value, run.1 = .ok value ∧ meets run.2 value result

theorem refines_ok {meets : List κ → α → τ → Prop} {after : List κ} {value : α} {result : τ}
    (longer : start <+: after) (meet : meets after value result) :
    Refines error meets start (.ok value,after) (.ok result : Except φ τ) :=
  ⟨longer,value,rfl,meet⟩

theorem refines_error {meets : List κ → α → τ → Prop} {after : List κ} (longer : start <+: after) (failure : φ) :
    Refines error meets start (.error error,after) (.error failure) :=
  ⟨longer,rfl⟩

theorem Refines.imp {meets weaker : List κ → α → τ → Prop} {run : Except ε α × List κ} {outcome : Except φ τ}
    (refines : Refines error meets start run outcome)
    (weaken : ∀ after value result, meets after value result → weaker after value result) :
    Refines error weaker start run outcome := by
  obtain ⟨longer,ends⟩ := refines
  refine ⟨longer,?_⟩
  cases outcome with
  | error failure => exact ends
  | ok result =>
    obtain ⟨value,same,meet⟩ := ends
    exact ⟨value,same,weaken _ _ _ meet⟩

/-- What follows may change the cells that the first program has added to. -/
theorem Refines.bind {meets : List κ → α → τ → Prop} {meetsNext : List κ → β → υ → Prop} {first : Exec ε κ α}
    {next : α → Exec ε κ β} {outcome : Except φ τ} {continued : τ → Except φ υ} {earlier : List κ}
    (one : Refines error meets start (first start) outcome) (added : earlier <+: start)
    (two : ∀ middle value result, start <+: middle → meets middle value result →
      Refines error meetsNext earlier (next value middle) (continued result)) :
    Refines error meetsNext earlier ((first >>= next) start) (outcome >>= continued) := by
  obtain ⟨longer,ends⟩ := one
  rcases run : first start with ⟨result,middle⟩
  rw [run] at longer ends
  cases outcome with
  | error failure =>
    obtain rfl : result = _ := ends
    rw [Exec.bind_fails run]
    exact refines_error (added.trans longer) failure
  | ok target =>
    obtain ⟨value,same,meet⟩ := ends
    obtain rfl : result = _ := same
    rw [Exec.bind_run run]
    exact two middle value target longer meet

end Refines

/-- What a field, an item or a variable holds: a scalar itself, or the address of an object. -/
inductive Word (σ : Type) where
  | scalar (value : σ)
  | address (address : Nat)
deriving DecidableEq, Repr

inductive HeapCell (σ ο : Type) where
  | dict (fields : List (String × Word σ))
  | list (items : List (Word σ))
  | object (object : ο)

section Reads
variable {σ ο : Type}

mutual
/-- The word leads to the document, through the given addresses only. -/
def Reads (inside : Nat → Prop) (store : List (HeapCell σ ο)) : Word σ → JsonTree σ → Prop
  | word, .scalar value => word = .scalar value
  | word, .list items => ∃ address words, word = .address address ∧ inside address ∧
      store[address]? = some (.list words) ∧ ReadsAll inside store words items
  | word, .object fields => ∃ address entries, word = .address address ∧ inside address ∧
      store[address]? = some (.dict entries) ∧ ReadsFields inside store entries fields

def ReadsAll (inside : Nat → Prop) (store : List (HeapCell σ ο)) : List (Word σ) → List (JsonTree σ) → Prop
  | [], [] => True
  | word::words, item::items => Reads inside store word item ∧ ReadsAll inside store words items
  | _, _ => False

def ReadsFields (inside : Nat → Prop) (store : List (HeapCell σ ο)) :
    List (String × Word σ) → List (String × JsonTree σ) → Prop
  | [], [] => True
  | (name,word)::entries, (key,value)::fields =>
    name = key ∧ Reads inside store word value ∧ ReadsFields inside store entries fields
  | _, _ => False
end

variable {inside wider : Nat → Prop} {store after : List (HeapCell σ ο)}

theorem reads_scalar {word : Word σ} {value : σ} :
    Reads inside store word (.scalar value) ↔ word = .scalar value := by simp only [Reads]

theorem readsAll_iff (words : List (Word σ)) (items : List (JsonTree σ)) :
    ReadsAll inside store words items ↔ List.Forall₂ (Reads inside store) words items := by
  induction items generalizing words with
  | nil => cases words <;> simp [ReadsAll]
  | cons item items ih => cases words <;> simp [ReadsAll,ih]

theorem readsFields_iff (entries : List (String × Word σ)) (fields : List (String × JsonTree σ)) :
    ReadsFields inside store entries fields ↔
      List.Forall₂ (fun entry field => entry.1 = field.1 ∧ Reads inside store entry.2 field.2) entries fields := by
  induction fields generalizing entries with
  | nil => cases entries <;> simp [ReadsFields]
  | cons field fields ih => cases entries <;> simp [ReadsFields,ih,and_assoc]

theorem reads_list {word : Word σ} {items : List (JsonTree σ)} :
    Reads inside store word (.list items) ↔ ∃ address words, word = .address address ∧ inside address ∧
      store[address]? = some (.list words) ∧ List.Forall₂ (Reads inside store) words items := by
  simp only [Reads,readsAll_iff]

theorem reads_object {word : Word σ} {fields : List (String × JsonTree σ)} :
    Reads inside store word (.object fields) ↔ ∃ address entries, word = .address address ∧ inside address ∧
      store[address]? = some (.dict entries) ∧ List.Forall₂ (fun entry field => entry.1 = field.1 ∧
        Reads inside store entry.2 field.2) entries fields := by
  simp only [Reads,readsFields_iff]

theorem forall₂_imp_mem {α β : Type} {first second : α → β → Prop} {left : List α} {right : List β}
    (related : List.Forall₂ first left right) (each : ∀ item, ∀ other ∈ right, first item other → second item other) :
    List.Forall₂ second left right := by
  induction related with
  | nil => exact .nil
  | cons here _ ih =>
    exact .cons (each _ _ List.mem_cons_self here) (ih fun item other listed => each item other (.tail _ listed))

/-- A document does not change with cells that it does not go through. -/
theorem Reads.keep (kept : Kept inside wider store after) {word : Word σ} {document : JsonTree σ}
    (reads : Reads inside store word document) :
    Reads wider after word document := by
  induction document using JsonTree.induct generalizing word with
  | scalar value =>
    rw [reads_scalar] at reads ⊢
    exact reads
  | list items ih =>
    rw [reads_list] at reads ⊢
    obtain ⟨address,words,rfl,listed,there,each⟩ := reads
    exact ⟨address,words,rfl,(kept _ _ listed there).1,(kept _ _ listed there).2,
      forall₂_imp_mem each fun _ item member here => ih item member here⟩
  | object fields ih =>
    rw [reads_object] at reads ⊢
    obtain ⟨address,entries,rfl,listed,there,each⟩ := reads
    exact ⟨address,entries,rfl,(kept _ _ listed there).1,(kept _ _ listed there).2,
      forall₂_imp_mem each fun _ field member here => ⟨here.1,(ih field member).1 here.2⟩⟩

theorem fields_keys {entries : List (String × Word σ)} {fields : List (String × JsonTree σ)}
    (reads : List.Forall₂ (fun entry field => entry.1 = field.1 ∧ Reads inside store entry.2 field.2) entries fields) :
    entries.map Prod.fst = fields.map Prod.fst := by
  induction reads with
  | nil => rfl
  | cons here _ ih => rw [List.map_cons,List.map_cons,here.1,ih]

theorem fields_lookup {entries : List (String × Word σ)} {fields : List (String × JsonTree σ)}
    (reads : List.Forall₂ (fun entry field => entry.1 = field.1 ∧ Reads inside store entry.2 field.2) entries fields)
    (key : String) : Option.Rel (Reads inside store) (entries.lookup key) (fields.lookup key) := by
  induction reads with
  | nil => exact .none
  | @cons entry field entries fields here _ ih =>
    obtain ⟨same,value⟩ := here
    rw [List.lookup_cons,List.lookup_cons,same]
    cases key == field.1 with
    | true => exact .some value
    | false => exact ih

end Reads
section Documents
variable {ε σ ο : Type}
open Exec

mutual
/-- New cells for a document, the inner ones first. -/
def writeDocument : JsonTree σ → Exec ε (HeapCell σ ο) (Word σ)
  | .scalar value => pure (.scalar value)
  | .list items => do
    let words ← writeItems items
    return .address (← alloc (.list words))
  | .object fields => do
    let entries ← writeFields fields
    return .address (← alloc (.dict entries))

def writeItems : List (JsonTree σ) → Exec ε (HeapCell σ ο) (List (Word σ))
  | [] => pure []
  | item::items => do
    let word ← writeDocument item
    let words ← writeItems items
    return word :: words

def writeFields : List (String × JsonTree σ) → Exec ε (HeapCell σ ο) (List (String × Word σ))
  | [] => pure []
  | (key,value)::fields => do
    let word ← writeDocument value
    let entries ← writeFields fields
    return (key,word) :: entries
end

def readEntry (read : Word σ → Exec ε (HeapCell σ ο) (JsonTree σ)) (entry : String × Word σ) :
    Exec ε (HeapCell σ ο) (String × JsonTree σ) := do return (entry.1,← read entry.2)

/-- The document that a word leads to, if it is one. -/
def readDocument (noDocument diverges : ε) : Nat → Word σ → Exec ε (HeapCell σ ο) (JsonTree σ)
  | 0, _ => raise diverges
  | _ + 1, .scalar value => pure (.scalar value)
  | fuel + 1, .address address => do
    match ← load noDocument address with
    | .list words => return .list (← each (readDocument noDocument diverges fuel) words)
    | .dict entries => return .object (← each (readEntry (readDocument noDocument diverges fuel)) entries)
    | .object _ => raise noDocument

/-- What is written is read from the new cells. -/
def Writes (program : Exec ε (HeapCell σ ο) (Word σ)) (document : JsonTree σ) : Prop :=
  ∀ store, ∃ word after, program store = (.ok word,after) ∧ store <+: after ∧
    Reads (store.length ≤ ·) after word document

theorem Reads.later {store middle after : List (HeapCell σ ο)} {word : Word σ} {document : JsonTree σ}
    (reads : Reads (store.length ≤ ·) middle word document) (further : middle <+: after) :
    Reads (store.length ≤ ·) after word document :=
  reads.keep (kept_of_longer further fun _ => id)

theorem Reads.sooner {store middle after : List (HeapCell σ ο)} {word : Word σ} {document : JsonTree σ}
    (reads : Reads (middle.length ≤ ·) after word document) (longer : store <+: middle) :
    Reads (store.length ≤ ·) after word document :=
  reads.keep (kept_of_longer List.prefix_rfl fun _ => longer.length_le.trans)

theorem writeItems_run {items : List (JsonTree σ)}
    (each : ∀ item ∈ items, Writes (writeDocument item : Exec ε (HeapCell σ ο) _) item) (store : List (HeapCell σ ο)) :
    ∃ words after, (writeItems items : Exec ε _ _) store = (.ok words,after) ∧ store <+: after ∧
      List.Forall₂ (Reads (store.length ≤ ·) after) words items := by
  induction items generalizing store with
  | nil => exact ⟨[],store,by rw [writeItems]; rfl,List.prefix_rfl,.nil⟩
  | cons item items ih =>
    obtain ⟨word,middle,run,longer,reads⟩ := each item List.mem_cons_self store
    obtain ⟨words,after,runs,further,all⟩ := ih (fun other listed => each other (.tail _ listed)) middle
    refine ⟨word :: words,after,?_,longer.trans further,
      .cons (reads.later further) (all.imp fun _ _ reads => reads.sooner longer)⟩
    rw [writeItems,bind_run run,bind_run runs]
    rfl

theorem writeFields_run {fields : List (String × JsonTree σ)}
    (each : ∀ field ∈ fields, Writes (writeDocument field.2 : Exec ε (HeapCell σ ο) _) field.2)
    (store : List (HeapCell σ ο)) :
    ∃ entries after, (writeFields fields : Exec ε _ _) store = (.ok entries,after) ∧ store <+: after ∧
      List.Forall₂ (fun entry field => entry.1 = field.1 ∧ Reads (store.length ≤ ·) after entry.2 field.2)
        entries fields := by
  induction fields generalizing store with
  | nil => exact ⟨[],store,by rw [writeFields]; rfl,List.prefix_rfl,.nil⟩
  | cons field fields ih =>
    obtain ⟨key,value⟩ := field
    obtain ⟨word,middle,run,longer,reads⟩ := each (key,value) List.mem_cons_self store
    obtain ⟨entries,after,runs,further,all⟩ := ih (fun other listed => each other (.tail _ listed)) middle
    refine ⟨(key,word) :: entries,after,?_,longer.trans further,
      .cons ⟨rfl,reads.later further⟩ (all.imp fun _ _ both => ⟨both.1,both.2.sooner longer⟩)⟩
    rw [writeFields,bind_run run,bind_run runs]
    rfl

theorem writeDocument_writes (document : JsonTree σ) :
    Writes (writeDocument document : Exec ε (HeapCell σ ο) _) document := by
  induction document using JsonTree.induct with
  | scalar value =>
    intro store
    refine ⟨.scalar value,store,?_,List.prefix_rfl,reads_scalar.mpr rfl⟩
    rw [writeDocument]
    rfl
  | list items ih =>
    intro store
    obtain ⟨words,after,run,longer,reads⟩ := @writeItems_run ε σ ο items ih store
    refine ⟨.address after.length,after ++ [.list words],?_,longer.trans (List.prefix_append _ _),
      reads_list.mpr ⟨_,words,rfl,longer.length_le,List.getElem?_concat_length,
        reads.imp fun _ _ reads => reads.later (List.prefix_append _ _)⟩⟩
    rw [writeDocument,bind_run run]
    rfl
  | object fields ih =>
    intro store
    obtain ⟨entries,after,run,longer,reads⟩ := @writeFields_run ε σ ο fields (fun field listed => (ih field listed).1) store
    refine ⟨.address after.length,after ++ [.dict entries],?_,longer.trans (List.prefix_append _ _),
      reads_object.mpr ⟨_,entries,rfl,longer.length_le,List.getElem?_concat_length,
        reads.imp fun _ _ both => ⟨both.1,both.2.later (List.prefix_append _ _)⟩⟩⟩
    rw [writeDocument,bind_run run]
    rfl

/-- With enough fuel the program has the result and leaves the store alone. -/
def Settles {ε κ α : Type} (program : Nat → Exec ε κ α) (store : List κ) (result : α) : Prop :=
  ∃ enough, ∀ fuel, enough < fuel → program fuel store = (.ok result,store)

/-- One call more needs one unit of fuel more. -/
theorem Settles.deeper {ε κ α β : Type} {inner : Nat → Exec ε κ α} {outer : Nat → Exec ε κ β} {store : List κ}
    {value : α} {result : β} (settles : Settles inner store value)
    (step : ∀ fuel, inner fuel store = (.ok value,store) → outer (fuel + 1) store = (.ok result,store)) :
    Settles outer store result := by
  obtain ⟨enough,runs⟩ := settles
  refine ⟨enough + 1,fun fuel more => ?_⟩
  obtain _ | fuel := fuel
  · cases more
  exact step fuel (runs fuel (Nat.lt_of_succ_lt_succ more))

theorem each_settles {ε κ α β : Type} {program : Nat → α → Exec ε κ β} {store : List κ} {items : List α}
    {results : List β} (all : List.Forall₂ (fun item => Settles (program · item) store) items results) :
    Settles (fun fuel => each (program fuel) items) store results := by
  induction all with
  | nil => exact ⟨0,fun _ _ => rfl⟩
  | cons here _ ih =>
    obtain ⟨first,one⟩ := here
    obtain ⟨second,rest⟩ := ih
    refine ⟨max first second,fun fuel enough => ?_⟩
    beta_reduce
    rw [each,bind_run (one fuel ((le_max_left _ _).trans_lt enough)),
      bind_run (rest fuel ((le_max_right _ _).trans_lt enough))]
    rfl

theorem readDocument_settles (noDocument diverges : ε) {inside : Nat → Prop} {store : List (HeapCell σ ο)}
    {word : Word σ}
    {document : JsonTree σ} (reads : Reads inside store word document) :
    Settles (readDocument noDocument diverges · word) store document := by
  induction document using JsonTree.induct generalizing word with
  | scalar value =>
    obtain rfl := reads_scalar.mp reads
    refine ⟨0,fun fuel enough => ?_⟩
    obtain _ | fuel := fuel
    · cases enough
    rfl
  | list items ih =>
    obtain ⟨address,words,rfl,_,there,all⟩ := reads_list.mp reads
    refine (each_settles (forall₂_imp_mem all fun _ item listed reads => ih item listed reads)).deeper fun fuel run => ?_
    rw [readDocument,bind_run (load_run there)]
    exact bind_run run _
  | object fields ih =>
    obtain ⟨address,entries,rfl,_,there,all⟩ := reads_object.mp reads
    have settle (entry : String × Word σ) (field : String × JsonTree σ) (listed : field ∈ fields)
        (both : entry.1 = field.1 ∧ Reads inside store entry.2 field.2) :
        Settles (fun fuel => readEntry (readDocument noDocument diverges fuel) entry) store field := by
      obtain ⟨enough,run⟩ := (ih field listed).1 both.2
      refine ⟨enough,fun fuel more => ?_⟩
      beta_reduce
      rw [readEntry,bind_run (run fuel more),both.1]
      rfl
    refine (each_settles (forall₂_imp_mem all settle)).deeper fun fuel run => ?_
    rw [readDocument,bind_run (load_run there)]
    exact bind_run run _

end Documents
end IndyNode

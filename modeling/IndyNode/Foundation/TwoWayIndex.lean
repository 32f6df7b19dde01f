import Mathlib.Logic.Function.Basic

/-! Records in a store of keys and values, each under the key of its identifier, with the
identifier once more under the key of its metadata. Both kinds of keys share the store. -/
namespace IndyNode

structure TwoWayIndex (κ β ι μ ρ : Type) where
  ident : ρ → ι
  metadata : ρ → μ
  identKey : ι → κ
  metadataKey : μ → κ
  value : ρ → β
  pointer : ι → β

namespace TwoWayIndex
variable {κ β ι μ ρ : Type} (index : TwoWayIndex κ β ι μ ρ)

def put [DecidableEq κ] (store : κ → Option β) (record : ρ) : κ → Option β :=
  Function.update (Function.update store (index.identKey (index.ident record)) (some (index.value record)))
    (index.metadataKey (index.metadata record)) (some (index.pointer (index.ident record)))

/-- Identifiers can be told apart, as keys and as values. -/
structure Faithful : Prop where
  identKey : Function.Injective index.identKey
  pointer : Function.Injective index.pointer

/-- A record whose identifier is not the key of any metadata that is asked for, and whose
own metadata have a key for themselves. -/
structure Plain (asked : μ → Prop) (record : ρ) : Prop where
  known : asked (index.metadata record)
  apart : ∀ data, asked data → index.metadataKey data ≠ index.identKey (index.ident record)
  alone : ∀ data, asked data → index.metadataKey data = index.metadataKey (index.metadata record) →
    data = index.metadata record

/-- The store holds the records, and what is asked for leads to the record that has it. -/
structure Indexed (asked : μ → Prop) (store : κ → Option β) (records : ι → Option ρ) : Prop where
  named : ∀ i record, records i = some record → index.ident record = i
  plain : ∀ i record, records i = some record → index.Plain asked record
  primary : ∀ i record, records i = some record → store (index.identKey i) = some (index.value record)
  secondary : ∀ i record, records i = some record →
    store (index.metadataKey (index.metadata record)) = some (index.pointer i)
  exact : ∀ data i, asked data → store (index.metadataKey data) = some (index.pointer i) →
    ∃ record, records i = some record ∧ index.metadata record = data
  occupied : ∀ key, store key ≠ none → ∃ i record, records i = some record ∧
    (key = index.identKey i ∨ key = index.metadataKey (index.metadata record))

variable {index} {asked : μ → Prop} {store : κ → Option β} {records : ι → Option ρ} {record : ρ}

theorem Indexed.empty : index.Indexed asked (fun _ => none) fun _ => none := by
  refine ⟨?_,?_,?_,?_,?_,?_⟩ <;> simp

theorem Indexed.unique (indexed : index.Indexed asked store records) (faithful : index.Faithful)
    {i j : ι} {first second : ρ} (atFirst : records i = some first) (atSecond : records j = some second)
    (same : index.metadata first = index.metadata second) : i = j := by
  have one := indexed.secondary i first atFirst
  rw [same,indexed.secondary j second atSecond] at one
  exact (faithful.pointer (Option.some.inj one)).symm

theorem Indexed.free (indexed : index.Indexed asked store records) (faithful : index.Faithful)
    (plain : index.Plain asked record) (new : records (index.ident record) = none) :
    store (index.identKey (index.ident record)) = none := by
  by_contra taken
  obtain ⟨i,other,stored,own | lent⟩ := indexed.occupied _ taken
  · rw [faithful.identKey own,stored] at new
    cases new
  · exact plain.apart _ (indexed.plain i other stored).known lent.symm

theorem Indexed.metadata_differ (indexed : index.Indexed asked store records) (faithful : index.Faithful)
    (new : records (index.ident record) = none →
      store (index.metadataKey (index.metadata record)) = none)
    (stays : ∀ old, records (index.ident record) = some old → index.metadata old = index.metadata record)
    {i : ι} {other : ρ} (apart : i ≠ index.ident record) (stored : records i = some other) :
    index.metadata other ≠ index.metadata record := by
  intro same
  cases before : records (index.ident record) with
  | none =>
    have taken := indexed.secondary i other stored
    rw [same,new before] at taken
    cases taken
  | some old => exact apart (indexed.unique faithful stored before (same.trans (stays old before).symm))

section Put
variable [DecidableEq κ] (store)

theorem put_ident (plain : index.Plain asked record) :
    index.put store record (index.identKey (index.ident record)) = some (index.value record) := by
  rw [put,Function.update_of_ne (plain.apart _ plain.known).symm,Function.update_self]

theorem put_metadata : index.put store record (index.metadataKey (index.metadata record)) =
    some (index.pointer (index.ident record)) :=
  Function.update_self ..

theorem put_other (key : κ) (ident : key ≠ index.identKey (index.ident record))
    (metadata : key ≠ index.metadataKey (index.metadata record)) : index.put store record key = store key := by
  rw [put,Function.update_of_ne metadata,Function.update_of_ne ident]

/-- Of the keys that are asked for, only the record's own is written. -/
theorem put_asked (plain : index.Plain asked record) (data : μ) (known : asked data)
    (other : data ≠ index.metadata record) :
    index.put store record (index.metadataKey data) = store (index.metadataKey data) :=
  put_other store _ (plain.apart data known) fun same => other (plain.alone data known same)

end Put

section Step
variable [DecidableEq κ] [DecidableEq ι]

theorem update_record {ident i : ι} {other : ρ}
    (stored : Function.update records ident (some record) i = some other) :
    i = ident ∧ record = other ∨ i ≠ ident ∧ records i = some other := by
  by_cases same : i = ident
  · rw [same,Function.update_self] at stored
    exact .inl ⟨same,Option.some.inj stored⟩
  · rw [Function.update_of_ne same] at stored
    exact .inr ⟨same,stored⟩

variable (indexed : index.Indexed asked store records) (faithful : index.Faithful)
  (plain : index.Plain asked record)
include indexed faithful plain

section Unchanged
variable (stays : ∀ old, records (index.ident record) = some old →
  index.metadata old = index.metadata record)
include stays

theorem Indexed.put_exact (data : μ) (i : ι) (known : asked data)
    (leads : index.put store record (index.metadataKey data) = some (index.pointer i)) :
    ∃ other, Function.update records (index.ident record) (some record) i = some other ∧
      index.metadata other = data := by
  by_cases own : data = index.metadata record
  · subst own
    rw [put_metadata] at leads
    obtain rfl := faithful.pointer (Option.some.inj leads)
    exact ⟨record,Function.update_self ..,rfl⟩
  · rw [put_asked store plain data known own] at leads
    obtain ⟨other,stored,same⟩ := indexed.exact data i known leads
    refine ⟨other,?_,same⟩
    rw [Function.update_of_ne,stored]
    rintro rfl
    exact own (same.symm.trans (stays other stored))

omit faithful plain in
theorem Indexed.put_occupied (key : κ) (taken : index.put store record key ≠ none) :
    ∃ i other, Function.update records (index.ident record) (some record) i = some other ∧
      (key = index.identKey i ∨ key = index.metadataKey (index.metadata other)) := by
  by_cases ident : key = index.identKey (index.ident record)
  · exact ⟨_,record,Function.update_self ..,.inl ident⟩
  · by_cases metadata : key = index.metadataKey (index.metadata record)
    · exact ⟨_,record,Function.update_self ..,.inr metadata⟩
    · rw [put_other store key ident metadata] at taken
      obtain ⟨i,other,stored,place⟩ := indexed.occupied key taken
      refine ⟨i,other,?_,place⟩
      rw [Function.update_of_ne,stored]
      rintro rfl
      rcases place with own | lent
      · exact ident own
      · exact metadata (lent.trans (congrArg _ (stays other stored)))

/-- A record with free metadata, or with those that it had, can be written. -/
theorem Indexed.put (new : records (index.ident record) = none →
      store (index.metadataKey (index.metadata record)) = none) :
    index.Indexed asked (index.put store record)
      (Function.update records (index.ident record) (some record)) := by
  refine ⟨?_,?_,?_,?_,indexed.put_exact faithful plain stays,indexed.put_occupied stays⟩
  · intro i other stored
    rcases update_record stored with ⟨rfl,rfl⟩ | ⟨_,stored⟩
    · rfl
    · exact indexed.named i other stored
  · intro i other stored
    rcases update_record stored with ⟨_,rfl⟩ | ⟨_,stored⟩
    · exact plain
    · exact indexed.plain i other stored
  · intro i other stored
    rcases update_record stored with ⟨rfl,rfl⟩ | ⟨apart,stored⟩
    · exact put_ident store plain
    · have separate := (indexed.plain i other stored).apart _ plain.known
      rw [indexed.named i other stored] at separate
      rw [put_other store _ (fun same => apart (faithful.identKey same)) separate.symm]
      exact indexed.primary i other stored
  · intro i other stored
    rcases update_record stored with ⟨rfl,rfl⟩ | ⟨apart,stored⟩
    · exact put_metadata store
    · have differs := indexed.metadata_differ faithful new stays apart stored
      rw [put_asked store plain _ (indexed.plain i other stored).known differs]
      exact indexed.secondary i other stored

end Unchanged

/-- A record that is written again keeps the index exactly when its metadata stay: their old
key leads to it for ever. -/
theorem Indexed.put_iff (new : records (index.ident record) = none →
      store (index.metadataKey (index.metadata record)) = none) :
    index.Indexed asked (index.put store record)
        (Function.update records (index.ident record) (some record)) ↔
      ∀ old, records (index.ident record) = some old → index.metadata old = index.metadata record := by
  constructor
  · intro next old stored
    by_contra differs
    have known := (indexed.plain _ old stored).known
    have kept := (put_asked store plain _ known differs).trans (indexed.secondary _ old stored)
    obtain ⟨found,written,same⟩ := next.exact _ _ known kept
    rw [Function.update_self] at written
    obtain rfl := Option.some.inj written
    exact differs same.symm
  · intro stays
    exact indexed.put faithful plain stays new

end Step
end TwoWayIndex
end IndyNode

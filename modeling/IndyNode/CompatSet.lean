import IndyNode.Python
import IndyNode.Foundation.OpenAddressing

/-! The set of `indy_common/compat_set.py`: an open-addressing table with the
iteration order of the Python 3.5 set. Methods are functions from the table
object to its next value; a loop runs at most as many rounds as its bound. -/
namespace IndyNode.CompatSet
open OpenAddressing

structure Entry (α : Type) where
  elem : α
  hash : Int
deriving DecidableEq, Repr

def Entry.fromElem {α : Type} [PyHash α] (elem : α) : Entry α := ⟨elem,PyHash.hash elem⟩

def minSize : Nat := 8
def linearProbes : Nat := 9
def perturbShift : Nat := 5

/-- `None` is `empty`, the `REMOVED` marker is `removed`. -/
abbrev Slot (α : Type) := Cell (Entry α)

structure Inner (α : Type) where
  fill : Nat
  mask : Nat
  search : Nat
  table : List (Slot α)
  used : Nat
deriving DecidableEq, Repr

def Inner.new {α : Type} : Inner α :=
  ⟨0,minSize - 1,0,List.replicate minSize .empty,0⟩

/-- The slots one round of a probe loop looks at, in order: the slot itself and
the linear probes behind it when they all lie inside the table. -/
def roundSlots (mask i : Nat) : List Nat :=
  i :: if i + linearProbes ≤ mask then List.range' (i+1) linearProbes else []

def nextIndex (mask i : Nat) (perturb : Int) : Nat := pyAnd (i * 5 + 1 + perturb) mask

/-- Rounds granted to a probe loop: enough to shift the hash out and then to
meet every slot of the table. -/
def probeRounds (mask : Nat) (hash : Int) : Nat := hash.natAbs.log2 + 1 + (mask + 1)

/-- What looking at one slot decides: the answer, or to go on with `free_idx`. -/
inductive Probe where
  | found (index : Nat)
  | goOn (freeIdx : Option Nat)
deriving DecidableEq, Repr

section Table
variable {α : Type} [DecidableEq α]

def inspect (table : List (Slot α)) (entry : Entry α) (freeIdx : Option Nat) (i : Nat) :
    Except Raised Probe :=
  match table[i]? with
  | none => .error .indexError
  | some .empty => .ok (.found (if freeIdx.isNone then i else i))
  | some .removed => .ok (.goOn (if freeIdx.isNone then some i else freeIdx))
  | some (.live held) => .ok (if held = entry then .found i else .goOn freeIdx)

def inspectSlots (table : List (Slot α)) (entry : Entry α) :
    List Nat → Option Nat → Except Raised Probe
  | [],freeIdx => .ok (.goOn freeIdx)
  | i::rest,freeIdx => do
    match ← inspect table entry freeIdx i with
    | .found index => return .found index
    | .goOn freeIdx => inspectSlots table entry rest freeIdx

def lookLoop (table : List (Slot α)) (mask : Nat) (entry : Entry α) :
    Nat → Nat → Int → Option Nat → Except Raised Nat
  | 0,_,_,_ => .error .diverges
  | rounds+1,i,perturb,freeIdx => do
    match ← inspectSlots table entry (roundSlots mask i) freeIdx with
    | .found index => return index
    | .goOn freeIdx =>
      let perturb := perturb >>> perturbShift
      lookLoop table mask entry rounds (nextIndex mask i perturb) perturb freeIdx

def firstEmpty (table : List (Slot α)) : List Nat → Except Raised (Option Nat)
  | [] => .ok none
  | i::rest =>
    match table[i]? with
    | none => .error .indexError
    | some .empty => .ok (some i)
    | some _ => firstEmpty table rest

def cleanLoop (table : List (Slot α)) (mask : Nat) : Nat → Nat → Int → Except Raised Nat
  | 0,_,_ => .error .diverges
  | rounds+1,i,perturb => do
    match ← firstEmpty table (roundSlots mask i) with
    | some found => return found
    | none =>
      let perturb := perturb >>> perturbShift
      cleanLoop table mask rounds (nextIndex mask i perturb) perturb

namespace Inner

/-- Find an element in the set, or find an empty entry. -/
def lookEntry (s : Inner α) (entry : Entry α) : Except Raised Nat := do
  if ¬s.fill ≤ s.mask then throw .assertionError
  lookLoop s.table s.mask entry (probeRounds s.mask entry.hash)
    (pyAnd entry.hash s.mask) entry.hash none

def slotAt (s : Inner α) (index : Nat) : Except Raised (Slot α) :=
  match s.table[index]? with
  | none => .error .indexError
  | some slot => .ok slot

def containsEntry (s : Inner α) (entry : Entry α) : Except Raised Bool := do
  let index ← s.lookEntry entry
  match ← s.slotAt index with
  | .live _ => return true
  | _ => return false

def insertEntry (s : Inner α) (entry : Entry α) : Except Raised (Bool × Inner α) := do
  let index ← s.lookEntry entry
  match ← s.slotAt index with
  | .empty => return (true,{s with
      table := s.table.set index (.live entry),fill := s.fill + 1,used := s.used + 1})
  | .removed => return (true,{s with table := s.table.set index (.live entry),used := s.used + 1})
  | .live _ => return (false,s)

def discardEntry (s : Inner α) (entry : Entry α) : Except Raised (Bool × Inner α) := do
  let index ← s.lookEntry entry
  match ← s.slotAt index with
  | .live _ => return (true,{s with table := s.table.set index .removed,used := s.used - 1})
  | _ => return (false,s)

/-- Insert an entry known to not be present, in a table with no removed entries. -/
def insertEntryClean (s : Inner α) (entry : Entry α) : Except Raised (Inner α) := do
  let found ← cleanLoop s.table s.mask (probeRounds s.mask entry.hash)
    (pyAnd entry.hash s.mask) entry.hash
  return {s with table := s.table.set found (.live entry),fill := s.fill + 1,used := s.used + 1}

/-- `for entry in table: if entry is not None and entry is not REMOVED: insert(entry)`. -/
def insertAll (insert : Inner α → Entry α → Except Raised (Inner α)) (s : Inner α)
    (table : List (Slot α)) : Except Raised (Inner α) :=
  table.foldlM (fun s slot => match slot with
    | .live entry => insert s entry
    | _ => pure s) s

def newSizeLoop (minUsed : Nat) : Nat → Nat → Except Raised Nat
  | 0,_ => .error .diverges
  | rounds+1,newSize =>
    if newSize ≤ minUsed then newSizeLoop minUsed rounds (newSize * 2) else .ok newSize

/-- Adjust the allocated size of the set. -/
def resize (s : Inner α) (minUsed : Nat) : Except Raised (Inner α) := do
  let newSize ← newSizeLoop minUsed (minUsed + 1) minSize
  insertAll insertEntryClean {s with
    table := List.replicate newSize .empty,fill := 0,mask := newSize - 1,used := 0} s.table

def grow (s : Inner α) : Except Raised (Inner α) :=
  s.resize (if s.used > 50000 then s.used * 2 else s.used * 4)

def addEntry (s : Inner α) (entry : Entry α) : Except Raised (Inner α) := do
  let (inserted,s) ← s.insertEntry entry
  if inserted ∧ s.fill * 3 ≥ (s.mask + 1) * 2 then s.grow else return s

/-- `isSelf` is the test `other is self`. -/
def merge (s other : Inner α) (isSelf : Bool) : Except Raised (Inner α) := do
  if isSelf ∨ other.used = 0 then return s
  let s ← if (s.fill + other.used) * 3 ≥ (s.mask + 1) * 2
    then s.resize ((s.used + other.used) * 2) else pure s
  if s.fill = 0 ∧ s.mask = other.mask ∧ other.fill = other.used then
    return {s with table := other.table,fill := other.fill,used := other.used}
  if s.fill = 0 then insertAll insertEntryClean s other.table
  else insertAll (fun s entry => do return (← s.insertEntry entry).2) s other.table

def copy (s : Inner α) : Except Raised (Inner α) := new.merge s false

def nextLoop (s : Inner α) : Nat → Nat → Except Raised (Nat × Option (Entry α))
  | 0,_ => .error .diverges
  | rounds+1,pos =>
    if pos > s.mask then .ok (pos,none) else
      match s.table[pos]? with
      | none => .error .indexError
      | some (.live entry) => .ok (pos + 1,some entry)
      | some _ => nextLoop s rounds (pos + 1)

def next (s : Inner α) (pos : Nat) : Except Raised (Nat × Option (Entry α)) :=
  s.nextLoop (s.mask + 2) pos

/-- The loop `while True: (pos, entry) = self.next(pos)` up to its `break`. -/
def entriesLoop (s : Inner α) : Nat → Nat → Except Raised (List (Entry α))
  | 0,_ => .error .diverges
  | rounds+1,pos => do
    match ← s.next pos with
    | (_,none) => return []
    | (pos,some entry) => return entry :: (← entriesLoop s rounds pos)

def entries (s : Inner α) : Except Raised (List (Entry α)) := s.entriesLoop (s.mask + 2) 0

/-- `list(s)` through `_CompatSetIter`. -/
def iterate (s : Inner α) : Except Raised (List α) := do
  return (← s.entries).map Entry.elem

def popLoop (s : Inner α) : Nat → Nat → Except Raised (Nat × Entry α)
  | 0,_ => .error .diverges
  | rounds+1,i =>
    match s.table[i]? with
    | none => .error .indexError
    | some (.live entry) => .ok (i,entry)
    | some _ => popLoop s rounds (if i + 1 > s.mask then 0 else i + 1)

def pop (s : Inner α) : Except Raised (α × Inner α) := do
  if s.used = 0 then throw .keyError
  let (i,entry) ← s.popLoop (s.mask + 1) (s.search &&& s.mask)
  return (entry.elem,{s with table := s.table.set i .removed,used := s.used - 1,search := i + 1})

end Inner
end Table

/-- The arguments the methods tell apart. A built-in set is its elements in its
own iteration order; a `CompatSet` comes with the test `other._inner is self`. -/
inductive Iterable (α : Type) where
  | list (elems : List α)
  | pySet (elems : List α) (distinct : elems.Nodup)
  | compatSet (inner : Inner α) (isSelf : Bool)

section Methods
variable {α : Type} [DecidableEq α] [PyHash α]

namespace Iterable

def elems : Iterable α → Except Raised (List α)
  | .list elems => .ok elems
  | .pySet elems _ => .ok elems
  | .compatSet inner _ => inner.iterate

/-- The same argument passed to a table object that was only just created. -/
def toFresh : Iterable α → Iterable α
  | .compatSet inner _ => .compatSet inner false
  | other => other

end Iterable

namespace Inner

def add (s : Inner α) (elem : α) : Except Raised (Inner α) := s.addEntry (.fromElem elem)

def contains (s : Inner α) (elem : α) : Except Raised Bool := s.containsEntry (.fromElem elem)

def discard (s : Inner α) (elem : α) : Except Raised (Bool × Inner α) :=
  s.discardEntry (.fromElem elem)

def update (s : Inner α) : Iterable α → Except Raised (Inner α)
  | .compatSet inner isSelf => s.merge inner isSelf
  | other => do (← other.elems).foldlM add s

def differenceUpdate (s : Inner α) (other : Iterable α) : Except Raised (Inner α) := do
  if let .compatSet _ true := other then return new
  let s ← (← other.elems).foldlM (fun s elem => do return (← s.discard elem).2) s
  if (s.fill - s.used) * 5 ≥ s.mask then s.grow else return s

def difference (s : Inner α) (other : Iterable α) : Except Raised (Inner α) := do
  match other with
  | .compatSet inner _ =>
    if s.used >>> 2 ≤ inner.used then
      (← s.entries).foldlM (fun res entry => do
        if ← inner.containsEntry entry then return res else res.addEntry entry) new
    else (← s.copy).differenceUpdate other.toFresh
  | .pySet elems _ =>
    if s.used >>> 2 ≤ elems.length then
      (← s.entries).foldlM (fun res entry => do
        if entry.elem ∈ elems then return res else res.addEntry entry) new
    else (← s.copy).differenceUpdate other.toFresh
  | .list _ => (← s.copy).differenceUpdate other.toFresh

def symmetricDifferenceUpdate (s : Inner α) (other : Iterable α) : Except Raised (Inner α) := do
  if let .compatSet _ true := other then return new
  (← other.elems).foldlM (fun s elem => do
    let (discarded,s) ← s.discardEntry (.fromElem elem)
    if discarded then return s else s.addEntry (.fromElem elem)) s

/-- `self.contains_entry(entry)`. Once the operands are swapped the name `self`
stands for the public object, which has no such method. -/
def containsEntryOf (s : Inner α) (swapped : Bool) (entry : Entry α) : Except Raised Bool :=
  if swapped then .error .attributeError else s.containsEntry entry

def intersection (s : Inner α) (other : Iterable α) : Except Raised (Inner α) := do
  match other with
  -- `res.update(self)` loops over a table object, which cannot be iterated.
  | .compatSet _ true => throw .typeError
  | .compatSet inner false =>
    (← inner.entries).foldlM (fun res entry => do
      if ← s.containsEntryOf (inner.used > s.used) entry then res.addEntry entry
      else return res) new
  | .list elems | .pySet elems _ =>
    elems.foldlM (fun res elem => do
      if ← s.containsEntry (.fromElem elem) then res.addEntry (.fromElem elem)
      else return res) new

/-- The entries of `s` at the given positions are all in `other`. -/
def agreeAt (s other : Inner α) : List Nat → Except Raised Bool
  | [] => .ok true
  | pos::rest =>
    match s.table[pos]? with
    | none => .error .indexError
    | some (.live entry) => do
      if ← other.containsEntry entry then agreeAt s other rest else return false
    | some _ => agreeAt s other rest

/-- `__eq__` of the table object: the walk is `range(self._used)`. -/
def equals (s other : Inner α) : Except Raised Bool :=
  if other.used ≠ s.used then .ok false else agreeAt s other (List.range s.used)

end Inner

/-! The public class holds one table object, `_inner`. -/

/-- `CompatSet(elems)`. -/
def init (elems : List α) : Except Raised (Inner α) := Inner.new.update (.list elems)

def remove (s : Inner α) (elem : α) : Except Raised (Inner α) := do
  let (discarded,s) ← s.discard elem
  if discarded then return s else throw .keyError

def updateAll (s : Inner α) (others : List (Iterable α)) : Except Raised (Inner α) :=
  others.foldlM Inner.update s

def union (s : Inner α) (others : List (Iterable α)) : Except Raised (Inner α) := do
  others.foldlM (fun inner other => inner.update other.toFresh) (← s.copy)

def difference (s : Inner α) : List (Iterable α) → Except Raised (Inner α)
  | [] => s.copy
  | first::rest => do
    rest.foldlM (fun inner other => inner.differenceUpdate other.toFresh) (← s.difference first)

def symmetricDifference (s : Inner α) (other : Iterable α) : Except Raised (Inner α) := do
  let inner ← Inner.new.update other.toFresh
  inner.symmetricDifferenceUpdate (.compatSet s false)

def intersection (s : Inner α) : List (Iterable α) → Except Raised (Inner α)
  | [] => s.copy
  | first::rest => do
    rest.foldlM (fun inner other => inner.intersection other.toFresh) (← s.intersection first)

/-- `s & other`. -/
def andOp (s : Inner α) (other : Iterable α) : Except Raised (Inner α) := intersection s [other]

/-- `s &= other`. -/
def iandOp (s : Inner α) (other : Iterable α) : Except Raised (Inner α) := s.intersection other

/-- `s == other`. Of two table objects the one of the argument is asked. -/
def equals (s : Inner α) : Iterable α → Except Raised Bool
  | .compatSet inner _ => inner.equals s
  | .pySet elems _ => do
    return elems.length = s.used && (← s.iterate).all (fun elem => elem ∈ elems)
  | .list _ => .ok false

end Methods
end IndyNode.CompatSet

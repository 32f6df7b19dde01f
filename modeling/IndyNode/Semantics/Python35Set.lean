import IndyNode.CompatSet
import IndyNode.Semantics.SetProgram

/-! The built-in set of CPython 3.5, the reference for iteration orders. It is
written from the behaviour of that set; what it has word for word in common
with `compat_set.py` (the record, the probe sequence, the clean insertion into a
table without markers and the walk over the table) is taken from there. -/
namespace IndyNode.Semantics.Python35Set
open OpenAddressing CompatSet CompatSet.Inner

section Lookup
variable {α : Type} [DecidableEq α]

/-- An empty slot ends the search at the first dummy met, if there is one. -/
def examine (table : List (Slot α)) (entry : Entry α) (freeslot : Option Nat) (i : Nat) :
    Except Raised Probe :=
  match table[i]? with
  | none => .error .indexError
  | some .empty => .ok (.found (freeslot.getD i))
  | some .removed => .ok (.goOn (freeslot.or (some i)))
  | some (.live held) => .ok (if held = entry then .found i else .goOn freeslot)

def examineSlots (table : List (Slot α)) (entry : Entry α) :
    List Nat → Option Nat → Except Raised Probe
  | [],freeslot => .ok (.goOn freeslot)
  | i::rest,freeslot => do
    match ← examine table entry freeslot i with
    | .found index => return .found index
    | .goOn freeslot => examineSlots table entry rest freeslot

def lookkeyLoop (table : List (Slot α)) (mask : Nat) (entry : Entry α) :
    Nat → Nat → Int → Option Nat → Except Raised Nat
  | 0,_,_,_ => .error .diverges
  | rounds+1,i,perturb,freeslot => do
    match ← examineSlots table entry (roundSlots mask i) freeslot with
    | .found index => return index
    | .goOn freeslot =>
      let perturb := perturb >>> perturbShift
      lookkeyLoop table mask entry rounds (nextIndex mask i perturb) perturb freeslot

def lookkey (s : Inner α) (entry : Entry α) : Except Raised Nat :=
  lookkeyLoop s.table s.mask entry (probeRounds s.mask entry.hash)
    (pyAnd entry.hash s.mask) entry.hash none

end Lookup

section Table
variable {α : Type} [DecidableEq α]

def containsEntry (s : Inner α) (entry : Entry α) : Except Raised Bool := do
  match ← s.slotAt (← lookkey s entry) with
  | .live _ => return true
  | _ => return false

def insertKey (s : Inner α) (entry : Entry α) : Except Raised (Inner α) := do
  let index ← lookkey s entry
  match ← s.slotAt index with
  | .empty => return {s with
      table := s.table.set index (.live entry),fill := s.fill + 1,used := s.used + 1}
  | .removed => return {s with table := s.table.set index (.live entry),used := s.used + 1}
  | .live _ => return s

def discardEntry (s : Inner α) (entry : Entry α) : Except Raised (Inner α) := do
  let index ← lookkey s entry
  match ← s.slotAt index with
  | .live _ => return {s with table := s.table.set index .removed,used := s.used - 1}
  | _ => return s

/-- A table that keeps the small size and holds no dummies is left as it is. -/
def tableResize (s : Inner α) (minUsed : Nat) : Except Raised (Inner α) := do
  let newSize ← newSizeLoop minUsed (minUsed + 1) minSize
  if newSize = minSize ∧ s.mask + 1 = minSize ∧ s.fill = s.used then return s
  insertAll insertEntryClean {s with
    table := List.replicate newSize .empty,fill := 0,mask := newSize - 1,used := 0} s.table

def growTable (s : Inner α) : Except Raised (Inner α) :=
  tableResize s (if s.used > 50000 then s.used * 2 else s.used * 4)

def addEntry (s : Inner α) (entry : Entry α) : Except Raised (Inner α) := do
  let before := s.used
  let s ← insertKey s entry
  if s.used > before ∧ s.fill * 3 ≥ (s.mask + 1) * 2 then growTable s else return s

def merge (s other : Inner α) (isSelf : Bool) : Except Raised (Inner α) := do
  if isSelf ∨ other.used = 0 then return s
  let s ← if (s.fill + other.used) * 3 ≥ (s.mask + 1) * 2
    then tableResize s ((s.used + other.used) * 2) else pure s
  if s.fill = 0 ∧ s.mask = other.mask ∧ other.fill = other.used then
    return {s with table := other.table,fill := other.fill,used := other.used}
  if s.fill = 0 then insertAll insertEntryClean s other.table
  else insertAll insertKey s other.table

def copy (s : Inner α) : Except Raised (Inner α) := merge new s false

def iterate (s : Inner α) : Except Raised (List α) := do
  return (← s.entries).map Entry.elem

end Table

/-- An argument is a list, or a set with the test whether it is the receiver. -/
inductive Operand (α : Type) where
  | list (elems : List α)
  | set (inner : Inner α) (isSelf : Bool)

section Methods
variable {α : Type} [DecidableEq α] [PyHash α]

def Operand.elems : Operand α → Except Raised (List α)
  | .list elems => .ok elems
  | .set inner _ => iterate inner

def Operand.toFresh : Operand α → Operand α
  | .list elems => .list elems
  | .set inner _ => .set inner false

def add (s : Inner α) (elem : α) : Except Raised (Inner α) := addEntry s (.fromElem elem)

def discard (s : Inner α) (elem : α) : Except Raised (Inner α) := discardEntry s (.fromElem elem)

def update (s : Inner α) : Operand α → Except Raised (Inner α)
  | .list elems => elems.foldlM add s
  | .set inner isSelf => merge s inner isSelf

def differenceUpdate (s : Inner α) (other : Operand α) : Except Raised (Inner α) := do
  if let .set _ true := other then return new
  let s ← (← other.elems).foldlM discard s
  if (s.fill - s.used) * 5 < s.mask then return s else growTable s

def difference (s : Inner α) (other : Operand α) : Except Raised (Inner α) := do
  match other with
  | .list _ => differenceUpdate (← copy s) other
  | .set inner _ =>
    if s.used >>> 2 > inner.used then differenceUpdate (← copy s) other.toFresh
    else (← s.entries).foldlM (fun res entry => do
      if ← containsEntry inner entry then return res else addEntry res entry) new

def differenceAll (s : Inner α) : List (Operand α) → Except Raised (Inner α)
  | [] => copy s
  | first::rest => do
    rest.foldlM (fun res other => differenceUpdate res other.toFresh) (← difference s first)

end Methods

/-! Programs of the operations whose order is compared. -/

inductive Arg (α : Type) where
  | list (elems : List α)
  | named (name : Nat)

inductive Op (α : Type) where
  | construct (target : Nat) (elems : List α)
  | add (name : Nat) (elem : α)
  | discard (name : Nat) (elem : α)
  | difference (target name : Nat) (others : List (Arg α))
  | update (name : Nat) (others : List (Arg α))

section Programs
variable {α : Type}

def Arg.toProgram : Arg α → SetProgram.Arg α
  | .list elems => .list elems
  | .named name => .named name

def Op.toProgram : Op α → SetProgram.Op α
  | .construct target elems => .construct target elems
  | .add name elem => .add name elem
  | .discard name elem => .discard name elem
  | .difference target name others => .difference target name (others.map Arg.toProgram)
  | .update name others => .update name (others.map Arg.toProgram)

def operand (heap : Nat → Inner α) (receiver : Nat) : Arg α → Operand α
  | .list elems => .list elems
  | .named name => .set (heap name) (name == receiver)

variable [DecidableEq α] [PyHash α]

def step (heap : Nat → Inner α) : Op α → Except Raised (Nat → Inner α)
  | .construct target elems => do
    return Function.update heap target (← elems.foldlM add new)
  | .add name elem => do return Function.update heap name (← add (heap name) elem)
  | .discard name elem => do return Function.update heap name (← discard (heap name) elem)
  | .difference target name others => do
    return Function.update heap target
      (← differenceAll (heap name) (others.map (operand heap name)))
  | .update name others => do
    return Function.update heap name
      (← (others.map (operand heap name)).foldlM update (heap name))

def run (heap : Nat → Inner α) (ops : List (Op α)) : Except Raised (Nat → Inner α) :=
  ops.foldlM step heap

end Programs
end IndyNode.Semantics.Python35Set

import Mathlib.Logic.Function.Basic
import Mathlib.Data.List.Induction

/-! A key-value store that keeps uncommitted writes as batches of operations, and
a state that keeps uncommitted versions as whole snapshots. When every snapshot
is what the operations of its batch make of the one before, both show the same
content, committed and uncommitted, whichever way batches are closed, committed
from the oldest and rejected from the newest. -/
namespace IndyNode

/-- Batches stand oldest first, operations in the order they were made. -/
structure OptimisticStore (κ ν ι : Type) where
  store : κ → Option ν
  batches : List (ι × List (κ × ν))
  current : List (κ × ν)

namespace OptimisticStore
variable {κ ν ι : Type} [DecidableEq κ]

def written (ops : List (κ × ν)) (key : κ) : Option ν :=
  (ops.reverse.find? fun op => op.1 = key).map Prod.snd

def overlay (base : κ → Option ν) (ops : List (κ × ν)) (key : κ) : Option ν :=
  (written ops key).or (base key)

/-- Current operations first, then the batches from the newest on, then the store. -/
def get (cache : OptimisticStore κ ν ι) (key : κ) : Option ν :=
  (written cache.current key).or
    ((cache.batches.reverse.findSome? fun batch => written batch.2 key).or (cache.store key))

def set (cache : OptimisticStore κ ν ι) (key : κ) (value : ν) : OptimisticStore κ ν ι :=
  {cache with current := cache.current ++ [(key,value)]}

def createBatch (cache : OptimisticStore κ ν ι) (idr : ι) : OptimisticStore κ ν ι :=
  {cache with batches := cache.batches ++ [(idr,cache.current)],current := []}

def firstBatchIdr (cache : OptimisticStore κ ν ι) : Option ι := cache.batches.head?.map Prod.fst

/-- Nothing to commit is `none`. -/
def commitBatch (cache : OptimisticStore κ ν ι) : Option (OptimisticStore κ ν ι) :=
  match cache.batches with
  | [] => none
  | batch::batches => some {cache with store := overlay cache.store batch.2,batches := batches}

def rejectBatch (cache : OptimisticStore κ ν ι) : OptimisticStore κ ν ι :=
  {cache with batches := cache.batches.dropLast}

@[simp] theorem overlay_nil (base : κ → Option ν) : overlay base [] = base := rfl

theorem overlay_snoc (base : κ → Option ν) (ops : List (κ × ν)) (key : κ) (value : ν) :
    overlay base (ops ++ [(key,value)]) = Function.update (overlay base ops) key (some value) := by
  funext other
  rw [overlay,written,List.reverse_append,List.reverse_singleton,List.singleton_append,List.find?_cons]
  by_cases same : other = key
  · subst same
    simp
  · rw [Function.update_of_ne same,decide_eq_false (Ne.symm same)]
    rfl

end OptimisticStore

/-- Snapshots stand oldest first; each is the content when its batch was closed. -/
structure SnapshotState (σ : Type) where
  committed : σ
  closed : List σ
  head : σ

namespace SnapshotState
variable {σ : Type}

/-- The content below the operations of the open batch. -/
def settled (state : SnapshotState σ) : σ := state.closed.getLastD state.committed

def apply (state : SnapshotState σ) (next : σ) : SnapshotState σ := {state with head := next}

def close (state : SnapshotState σ) : SnapshotState σ :=
  {state with closed := state.closed ++ [state.head]}

def commit (state : SnapshotState σ) : SnapshotState σ :=
  match state.closed with
  | [] => state
  | oldest::closed => {state with committed := oldest,closed := closed}

def reject (state : SnapshotState σ) : SnapshotState σ :=
  let closed := state.closed.dropLast
  {state with closed := closed,head := closed.getLastD state.committed}

end SnapshotState

open OptimisticStore

section Lockstep
variable {κ ν ι σ : Type} [DecidableEq κ] (image : σ → κ → Option ν) (root : σ → ι)

/-- Every batch is named after its snapshot and leads to it from the one before. -/
inductive Tracks : σ → List (ι × List (κ × ν)) → List σ → Prop
  | nil (base : σ) : Tracks base [] []
  | cons (base snapshot : σ) (ops : List (κ × ν)) (batches : List (ι × List (κ × ν)))
      (closed : List σ) (step : overlay (image base) ops = image snapshot)
      (later : Tracks snapshot batches closed) :
      Tracks base ((root snapshot,ops)::batches) (snapshot::closed)

structure Lockstep (cache : OptimisticStore κ ν ι) (state : SnapshotState σ) : Prop where
  committed : cache.store = image state.committed
  closed : Tracks image root state.committed cache.batches state.closed
  head : overlay (image state.settled) cache.current = image state.head

variable {image root}

theorem Tracks.read {base : σ} {batches : List (ι × List (κ × ν))} {closed : List σ}
    (tracks : Tracks image root base batches closed) (key : κ) :
    (batches.reverse.findSome? fun batch => written batch.2 key).or (image base key) =
      image (closed.getLastD base) key := by
  induction tracks with
  | nil base => rfl
  | cons base snapshot ops batches closed step _ ih =>
    rw [List.getLastD_cons,← ih,List.reverse_cons,List.findSome?_append,List.findSome?_singleton,
      ← step,overlay,Option.or_assoc]

theorem Tracks.snoc {base : σ} {batches : List (ι × List (κ × ν))} {closed : List σ}
    (tracks : Tracks image root base batches closed) (ops : List (κ × ν)) (snapshot : σ)
    (step : overlay (image (closed.getLastD base)) ops = image snapshot) :
    Tracks image root base (batches ++ [(root snapshot,ops)]) (closed ++ [snapshot]) := by
  induction tracks with
  | nil base => exact .cons base snapshot ops [] [] step (.nil snapshot)
  | cons base first others batches closed first_step _ ih =>
    rw [List.getLastD_cons] at step
    exact .cons base first others _ _ first_step (ih step)

theorem Tracks.dropLast {base : σ} {batches : List (ι × List (κ × ν))} {closed : List σ}
    (tracks : Tracks image root base batches closed) :
    Tracks image root base batches.dropLast closed.dropLast := by
  induction tracks with
  | nil base => exact .nil base
  | cons base first ops batches closed step later ih =>
    -- The last batch goes exactly when the last snapshot goes.
    cases later with
    | nil => exact .nil base
    | cons _ second others batches closed _ _ => exact .cons base first ops _ _ step ih

namespace Lockstep
variable {cache : OptimisticStore κ ν ι} {state : SnapshotState σ}

theorem read_head (lockstep : Lockstep image root cache state) (key : κ) :
    cache.get key = image state.head key := by
  rw [OptimisticStore.get,lockstep.committed,lockstep.closed.read key,← lockstep.head]
  rfl

theorem set (lockstep : Lockstep image root cache state) (key : κ) (value : ν) (next : σ)
    (changed : image next = Function.update (image state.head) key (some value)) :
    Lockstep image root (cache.set key value) (state.apply next) where
  committed := lockstep.committed
  closed := lockstep.closed
  head := by
    have below : (state.apply next).settled = state.settled := rfl
    rw [below,OptimisticStore.set,overlay_snoc,lockstep.head]
    exact changed.symm

theorem skip (lockstep : Lockstep image root cache state) (next : σ)
    (same : image next = image state.head) : Lockstep image root cache (state.apply next) where
  committed := lockstep.committed
  closed := lockstep.closed
  head := by
    rw [SnapshotState.apply,same,← lockstep.head]
    rfl

theorem createBatch (lockstep : Lockstep image root cache state) :
    Lockstep image root (cache.createBatch (root state.head)) state.close where
  committed := lockstep.committed
  closed := lockstep.closed.snoc cache.current state.head lockstep.head
  head := by
    rw [OptimisticStore.createBatch,SnapshotState.close,overlay_nil,SnapshotState.settled,
      List.getLastD_concat]

theorem commitBatch (lockstep : Lockstep image root cache state) (oldest : σ) (closed : List σ)
    (opened : state.closed = oldest :: closed) :
    cache.firstBatchIdr = some (root oldest) ∧
      ∃ next, cache.commitBatch = some next ∧ Lockstep image root next state.commit := by
  have tracks := lockstep.closed
  have head := lockstep.head
  rw [opened] at tracks
  rw [SnapshotState.settled,opened,List.getLastD_cons] at head
  cases batches : cache.batches with
  | nil =>
    rw [batches] at tracks
    cases tracks
  | cons batch rest =>
    rw [batches] at tracks
    cases tracks with
    | cons _ _ ops _ _ step later =>
      refine ⟨by rw [firstBatchIdr,batches]; rfl,
        {cache with store := overlay cache.store ops,batches := rest},?_,?_⟩
      · rw [OptimisticStore.commitBatch,batches]
      · refine ⟨?_,?_,?_⟩ <;> simp only [SnapshotState.commit,opened]
        · rw [lockstep.committed]
          exact step
        · exact later
        · exact head

theorem rejectBatch (lockstep : Lockstep image root cache state) (idle : cache.current = []) :
    Lockstep image root cache.rejectBatch state.reject where
  committed := lockstep.committed
  closed := lockstep.closed.dropLast
  head := by
    rw [OptimisticStore.rejectBatch,idle,overlay_nil]
    rfl

end Lockstep
end Lockstep
end IndyNode

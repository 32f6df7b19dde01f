import IndyNode.Foundation.OptimisticStore

/-! A log that is written in batches, next to the snapshots of what it leads to.
Whichever way batches are filled, closed, committed from the oldest and rejected
from the newest, every snapshot is reached by the entries that survive below it. -/
namespace IndyNode

/-- Batches stand oldest first. -/
structure BatchLog (α : Type) where
  committed : List α
  closed : List (List α)
  current : List α

namespace BatchLog
variable {α : Type}

def empty : BatchLog α := ⟨[],[],[]⟩

/-- The entries of a log without the batches that were rejected. -/
def surviving (log : BatchLog α) : List α := log.committed ++ log.closed.flatten ++ log.current

def apply (log : BatchLog α) (entry : α) : BatchLog α := {log with current := log.current ++ [entry]}

def close (log : BatchLog α) : BatchLog α :=
  {log with closed := log.closed ++ [log.current],current := []}

def commit (log : BatchLog α) : BatchLog α :=
  match log.closed with
  | [] => log
  | oldest::closed => {log with committed := log.committed ++ oldest,closed := closed}

def reject (log : BatchLog α) : BatchLog α := {log with closed := log.closed.dropLast}

@[simp] theorem surviving_empty : (empty : BatchLog α).surviving = [] := rfl

@[simp] theorem surviving_apply (log : BatchLog α) (entry : α) :
    (log.apply entry).surviving = log.surviving ++ [entry] := by
  simp [surviving,apply]

@[simp] theorem surviving_close (log : BatchLog α) : log.close.surviving = log.surviving := by
  simp [surviving,close]

@[simp] theorem surviving_commit (log : BatchLog α) : log.commit.surviving = log.surviving := by
  unfold commit
  split
  · rfl
  · rename_i opened
    simp [surviving,opened]

theorem committed_prefix (log : BatchLog α) : log.committed <+: log.surviving :=
  ⟨log.closed.flatten ++ log.current,by simp [surviving]⟩

theorem surviving_reject (log : BatchLog α) (idle : log.current = []) :
    log.reject.surviving <+: log.surviving := by
  have shorter : log.closed.dropLast <+: log.closed := List.dropLast_prefix _
  obtain ⟨rest,shape⟩ := shorter
  refine ⟨rest.flatten,?_⟩
  simp only [surviving,reject,idle,List.append_nil,List.append_assoc]
  rw [← List.flatten_append,shape]

section Reached
variable {σ : Type} (reaches : List α → σ → Prop)

/-- Every closed batch leads on to its snapshot. -/
inductive LeadsTo : List α → List (List α) → List σ → Prop
  | nil (history : List α) : LeadsTo history [] []
  | cons (history batch : List α) (batches : List (List α)) (snapshot : σ) (closed : List σ)
      (reached : reaches (history ++ batch) snapshot) (later : LeadsTo (history ++ batch) batches closed) :
      LeadsTo history (batch::batches) (snapshot::closed)

structure Reached (log : BatchLog α) (state : SnapshotState σ) : Prop where
  committed : reaches log.committed state.committed
  closed : LeadsTo reaches log.committed log.closed state.closed
  head : reaches log.surviving state.head

variable {reaches}

theorem LeadsTo.last {history : List α} {batches : List (List α)} {closed : List σ} {base : σ}
    (leads : LeadsTo reaches history batches closed) (reached : reaches history base) :
    reaches (history ++ batches.flatten) (closed.getLastD base) := by
  induction leads generalizing base with
  | nil history => simpa using reached
  | cons history batch batches snapshot closed here _ ih =>
    rw [List.flatten_cons,← List.append_assoc,List.getLastD_cons]
    exact ih here

theorem LeadsTo.snoc {history : List α} {batches : List (List α)} {closed : List σ}
    (leads : LeadsTo reaches history batches closed) (batch : List α) (snapshot : σ)
    (reached : reaches (history ++ batches.flatten ++ batch) snapshot) :
    LeadsTo reaches history (batches ++ [batch]) (closed ++ [snapshot]) := by
  induction leads with
  | nil history =>
    rw [List.flatten_nil,List.append_nil] at reached
    exact .cons history batch [] snapshot [] reached (.nil _)
  | cons history first batches later closed here _ ih =>
    rw [List.flatten_cons,← List.append_assoc] at reached
    exact .cons history first _ later _ here (ih reached)

theorem LeadsTo.dropLast {history : List α} {batches : List (List α)} {closed : List σ}
    (leads : LeadsTo reaches history batches closed) :
    LeadsTo reaches history batches.dropLast closed.dropLast := by
  induction leads with
  | nil history => exact .nil history
  | cons history batch batches snapshot closed here later ih =>
    -- The last batch goes exactly when the last snapshot goes.
    cases later with
    | nil => exact .nil history
    | cons _ _ _ _ _ _ _ => exact .cons history batch _ snapshot _ here ih

namespace Reached
variable {log : BatchLog α} {state : SnapshotState σ}

theorem start {base : σ} (reached : reaches [] base) :
    Reached reaches (BatchLog.empty : BatchLog α) ⟨base,[],base⟩ :=
  ⟨reached,.nil [],reached⟩

theorem apply (reached : Reached reaches log state) (entry : α) (next : σ)
    (step : reaches (log.surviving ++ [entry]) next) :
    Reached reaches (log.apply entry) (state.apply next) where
  committed := reached.committed
  closed := reached.closed
  head := by
    rw [surviving_apply]
    exact step

theorem close (reached : Reached reaches log state) : Reached reaches log.close state.close where
  committed := reached.committed
  closed := reached.closed.snoc log.current state.head reached.head
  head := by
    rw [surviving_close]
    exact reached.head

theorem commit (reached : Reached reaches log state) : Reached reaches log.commit state.commit := by
  obtain ⟨committed,closed,head⟩ := reached
  rw [← log.surviving_commit] at head
  unfold BatchLog.commit SnapshotState.commit at *
  cases batches : log.closed with
  | nil =>
    rw [batches] at closed head
    cases snapshots : state.closed with
    | nil => exact ⟨committed,by rw [batches,snapshots]; exact .nil _,head⟩
    | cons =>
      rw [snapshots] at closed
      cases closed
  | cons oldest rest =>
    rw [batches] at closed head
    cases snapshots : state.closed with
    | nil =>
      rw [snapshots] at closed
      cases closed
    | cons =>
      rw [snapshots] at closed
      cases closed with
      | cons _ _ _ _ _ here later => exact ⟨here,later,head⟩

theorem reject (reached : Reached reaches log state) (idle : log.current = []) :
    Reached reaches log.reject state.reject where
  committed := reached.committed
  closed := reached.closed.dropLast
  head := by
    have settled := reached.closed.dropLast.last reached.committed
    rw [surviving,BatchLog.reject,idle,List.append_nil]
    exact settled

end Reached
end Reached
end BatchLog
end IndyNode

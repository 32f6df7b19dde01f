import Mathlib.Data.List.Perm.Basic

/-! Actions that run as soon as the queue is served and actions that wait for their
time. What is pending is watched through a selection of the actions. -/
namespace IndyNode

structure ActionQueue (α : Type) where
  queue : List α
  stash : List (Nat × α)
deriving DecidableEq

namespace ActionQueue

section Operations
variable {α : Type} (actions : ActionQueue α)

def empty : ActionQueue α := ⟨[],[]⟩

def schedule (now delay : Nat) (action : α) : ActionQueue α :=
  if 0 < delay then { actions with stash := actions.stash ++ [(now + delay,action)] }
  else { actions with queue := actions.queue ++ [action] }

def clearStash : ActionQueue α := { actions with stash := [] }

/-- Every action whose time has passed goes to the front of the queue. -/
def release (now : Nat) : ActionQueue α where
  queue := ((actions.stash.filter (·.1 < now)).map Prod.snd).reverse ++ actions.queue
  stash := actions.stash.filter fun entry => !decide (entry.1 < now)

end Operations

section Pending
variable {α β : Type} (select : α → Option β) (actions : ActionQueue α)

def ready : List β := actions.queue.filterMap select

def waiting : List β := (actions.stash.map Prod.snd).filterMap select

def pending : List β := actions.ready select ++ actions.waiting select

theorem pending_clearStash : actions.clearStash.pending select = actions.ready select :=
  List.append_nil _

theorem pending_schedule (now delay : Nat) (action : α) :
    ((actions.schedule now delay action).pending select).Perm
      (actions.pending select ++ (select action).toList) := by
  have selected : [action].filterMap select = (select action).toList := by
    cases chosen : select action <;> simp [chosen]
  rw [schedule]
  split
  · simp [pending,ready,waiting,selected]
  · simp only [pending,ready,waiting,List.filterMap_append,selected,List.append_assoc]
    exact List.Perm.append_left _ List.perm_append_comm

theorem pending_release (now : Nat) :
    ((actions.release now).pending select).Perm (actions.pending select) := by
  have parts : (actions.waiting select).Perm
      (((actions.stash.filter (·.1 < now)).map Prod.snd).filterMap select ++
        ((actions.stash.filter fun entry => !decide (entry.1 < now)).map Prod.snd).filterMap select) := by
    rw [← List.filterMap_append,← List.map_append]
    exact ((List.filter_append_perm _ actions.stash).symm.map _).filterMap _
  have front : (((actions.stash.filter (·.1 < now)).map Prod.snd).reverse.filterMap select).Perm
      (((actions.stash.filter (·.1 < now)).map Prod.snd).filterMap select) :=
    (List.reverse_perm _).filterMap _
  simp only [pending,ready,release,List.filterMap_append]
  refine List.Perm.trans ?_ (parts.symm.append_left _)
  rw [← List.append_assoc]
  exact (front.append_right _).trans List.perm_append_comm |>.append_right _

theorem pending_pop (action : α) (rest : List α) (first : actions.queue = action :: rest) :
    actions.pending select = (select action).toList ++ { actions with queue := rest }.pending select := by
  cases chosen : select action <;> simp [pending,ready,waiting,first,chosen]

end Pending
end ActionQueue
end IndyNode

import Mathlib.Data.List.Basic

/-! The meaning of a revocation registry: every index is issued or revoked, and
the last transaction that mentions an index decides. Nothing here refers to a
stored list or to a way of storing it. -/
namespace IndyNode.Semantics.Registry

inductive Status where
  | issued
  | revoked
deriving DecidableEq, Repr

def Status.opposite : Status → Status
  | .issued => .revoked
  | .revoked => .issued

@[simp] theorem Status.opposite_opposite (status : Status) : status.opposite.opposite = status := by
  cases status <;> rfl

@[simp] theorem Status.opposite_ne (status : Status) : status.opposite ≠ status := by
  cases status <;> simp [opposite]

private theorem Status.eq_opposite_of_ne {status other : Status} (differ : status ≠ other) :
    status = other.opposite := by
  cases status <;> cases other <;> simp_all [opposite]

theorem Status.eq_of_iff {ι : Type} (kept : Status) (first second : ι → Status)
    (same : ∀ i, first i = kept ↔ second i = kept) : first = second := by
  funext i
  by_cases holds : first i = kept
  · rw [holds,(same i).mp holds]
  · have other : second i ≠ kept := fun holds_too => holds ((same i).mpr holds_too)
    rw [Status.eq_opposite_of_ne holds,Status.eq_opposite_of_ne other]

/-- What one transaction, or one reply, states about the indices. -/
structure Change (ι : Type) where
  issued : List ι
  revoked : List ι
deriving DecidableEq, Repr

namespace Change
variable {ι : Type}

def listed (change : Change ι) : Status → List ι
  | .issued => change.issued
  | .revoked => change.revoked

def Disjoint (change : Change ι) : Prop := ∀ i ∈ change.issued, i ∉ change.revoked

private theorem Disjoint.apart {change : Change ι} (disjoint : change.Disjoint) (status : Status) (i : ι)
    (member : i ∈ change.listed status) : i ∉ change.listed status.opposite := by
  cases status with
  | issued => exact disjoint i member
  | revoked => exact fun issued => disjoint i issued member

variable [DecidableEq ι]

def mention (change : Change ι) (i : ι) : Option Status :=
  if i ∈ change.revoked then some .revoked
  else if i ∈ change.issued then some .issued
  else none

theorem mention_eq_some {change : Change ι} (disjoint : change.Disjoint) (i : ι) (status : Status) :
    change.mention i = some status ↔ i ∈ change.listed status := by
  have apart := disjoint i
  unfold mention
  cases status with
  | issued =>
    simp only [listed]
    split_ifs <;> simp_all
  | revoked =>
    simp only [listed]
    split_ifs <;> simp_all

private theorem mention_eq_none (change : Change ι) (i : ι) :
    change.mention i = none ↔ ∀ status, i ∉ change.listed status := by
  unfold mention
  constructor
  · intro silent status
    split_ifs at silent with revoked issued
    cases status with
    | issued => exact issued
    | revoked => exact revoked
  · intro silent
    have first := silent .revoked
    have second := silent .issued
    simp_all [listed]

private theorem mention_or {change : Change ι} (disjoint : change.Disjoint) (last : Option Status) (i : ι)
    (status : Status) : (change.mention i).or last = some status ↔
      (last = some status ∧ i ∉ change.listed status.opposite) ∨ i ∈ change.listed status := by
  cases spoken : change.mention i with
  | none =>
    have silent := (mention_eq_none change i).mp spoken
    simp [silent]
  | some found =>
    rw [mention_eq_some disjoint] at spoken
    by_cases same : found = status
    · subst found
      simp [spoken]
    · have opposed := Status.eq_opposite_of_ne same
      have unlisted := disjoint.apart found i spoken
      rw [opposed,Status.opposite_opposite] at unlisted
      rw [opposed] at spoken
      simp [spoken,unlisted,same]

def apply (change : Change ι) (before : ι → Status) (i : ι) : Status :=
  (change.mention i).getD (before i)

theorem apply_eq {change : Change ι} (disjoint : change.Disjoint) (before : ι → Status) (i : ι)
    (status : Status) : change.apply before i = status ↔
      (before i = status ∧ i ∉ change.listed status.opposite) ∨ i ∈ change.listed status := by
  have decided := mention_or disjoint (some (before i)) i status
  rw [Option.some.injEq] at decided
  rw [← decided,apply]
  cases change.mention i <;> simp

end Change

section History
variable {ι : Type} [DecidableEq ι]

def lastMention : List (Change ι) → ι → Option Status
  | [],_ => none
  | change::later,i => (lastMention later i).or (change.mention i)

def status (initial : Status) (history : List (Change ι)) (i : ι) : Status :=
  (lastMention history i).getD initial

private theorem lastMention_append (before after : List (Change ι)) (i : ι) :
    lastMention (before ++ after) i = (lastMention after i).or (lastMention before i) := by
  induction before with
  | nil => simp [lastMention]
  | cons change before ih => rw [List.cons_append,lastMention,ih,lastMention,Option.or_assoc]

private theorem lastMention_snoc (before : List (Change ι)) (change : Change ι) (i : ι) :
    lastMention (before ++ [change]) i = (change.mention i).or (lastMention before i) := by
  rw [lastMention_append,lastMention,lastMention,Option.none_or]

theorem lastMention_step (history : List (Change ι)) (change : Change ι) (disjoint : change.Disjoint)
    (status : Status) (i : ι) :
    lastMention (history ++ [change]) i = some status ↔
      (lastMention history i = some status ∧ i ∉ change.listed status.opposite) ∨
        i ∈ change.listed status := by
  rw [lastMention_snoc,Change.mention_or disjoint]

end History
end IndyNode.Semantics.Registry

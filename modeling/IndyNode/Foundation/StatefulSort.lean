import Mathlib.Data.List.Perm.Basic

/-! Sorting by a comparison that keeps a memory, so that its answers may depend on what it was
asked before. Where the answers respect a preorder the result does too, whatever is answered
for items that tie. -/
namespace IndyNode

section StatefulSort
variable {σ α : Type} (less : α → α → StateM σ Bool)

def insertAfter (item : α) : List α → StateM σ (List α)
  | [] => pure [item]
  | first :: rest => do
    let below ← less item first
    if below then pure (item :: first :: rest)
    else
      let placed ← insertAfter item rest
      pure (first :: placed)

def sortedBy (items : List α) : StateM σ (List α) :=
  items.foldlM (fun done item => insertAfter less item done) []

/-- In the memories reached, an answer only says what the preorder allows. -/
structure Respects (le : α → α → Prop) (good : σ → Prop) : Prop where
  kept : ∀ a b state, good state → good ((less a b).run state).2
  below : ∀ a b state, good state → ((less a b).run state).1 = true → le a b
  notBelow : ∀ a b state, good state → ((less a b).run state).1 = false → le b a

/-- What a run leaves behind: a sorted arrangement of the items and a memory as before. -/
structure Arranges (le : α → α → Prop) (good : σ → Prop) (items : List α) (outcome : List α × σ) : Prop where
  good : good outcome.2
  sorted : outcome.1.Pairwise le
  perm : outcome.1.Perm items

variable {less} {le : α → α → Prop} {good : σ → Prop}

theorem insertAfter_cons (item first : α) (rest : List α) (state : σ) :
    (insertAfter less item (first :: rest)).run state =
      if ((less item first).run state).1 then (item :: first :: rest,((less item first).run state).2)
      else (first :: ((insertAfter less item rest).run ((less item first).run state).2).1,
        ((insertAfter less item rest).run ((less item first).run state).2).2) := by
  rw [insertAfter,StateT.run_bind]
  change (if ((less item first).run state).1 then _ else _ : StateM σ (List α)).run _ = _
  split <;> rfl

theorem insertAfter_arranges (respects : Respects less le good) (trans : ∀ a b c, le a b → le b c → le a c)
    (item : α) (done : List α) (sorted : done.Pairwise le) (state : σ) (fine : good state) :
    Arranges le good (item :: done) ((insertAfter less item done).run state) := by
  induction done generalizing state with
  | nil => exact ⟨fine,List.pairwise_singleton _ _,.refl _⟩
  | cons first rest ih =>
    obtain ⟨least,later⟩ := List.pairwise_cons.mp sorted
    have kept := respects.kept item first state fine
    rw [insertAfter_cons]
    cases answer : ((less item first).run state).1 with
    | true =>
      have below := respects.below item first state fine answer
      rw [if_pos rfl]
      refine ⟨kept,List.pairwise_cons.mpr ⟨?_,sorted⟩,.refl _⟩
      intro other member
      rcases List.mem_cons.mp member with rfl | member
      · exact below
      · exact trans item first other below (least other member)
    | false =>
      have above := respects.notBelow item first state fine answer
      obtain ⟨good,sorted,perm⟩ := ih later _ kept
      rw [if_neg Bool.false_ne_true]
      refine ⟨good,List.pairwise_cons.mpr ⟨?_,sorted⟩,(perm.cons first).trans (.swap item first rest)⟩
      intro other member
      rcases List.mem_cons.mp (perm.mem_iff.mp member) with rfl | member
      · exact above
      · exact least other member

theorem sortedBy_arranges (respects : Respects less le good) (trans : ∀ a b c, le a b → le b c → le a c)
    (items : List α) (state : σ) (fine : good state) :
    Arranges le good items ((sortedBy less items).run state) := by
  suffices all : ∀ done : List α, done.Pairwise le → ∀ state, good state →
      Arranges le good (done ++ items)
        ((items.foldlM (fun done item => insertAfter less item done) done).run state) from
    all [] .nil state fine
  induction items with
  | nil => exact fun done sorted state fine => ⟨fine,sorted,(List.append_nil done).symm ▸ .refl done⟩
  | cons item items ih =>
    intro done sorted state fine
    have placed := insertAfter_arranges respects trans item done sorted state fine
    obtain ⟨good,sorted,perm⟩ := ih _ placed.sorted _ placed.good
    rw [List.foldlM_cons]
    refine ⟨good,sorted,perm.trans ?_⟩
    exact (placed.perm.append_right items).trans List.perm_middle.symm

end StatefulSort
end IndyNode

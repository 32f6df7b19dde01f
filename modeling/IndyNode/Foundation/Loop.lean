import Mathlib.Data.List.Forall2
import Mathlib.Data.List.Induction

/-! Computations that may fail and loops over lists of them: how a result
decomposes, what a whole loop keeps, and when two loops agree. -/
namespace IndyNode

@[simp] theorem ok_bind {ε α β : Type} (value : α) (next : α → Except ε β) :
    (Except.ok value >>= next) = next value := rfl

@[simp] theorem error_bind {ε α β : Type} (error : ε) (next : α → Except ε β) :
    (Except.error error >>= next) = .error error := rfl

theorem throw_eq {ε α : Type} (error : ε) : (throw error : Except ε α) = .error error := rfl

/-- What a call behind a check returns. -/
theorem unless_ok {ε α : Type} {bad : Prop} [Decidable bad] {error : ε} {value result : α}
    (ok : (if bad then .error error else .ok value : Except ε α) = .ok result) : ¬bad ∧ value = result := by
  split at ok
  · cases ok
  · rename_i fine
    exact ⟨fine,Except.ok.inj ok⟩

theorem bind_success {ε α β : Type} (first : Except ε α) (next : α → Except ε β) (result : β)
    (ok : (first >>= next) = .ok result) :
    ∃ value, first = .ok value ∧ next value = .ok result := by
  cases first with
  | error error => simp [bind,Except.bind] at ok
  | ok value => exact ⟨value,rfl,ok⟩

/-- Every error the call can end in is an allowed one. -/
def RaisesOnly {ε α : Type} (allowed : ε → Bool) (call : Except ε α) : Prop :=
  ∀ error, call = .error error → allowed error = true

@[simp] theorem raisesOnly_ok {ε α : Type} (allowed : ε → Bool) (value : α) :
    RaisesOnly allowed (.ok value) := by
  intro error same
  cases same

@[simp] theorem raisesOnly_error {ε α : Type} (allowed : ε → Bool) (error : ε) :
    RaisesOnly (α := α) allowed (.error error) ↔ allowed error = true := by
  constructor
  · intro only
    exact only error rfl
  · intro permits other same
    rwa [← Except.error.inj same]

theorem raisesOnly_bind {ε α β : Type} (allowed : ε → Bool) (first : Except ε α)
    (next : α → Except ε β) :
    RaisesOnly allowed (first >>= next) ↔
      RaisesOnly allowed first ∧ ∀ value, first = .ok value → RaisesOnly allowed (next value) := by
  cases first with
  | error error => simp
  | ok value => simp

/-- A call behind a check that returns nothing. -/
theorem raisesOnly_then {ε β : Type} (allowed : ε → Bool) (check : Except ε Unit) (next : Except ε β) :
    RaisesOnly allowed (check >>= fun _ => next) ↔
      RaisesOnly allowed check ∧ (check = .ok () → RaisesOnly allowed next) := by
  rw [raisesOnly_bind]
  exact and_congr_right fun _ => ⟨fun all => all (),fun one _ => one⟩

theorem raisesOnly_throw_if {ε α : Type} (allowed : ε → Bool) (bad : Prop) [Decidable bad] (error : ε) (value : α)
    (permitted : allowed error = true) : RaisesOnly allowed (if bad then throw error else pure value) := by
  split
  · exact (raisesOnly_error allowed error).mpr permitted
  · exact raisesOnly_ok allowed value

/-- A call that raises nothing that is allowed has to return. -/
theorem raisesOnly_iff_ok {ε α : Type} {allowed : ε → Bool} {call : Except ε α}
    (others : RaisesOnly (fun error => !allowed error) call) :
    RaisesOnly allowed call ↔ ∃ value, call = .ok value := by
  cases call with
  | ok value => exact iff_of_true (raisesOnly_ok _ _) ⟨value,rfl⟩
  | error error =>
    rw [raisesOnly_error] at others ⊢
    simp_all

theorem forM_ok_iff {ε α : Type} (body : α → Except ε Unit) (items : List α) :
    items.forM body = .ok () ↔ ∀ item ∈ items, body item = .ok () := by
  induction items with
  | nil => exact iff_of_true rfl (by simp)
  | cons item items ih =>
    rw [List.forM,List.forall_mem_cons,← ih]
    cases body item with
    | error error => simp
    | ok value => simp

theorem mapM_ok_iff {ε α β : Type} (body : α → Except ε β) (items : List α) (results : List β) :
    items.mapM body = .ok results ↔ List.Forall₂ (fun item result => body item = .ok result) items results := by
  induction items generalizing results with
  | nil => cases results <;> simp [pure,Except.pure]
  | cons item items ih =>
    rw [List.mapM_cons]
    constructor
    · intro mapped
      obtain ⟨first,here,rest⟩ := bind_success _ _ _ mapped
      obtain ⟨others,later,made⟩ := bind_success _ _ _ rest
      obtain rfl := Except.ok.inj made
      exact .cons here ((ih others).mp later)
    · rintro (_ | ⟨here,later⟩)
      rw [here,ok_bind,(ih _).mpr later]
      rfl

theorem mapM_ok_mem {ε α β : Type} {body : α → Except ε β} {items : List α} {results : List β}
    (mapped : items.mapM body = .ok results) (item : α) (member : item ∈ items) :
    ∃ result, body item = .ok result := by
  have rows := (mapM_ok_iff body items results).mp mapped
  induction rows with
  | nil => cases member
  | cons here _ ih =>
    rcases List.mem_cons.mp member with rfl | later
    · exact ⟨_,here⟩
    · exact ih ((mapM_ok_iff _ _ _).mpr ‹_›) later

/-- What a loop raises is raised by the first item that does not pass. -/
theorem raisesOnly_forM {ε α : Type} (allowed : ε → Bool) (body : α → Except ε Unit) (items : List α) :
    RaisesOnly allowed (items.forM body) ↔ ∀ before item after, items = before ++ item :: after →
      (∀ earlier ∈ before, body earlier = .ok ()) → RaisesOnly allowed (body item) := by
  induction items with
  | nil => exact iff_of_true (raisesOnly_ok allowed ()) (by simp)
  | cons first items ih =>
    rw [List.forM,raisesOnly_bind,ih]
    constructor
    · rintro ⟨here,later⟩ before item after shape passed
      cases before with
      | nil =>
        obtain ⟨rfl,_⟩ := List.cons.inj shape
        exact here
      | cons head before =>
        obtain ⟨rfl,rest⟩ := List.cons.inj shape
        exact later () (passed first (by simp)) before item after rest
          fun earlier member => passed earlier (List.mem_cons_of_mem _ member)
    · intro each
      refine ⟨each [] first items rfl (by simp),fun _ passed before item after shape earlier => ?_⟩
      refine each (first :: before) item after (by rw [shape,List.cons_append]) ?_
      exact List.forall_mem_cons.mpr ⟨passed,earlier⟩

/-- The call raises an allowed error or returns a value as required. -/
def Ends {ε α : Type} (allowed : ε → Bool) (call : Except ε α) (post : α → Prop) : Prop :=
  RaisesOnly allowed call ∧ ∀ value, call = .ok value → post value

@[simp] theorem ends_ok {ε α : Type} (allowed : ε → Bool) (value : α) (post : α → Prop) :
    Ends allowed (.ok value) post ↔ post value := by simp [Ends]

@[simp] theorem ends_error {ε α : Type} (allowed : ε → Bool) (error : ε) (post : α → Prop) :
    Ends allowed (.error error) post ↔ allowed error = true := by simp [Ends]

@[simp] theorem ends_pure {ε α : Type} (allowed : ε → Bool) (value : α) (post : α → Prop) :
    Ends allowed (pure value) post ↔ post value := ends_ok allowed value post

@[simp] theorem ends_throw {ε α : Type} (allowed : ε → Bool) (error : ε) (post : α → Prop) :
    Ends allowed (throw error) post ↔ allowed error = true := ends_error allowed error post

@[simp] theorem ends_throw_bind {ε α β : Type} (allowed : ε → Bool) (error : ε) (next : α → Except ε β)
    (post : β → Prop) : Ends allowed (throw error >>= next) post ↔ allowed error = true :=
  ends_error allowed error post

theorem ends_bind {ε α β : Type} (allowed : ε → Bool) (first : Except ε α) (next : α → Except ε β)
    (post : β → Prop) : Ends allowed (first >>= next) post ↔
      Ends allowed first fun value => Ends allowed (next value) post := by
  cases first with
  | error error => simp
  | ok value => simp

theorem ends_unit {ε : Type} {allowed : ε → Bool} {call : Except ε Unit} {handled passed : Prop}
    (raises : RaisesOnly allowed call ↔ handled) (passes : call = .ok () ↔ passed) (post : Unit → Prop) :
    Ends allowed call post ↔ handled ∧ (passed → post ()) := by
  rw [Ends,raises,← passes]
  exact and_congr_right' ⟨fun all => all (),fun one _ => one⟩

/-- A loop body that succeeds from every state satisfying `good` and keeps it
runs to the end of its list. The invariant may speak about the items done. -/
theorem foldlM_invariant {ε σ α : Type} (body : σ → α → Except ε σ)
    (good : List α → σ → Prop) (items : List α) (start : σ)
    (initial : good [] start)
    (advance : ∀ before item after state, items = before ++ item :: after → good before state →
      ∃ next, body state item = .ok next ∧ good (before ++ [item]) next) :
    ∃ final, items.foldlM body start = .ok final ∧ good items final := by
  have general : ∀ rest before state, items = before ++ rest → good before state →
      ∃ final, rest.foldlM body state = .ok final ∧ good items final := by
    intro rest
    induction rest with
    | nil =>
      intro before state shape holds
      refine ⟨state,rfl,?_⟩
      rw [shape,List.append_nil]
      exact holds
    | cons item rest ih =>
      intro before state shape holds
      obtain ⟨next,ok,kept⟩ := advance before item rest state shape holds
      obtain ⟨final,run,done⟩ := ih (before ++ [item]) next (by simpa using shape) kept
      refine ⟨final,?_,done⟩
      rw [List.foldlM_cons,ok]
      exact run
  exact general items [] start (by simp) initial

/-- `permit` holds of every item in the state in which the loop reaches it. -/
def permitted {ε σ α : Type} (body : σ → α → Except ε σ) (permit : σ → α → Bool) :
    List α → σ → Bool
  | [],_ => true
  | item::rest,state => permit state item &&
    match body state item with
    | .ok next => permitted body permit rest next
    | .error _ => true

theorem permitted_of_invariant {ε σ α : Type} (body : σ → α → Except ε σ)
    (permit : σ → α → Bool) (good : List α → σ → Prop) (items : List α) (start : σ)
    (initial : good items start)
    (advance : ∀ item rest state next, good (item::rest) state → body state item = .ok next →
      good rest next)
    (allows : ∀ item rest state, good (item::rest) state → permit state item = true) :
    permitted body permit items start = true := by
  induction items generalizing start with
  | nil => rfl
  | cons item items ih =>
    rw [permitted,allows item items start initial,Bool.true_and]
    split
    · rename_i next result
      exact ih next (advance item items start next initial result)
    · rfl

/-- Two loops agree when their bodies agree on the permitted steps. The
invariant may speak about the items still to come. -/
theorem foldlM_agree {ε σ α : Type} (body reference : σ → α → Except ε σ)
    (permit : σ → α → Bool) (good : List α → σ → Prop) (items : List α) (start : σ)
    (initial : good items start)
    (advance : ∀ item rest state next, good (item::rest) state → body state item = .ok next →
      good rest next)
    (same : ∀ item rest state, good (item::rest) state → permit state item = true →
      reference state item = body state item)
    (allowed : permitted body permit items start = true) :
    items.foldlM reference start = items.foldlM body start := by
  induction items generalizing start with
  | nil => rfl
  | cons item items ih =>
    rw [permitted,Bool.and_eq_true] at allowed
    rw [List.foldlM_cons,List.foldlM_cons,same item items start initial allowed.1]
    cases result : body start item with
    | error error => rfl
    | ok next =>
      have later := allowed.2
      rw [result] at later
      exact ih next (advance item items start next initial result) later

theorem foldlM_same {ε σ α : Type} (body reference : σ → α → Except ε σ)
    (good : List α → σ → Prop) (items : List α) (start : σ) (initial : good items start)
    (advance : ∀ item rest state next, good (item::rest) state → body state item = .ok next →
      good rest next)
    (same : ∀ item rest state, good (item::rest) state → reference state item = body state item) :
    items.foldlM reference start = items.foldlM body start := by
  refine foldlM_agree body reference (fun _ _ => true) good items start initial advance
    (fun item rest state holds _ => same item rest state holds) ?_
  exact permitted_of_invariant body _ good items start initial advance (fun _ _ _ _ => rfl)

section Attempts
variable {ε σ α : Type} (step : σ → α → Except ε σ)

/-- A run in which a request that fails leaves everything as it is. -/
def attempts (start : σ) (requests : List α) : σ :=
  requests.foldl (fun state request => (step state request).toOption.getD state) start

theorem attempts_cons {start after : σ} {request : α} (accepted : step start request = .ok after)
    (rest : List α) : attempts step start (request :: rest) = attempts step after rest := by
  rw [attempts,List.foldl_cons,accepted]
  rfl

theorem attempts_snoc (start : σ) (requests : List α) (last : α) :
    attempts step start (requests ++ [last]) =
      (step (attempts step start requests) last).toOption.getD (attempts step start requests) := by
  rw [attempts,List.foldl_append]
  rfl

/-- An invariant that exactly the safe steps keep holds throughout a run iff all its steps
are safe. -/
theorem always_iff_safe (holds : σ → Prop) (safe : σ → α → Prop) (start : σ) (initial : holds start)
    (each : ∀ state request after, holds state → step state request = .ok after →
      (holds after ↔ safe state request)) (requests : List α) :
    (∀ earlier later, requests = earlier ++ later → holds (attempts step start earlier)) ↔
      ∀ earlier request later after, requests = earlier ++ request :: later →
        step (attempts step start earlier) request = .ok after → safe (attempts step start earlier) request := by
  constructor
  · intro always earlier request later after shape accepted
    refine (each _ request after (always earlier _ shape) accepted).mp ?_
    have next := always (earlier ++ [request]) later (by rw [shape]; simp)
    rwa [attempts_snoc,accepted] at next
  · intro careful earlier
    induction earlier using List.reverseRecOn with
    | nil => exact fun _ _ => initial
    | append_singleton earlier request ih =>
      intro later shape
      have shape : requests = earlier ++ request :: later := by rw [shape]; simp
      have before := ih _ shape
      rw [attempts_snoc]
      cases verdict : step (attempts step start earlier) request with
      | error error => exact before
      | ok after => exact (each _ request after before verdict).mpr (careful earlier request later after shape verdict)

end Attempts
end IndyNode

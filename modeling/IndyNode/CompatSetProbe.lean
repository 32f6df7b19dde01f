import IndyNode.CompatSet
import IndyNode.Foundation.AffineCycle
import Mathlib.Data.Nat.Size

/-! The probe loops read as searches along one explicit path of slots. The path
stays inside the table; for a non-negative hash it meets every slot, and for any
hash it contains every slot the loop would meet in further rounds. -/
namespace IndyNode.CompatSet
open OpenAddressing

def probePath (mask : Nat) : Nat → Nat → Int → List Nat
  | 0,_,_ => []
  | rounds+1,i,perturb =>
    roundSlots mask i ++
      probePath mask rounds (nextIndex mask i (perturb >>> perturbShift)) (perturb >>> perturbShift)

def entryPath {α : Type} (mask : Nat) (entry : Entry α) : List Nat :=
  probePath mask (probeRounds mask entry.hash) (pyAnd entry.hash mask) entry.hash

/-- The outcome of a probe loop whose search ended at `index`, or never ended. -/
def ended : Option Nat → Except Raised Nat
  | some index => .ok index
  | none => .error .diverges

section Loops
variable {α : Type} [DecidableEq α]

private theorem inspect_cases (table : List (Slot α)) (entry : Entry α) (freeIdx : Option Nat)
    (i : Nat) (inside : i < table.length) :
    (stops table entry i = true ∧ inspect table entry freeIdx i = .ok (.found i)) ∨
      (stops table entry i = false ∧
        ∃ next, inspect table entry freeIdx i = .ok (.goOn next)) := by
  unfold inspect stops
  rw [List.getElem?_eq_getElem inside]
  cases table[i] with
  | empty => simp
  | removed => simp
  | live held =>
    by_cases same : held = entry
    · simp [same]
    · simp [same]

private theorem inspectSlots_eq (table : List (Slot α)) (entry : Entry α) (slots : List Nat)
    (freeIdx : Option Nat) (inside : ∀ i ∈ slots, i < table.length) :
    ∃ next, inspectSlots table entry slots freeIdx =
      .ok (match slots.find? (stops table entry) with
        | some index => .found index
        | none => .goOn next) := by
  induction slots generalizing freeIdx with
  | nil => exact ⟨freeIdx,rfl⟩
  | cons i rest ih =>
    rcases inspect_cases table entry freeIdx i (inside i (by simp)) with ⟨stop,found⟩ | ⟨pass,next,on⟩
    · refine ⟨freeIdx,?_⟩
      simp only [inspectSlots,found,bind,Except.bind,pure,Except.pure,List.find?_cons,stop]
    · obtain ⟨final,tail⟩ := ih next (fun j member => inside j (by simp [member]))
      refine ⟨final,?_⟩
      simp only [inspectSlots,on,bind,Except.bind,List.find?_cons,pass]
      exact tail

theorem lookLoop_eq (table : List (Slot α)) (mask : Nat) (entry : Entry α) (rounds i : Nat)
    (perturb : Int) (freeIdx : Option Nat)
    (inside : ∀ j ∈ probePath mask rounds i perturb, j < table.length) :
    lookLoop table mask entry rounds i perturb freeIdx =
      ended (locate table (probePath mask rounds i perturb) entry) := by
  induction rounds generalizing i perturb freeIdx with
  | zero => rfl
  | succ rounds ih =>
    simp only [probePath,List.mem_append] at inside
    obtain ⟨next,first⟩ := inspectSlots_eq table entry (roundSlots mask i) freeIdx
      (fun j member => inside j (.inl member))
    simp only [lookLoop,first,locate,probePath,List.find?_append,bind,Except.bind]
    cases hit : (roundSlots mask i).find? (stops table entry) with
    | some index => rfl
    | none => exact ih _ _ next (fun j member => inside j (.inr member))

private def vacant (table : List (Slot α)) (i : Nat) : Bool := decide (table[i]? = some .empty)

private theorem firstEmpty_eq (table : List (Slot α)) (slots : List Nat)
    (inside : ∀ i ∈ slots, i < table.length) :
    firstEmpty table slots = .ok (slots.find? (vacant table)) := by
  induction slots with
  | nil => rfl
  | cons i rest ih =>
    have bound := inside i (by simp)
    simp only [firstEmpty,List.getElem?_eq_getElem bound,List.find?_cons,vacant]
    cases table[i] with
    | empty => simp
    | removed => simpa using ih (fun j member => inside j (by simp [member]))
    | live held => simpa using ih (fun j member => inside j (by simp [member]))

private theorem cleanLoop_vacant (table : List (Slot α)) (mask rounds i : Nat) (perturb : Int)
    (inside : ∀ j ∈ probePath mask rounds i perturb, j < table.length) :
    cleanLoop table mask rounds i perturb =
      ended ((probePath mask rounds i perturb).find? (vacant table)) := by
  induction rounds generalizing i perturb with
  | zero => rfl
  | succ rounds ih =>
    simp only [probePath,List.mem_append] at inside
    have first := firstEmpty_eq table (roundSlots mask i) (fun j member => inside j (.inl member))
    simp only [cleanLoop,first,probePath,List.find?_append,bind,Except.bind]
    cases hit : (roundSlots mask i).find? (vacant table) with
    | some index => rfl
    | none => exact ih _ _ (fun j member => inside j (.inr member))

/-- For an absent entry the loop of `insert_entry_clean` finds the slot that
`look_entry` would find. -/
theorem cleanLoop_eq (table : List (Slot α)) (mask : Nat) (entry : Entry α) (rounds i : Nat)
    (perturb : Int) (absent : entry ∉ keys table)
    (inside : ∀ j ∈ probePath mask rounds i perturb, j < table.length) :
    cleanLoop table mask rounds i perturb =
      ended (locate table (probePath mask rounds i perturb) entry) := by
  have same : vacant table = stops table entry := by
    funext j
    rw [Bool.eq_iff_iff,stops_iff,vacant,decide_eq_true_eq]
    exact ⟨.inl,fun stop => stop.resolve_right
      (fun held => absent ((mem_keys table entry).mpr ⟨j,held⟩))⟩
  rw [cleanLoop_vacant table mask rounds i perturb inside,same,locate]

end Loops

section Rounds

private theorem roundSlots_le (mask i j : Nat) (start : i ≤ mask) (member : j ∈ roundSlots mask i) :
    j ≤ mask := by
  unfold roundSlots at member
  rcases List.mem_cons.mp member with rfl | linear
  · exact start
  · split at linear
    · rename_i fits
      have bounds := List.mem_range'_1.mp linear
      omega
    · simp at linear

/-- The slot round `n` of a probe loop starts at. -/
def roundIndex (mask : Nat) : Nat → Nat → Int → Nat
  | 0,i,_ => i
  | n+1,i,perturb =>
    roundIndex mask n (nextIndex mask i (perturb >>> perturbShift)) (perturb >>> perturbShift)

private theorem mem_probePath (mask rounds i j : Nat) (perturb : Int) :
    j ∈ probePath mask rounds i perturb ↔
      ∃ n < rounds, j ∈ roundSlots mask (roundIndex mask n i perturb) := by
  induction rounds generalizing i perturb with
  | zero => simp [probePath]
  | succ rounds ih =>
    rw [probePath,List.mem_append,ih]
    constructor
    · rintro (first | ⟨n,early,later⟩)
      · exact ⟨0,Nat.succ_pos _,first⟩
      · exact ⟨n+1,Nat.succ_lt_succ early,later⟩
    · rintro ⟨n,early,member⟩
      cases n with
      | zero => exact .inl member
      | succ n => exact .inr ⟨n,Nat.lt_of_succ_lt_succ early,member⟩

private theorem roundIndex_le (mask n i : Nat) (perturb : Int) (start : i ≤ mask) :
    roundIndex mask n i perturb ≤ mask := by
  induction n generalizing i perturb with
  | zero => exact start
  | succ n ih => exact ih _ _ (pyAnd_le _ _)

/-- The path of every hash stays inside the table. -/
theorem entryPath_le {α : Type} (mask j : Nat) (entry : Entry α)
    (member : j ∈ entryPath mask entry) : j ≤ mask := by
  obtain ⟨n,_,slot⟩ := (mem_probePath _ _ _ _ _).mp member
  exact roundSlots_le mask _ j (roundIndex_le mask n _ _ (pyAnd_le _ _)) slot

private theorem roundIndex_add (mask m n i : Nat) (perturb : Int) :
    roundIndex mask (m+n) i perturb =
      roundIndex mask n (roundIndex mask m i perturb) (perturb >>> (perturbShift * m)) := by
  induction m generalizing i perturb with
  | zero => simp [roundIndex]
  | succ m ih =>
    rw [Nat.succ_add,roundIndex,ih,roundIndex,← Int.shiftRight_add,Nat.mul_succ,Nat.add_comm]

/-- A perturbation that no longer changes leaves a plain recurrence. -/
theorem roundIndex_iterate (mask n i : Nat) (perturb : Int)
    (spent : perturb >>> perturbShift = perturb) :
    roundIndex mask n i perturb = (fun i => nextIndex mask i perturb)^[n] i := by
  induction n generalizing i with
  | zero => rfl
  | succ n ih => rw [roundIndex,spent,ih,Function.iterate_succ_apply]

/-- The perturbation ends in `0`, or in `-1` for a negative hash. -/
theorem perturb_spent (hash : Int) :
    hash >>> (perturbShift * (hash.natAbs.log2 + 1)) = if 0 ≤ hash then 0 else -1 := by
  have wide (n : Nat) (small : n ≤ hash.natAbs) :
      n >>> (perturbShift * (hash.natAbs.log2 + 1)) = 0 := by
    rw [Nat.shiftRight_eq_div_pow,Nat.div_eq_zero_iff]
    right
    have bound : hash.natAbs < 2 ^ (hash.natAbs.log2 + 1) := Nat.lt_log2_self
    have grows : 2 ^ (hash.natAbs.log2 + 1) ≤ 2 ^ (perturbShift * (hash.natAbs.log2 + 1)) :=
      Nat.pow_le_pow_right (by omega) (by unfold perturbShift; omega)
    omega
  cases hash with
  | ofNat n =>
    have shifted := wide n (Nat.le_refl n)
    rw [if_pos (show 0 ≤ Int.ofNat n from Int.natCast_nonneg n)]
    exact congrArg Int.ofNat shifted
  | negSucc m =>
    have shifted := wide m (by simp)
    rw [if_neg (by simp)]
    exact congrArg Int.negSucc shifted

private theorem spent_shift (hash : Int) :
    (if 0 ≤ hash then (0 : Int) else -1) >>> perturbShift = if 0 ≤ hash then 0 else -1 := by
  split <;> rfl

/-- The granted rounds look at every slot the unbounded loop would ever look at. -/
theorem entryPath_exhausts {α : Type} (mask rounds j : Nat) (entry : Entry α)
    (member : j ∈ probePath mask rounds (pyAnd entry.hash mask) entry.hash) :
    j ∈ entryPath mask entry := by
  obtain ⟨n,_,slot⟩ := (mem_probePath _ _ _ _ _).mp member
  refine (mem_probePath _ _ _ _ _).mpr ?_
  by_cases early : n < probeRounds mask entry.hash
  · exact ⟨n,early,slot⟩
  · obtain ⟨d,rfl⟩ : ∃ d, n = entry.hash.natAbs.log2 + 1 + d :=
      ⟨n - (entry.hash.natAbs.log2 + 1),by unfold probeRounds at early; omega⟩
    rw [roundIndex_add,perturb_spent,roundIndex_iterate _ _ _ _ (spent_shift _)] at slot
    obtain ⟨m,bounded,same⟩ := AffineCycle.iterate_within
      (fun i => nextIndex mask i (if 0 ≤ entry.hash then 0 else -1)) (mask+1)
      (roundIndex mask (entry.hash.natAbs.log2 + 1) (pyAnd entry.hash mask) entry.hash) d
      (fun i _ => Nat.lt_succ_of_le (pyAnd_le _ _))
      (Nat.lt_succ_of_le (roundIndex_le _ _ _ _ (pyAnd_le _ _)))
    refine ⟨entry.hash.natAbs.log2 + 1 + m,by unfold probeRounds; omega,?_⟩
    rw [roundIndex_add,perturb_spent,roundIndex_iterate _ _ _ _ (spent_shift _),same]
    exact slot

private theorem perturb_bits (hash : Nat) : (hash : Int) >>> (perturbShift * hash.size) = 0 := by
  have below : hash < 2 ^ (perturbShift * hash.size) :=
    (Nat.lt_size_self hash).trans_le (Nat.pow_le_pow_right two_pos (Nat.le_mul_of_pos_left _ (by decide)))
  change ((hash >>> (perturbShift * hash.size) : Nat) : Int) = 0
  rw [Nat.shiftRight_eq_div_pow,Nat.div_eq_of_lt below]
  rfl

private theorem nextIndex_step (k : Nat) : (fun i => nextIndex (2 ^ k - 1) i 0) = AffineCycle.step 5 1 (2 ^ k) := by
  funext i
  have cast : (i * 5 + 1 + 0 : Int) = ((i * 5 + 1 : Nat) : Int) := by simp
  rw [nextIndex,cast,pyAnd_ofNat,Nat.and_two_pow_sub_one_eq_mod,AffineCycle.step,Nat.mul_comm]

private theorem roundIndex_visits (k start hash slot : Nat) (inside : start < 2 ^ k) (bound : slot < 2 ^ k) :
    ∃ n < hash.size + 2 ^ k, roundIndex (2 ^ k - 1) n start hash = slot := by
  have within : roundIndex (2 ^ k - 1) hash.size start hash < 2 ^ k :=
    (roundIndex_le (2 ^ k - 1) hash.size start hash (Nat.le_pred_of_lt inside)).trans_lt
      (Nat.pred_lt (Nat.two_pow_pos k).ne')
  obtain ⟨n,early,visit⟩ := AffineCycle.visits_all 5 1 k _ slot rfl rfl within bound
  refine ⟨hash.size + n,Nat.add_lt_add_left early _,?_⟩
  rw [roundIndex_add,perturb_bits,roundIndex_iterate _ _ _ _ rfl,nextIndex_step,visit]

/-- The path of a non-negative hash meets every slot of a table of size `2^k`. -/
theorem entryPath_covers {α : Type} (k p : Nat) (entry : Entry α) (nonneg : 0 ≤ entry.hash)
    (bound : p < 2 ^ k) : p ∈ entryPath (2 ^ k - 1) entry := by
  obtain ⟨hash,same⟩ := Int.eq_ofNat_of_zero_le nonneg
  have start : pyAnd entry.hash (2 ^ k - 1) < 2 ^ k :=
    (pyAnd_le entry.hash (2 ^ k - 1)).trans_lt (Nat.pred_lt (Nat.two_pow_pos k).ne')
  obtain ⟨n,early,visit⟩ := roundIndex_visits k _ hash p start bound
  have bits : hash.size ≤ hash.log2 + 1 := Nat.size_le.mpr Nat.lt_log2_self
  refine (mem_probePath _ _ _ _ _).mpr ⟨n,?_,?_⟩
  · rw [probeRounds,same,Int.natAbs_natCast]
    omega
  · rw [← visit,← same,roundSlots]
    exact List.mem_cons_self

end Rounds

section Bound
variable {α : Type} [DecidableEq α]

/-- The rounds of a probe with a non-negative hash start at every slot of the table, within as
many rounds as the hash has bits and the table slots. So a lookup ends, and so does an insertion
into a table without removed entries, if a slot is empty. -/
theorem probes_visit_every_slot (k start : Nat) (inside : start < 2 ^ k) (entry : Entry α)
    (nonneg : 0 ≤ entry.hash) (table : List (Slot α)) (size : table.length = 2 ^ k) :
    (∀ slot < 2 ^ k, ∃ n < entry.hash.toNat.size + 2 ^ k,
      roundIndex (2 ^ k - 1) n start entry.hash = slot) ∧
    ((.empty : Slot α) ∈ table →
      (∃ index, lookLoop table (2 ^ k - 1) entry (entry.hash.toNat.size + 2 ^ k) start entry.hash none = .ok index) ∧
      ∃ index, cleanLoop table (2 ^ k - 1) (entry.hash.toNat.size + 2 ^ k) start entry.hash = .ok index) := by
  obtain ⟨hash,same⟩ := Int.eq_ofNat_of_zero_le nonneg
  have visits (slot : Nat) (bound : slot < 2 ^ k) : ∃ n < entry.hash.toNat.size + 2 ^ k,
      roundIndex (2 ^ k - 1) n start entry.hash = slot := by
    rw [same]
    exact roundIndex_visits k start hash slot inside bound
  refine ⟨visits,fun free => ?_⟩
  obtain ⟨slot,held⟩ := List.mem_iff_getElem?.mp free
  have bound : slot < 2 ^ k := size ▸ (List.getElem?_eq_some_iff.mp held).1
  obtain ⟨n,early,visit⟩ := visits slot bound
  have member : slot ∈ probePath (2 ^ k - 1) (entry.hash.toNat.size + 2 ^ k) start entry.hash := by
    refine (mem_probePath _ _ _ _ _).mpr ⟨n,early,?_⟩
    rw [visit,roundSlots]
    exact List.mem_cons_self
  have path : ∀ j ∈ probePath (2 ^ k - 1) (entry.hash.toNat.size + 2 ^ k) start entry.hash, j < table.length := by
    intro j listed
    obtain ⟨m,_,slots⟩ := (mem_probePath _ _ _ _ _).mp listed
    have le := roundSlots_le _ _ _ (roundIndex_le (2 ^ k - 1) m start entry.hash (Nat.le_pred_of_lt inside)) slots
    have positive := Nat.two_pow_pos k
    omega
  have found (ends : Nat → Bool) (here : ends slot = true) : ∃ index, ended
      ((probePath (2 ^ k - 1) (entry.hash.toNat.size + 2 ^ k) start entry.hash).find? ends) = .ok index := by
    obtain ⟨index,first⟩ := Option.isSome_iff_exists.mp (List.find?_isSome.mpr ⟨slot,member,here⟩)
    exact ⟨index,by rw [first,ended]⟩
  constructor
  · rw [lookLoop_eq table _ entry _ start entry.hash none path]
    exact found _ ((stops_iff table entry slot).mpr (.inl held))
  · rw [cleanLoop_vacant table _ _ start entry.hash path]
    exact found _ (decide_eq_true held)

/-- All slots but one are in use. -/
def crowded : List (Slot Nat) :=
  [.live (.fromElem 0),.live (.fromElem 1),.live (.fromElem 2),.live (.fromElem 3),.live (.fromElem 4),
    .live (.fromElem 5),.empty,.removed]

theorem crowded_searched : (∀ slot < 8, ∃ n < 17, roundIndex 7 n 4 300 = slot) ∧
    (∃ index, lookLoop crowded 7 (.fromElem 300) 17 4 300 none = .ok index) ∧
    ∃ index, cleanLoop crowded 7 17 4 300 = .ok index := by
  have results := probes_visit_every_slot 3 4 (by decide) (.fromElem 300 : Entry Nat) (by decide) crowded rfl
  exact ⟨results.1,results.2 (by simp [crowded])⟩

end Bound
end IndyNode.CompatSet

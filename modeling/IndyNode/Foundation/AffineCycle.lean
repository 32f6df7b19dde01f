import Mathlib.Algebra.BigOperators.Intervals
import Mathlib.Algebra.BigOperators.Ring.Finset
import Mathlib.Algebra.Ring.Parity
import Mathlib.Data.Nat.ModEq
import Mathlib.Data.Nat.Prime.Basic
import Mathlib.Data.Fintype.EquivFin
import Mathlib.Tactic.Ring
import Mathlib.Tactic.NormNum

/-! Full cycles of the affine recurrence `x ↦ a x + c` modulo a power of two.
With `a ≡ 1 (mod 4)` and odd `c` every residue is visited exactly once in any
`2^k` consecutive steps, from any start. -/
namespace IndyNode.AffineCycle
open Finset

/-- The iterates of a map on the numbers below `size` all occur among the first
`size` of them. -/
theorem iterate_within (next : Nat → Nat) (size x n : Nat) (closed : ∀ y < size, next y < size)
    (start : x < size) : ∃ m < size, next^[m] x = next^[n] x := by
  have inside (m : Nat) : next^[m] x < size := by
    induction m with
    | zero => exact start
    | succ m ih =>
      rw [Function.iterate_succ_apply']
      exact closed _ ih
  induction n using Nat.strong_induction_on with
  | _ n ih =>
    by_cases early : n < size
    · exact ⟨n,early,rfl⟩
    · -- Among the iterates `0, …, size` one value occurs twice; the later part can be cut out.
      let visit : Fin (size+1) → Fin size := fun m => ⟨next^[m.val] x,inside m.val⟩
      obtain ⟨a,b,apart,same⟩ := Fintype.exists_ne_map_eq_of_card_lt visit (by simp)
      have same : next^[a.val] x = next^[b.val] x := congrArg Fin.val same
      have cut (a b : Nat) (less : a < b) (bound : b ≤ size) (same : next^[a] x = next^[b] x) :
          ∃ m < size, next^[m] x = next^[n] x := by
        obtain ⟨m,bounded,found⟩ := ih (n - b + a) (by omega)
        refine ⟨m,bounded,?_⟩
        rw [found,Function.iterate_add_apply,same,← Function.iterate_add_apply,Nat.sub_add_cancel (by omega)]
      rcases Nat.lt_or_gt_of_ne (fun equal => apart (Fin.ext equal)) with less | less
      · exact cut a.val b.val less (by omega) same
      · exact cut b.val a.val less (by omega) same.symm

/-- `1 + a + ⋯ + a^(n-1)`, the coefficient of `c` after `n` steps. -/
def geometric (a n : Nat) : Nat := ∑ j ∈ range n, a ^ j

def step (a c modulus x : Nat) : Nat := (a * x + c) % modulus

theorem geometric_succ (a n : Nat) : geometric a (n+1) = geometric a n + a ^ n := by
  simp [geometric,sum_range_succ]

theorem geometric_double (a n : Nat) : geometric a (2*n) = geometric a n * (1 + a ^ n) := by
  have split : geometric a (n+n) = geometric a n + a ^ n * geometric a n := by
    simp only [geometric,sum_range_add,pow_add,mul_sum]
  rw [two_mul,split]
  ring

private theorem pow_mod_four (a n : Nat) (residue : a % 4 = 1) : a ^ n % 4 = 1 := by
  simp [Nat.pow_mod,residue]

private theorem geometric_parity (a n : Nat) (odd : a % 2 = 1) : geometric a n % 2 = n % 2 := by
  induction n with
  | zero => rfl
  | succ n ih =>
    have power : a ^ n % 2 = 1 := by simp [Nat.pow_mod,odd]
    rw [geometric_succ]
    omega

/-- A power of two dividing the geometric sum divides its length. The induction
halves the length: `1 + a^n` contributes exactly one factor of two. -/
theorem dvd_of_dvd_geometric (a k n : Nat) (residue : a % 4 = 1)
    (divides : 2 ^ k ∣ geometric a n) : 2 ^ k ∣ n := by
  induction k generalizing n with
  | zero => simp
  | succ k ih =>
    have parity := geometric_parity a n (by omega)
    have even : 2 ∣ geometric a n := (dvd_pow_self 2 (by omega)).trans divides
    obtain ⟨half,rfl⟩ : 2 ∣ n := by omega
    obtain ⟨m,shape⟩ : ∃ m, 1 + a ^ half = 2 * (2 * m + 1) :=
      ⟨(a ^ half) / 4,by have := pow_mod_four a half residue; omega⟩
    rw [geometric_double,shape,pow_succ'] at divides
    have reduced : 2 ^ k ∣ geometric a half * (2 * m + 1) := by
      apply Nat.dvd_of_mul_dvd_mul_left (by omega : 0 < 2)
      rwa [mul_left_comm] at divides
    have coprime : Nat.Coprime (2 ^ k) (2 * m + 1) := by
      apply Nat.Coprime.pow_left
      simp
    rw [pow_succ']
    exact Nat.mul_dvd_mul_left 2 (ih half (coprime.dvd_of_dvd_mul_right reduced))

theorem iterate_step (a c modulus n x : Nat) :
    (step a c modulus)^[n] x ≡ a ^ n * x + c * geometric a n [MOD modulus] := by
  induction n with
  | zero => simp [geometric,Nat.ModEq]
  | succ n ih =>
    rw [Function.iterate_succ_apply',step]
    have advanced := ((ih.mul_left a).add_right c)
    refine (Nat.mod_modEq _ _).trans (advanced.trans ?_)
    have same : a * (a ^ n * x + c * geometric a n) + c =
        a ^ (n+1) * x + c * geometric a (n+1) := by
      have expand : geometric a (n+1) = 1 + a * geometric a n := by
        simp only [geometric,sum_range_succ',pow_zero,pow_succ,mul_sum]
        rw [add_comm]
        simp only [mul_comm]
      rw [expand]
      ring
    rw [same]

theorem iterate_step_lt (a c modulus n x : Nat) (positive : 0 < modulus) (start : x < modulus) :
    (step a c modulus)^[n] x < modulus := by
  cases n with
  | zero => exact start
  | succ n =>
    rw [Function.iterate_succ_apply']
    exact Nat.mod_lt _ positive

private theorem no_return (a c k d x : Nat) (residue : a % 4 = 1) (odd : c % 2 = 1)
    (returned : (step a c (2 ^ k))^[d] x ≡ x [MOD 2 ^ k]) : 2 ^ k ∣ d := by
  have formula := (iterate_step a c (2 ^ k) d x).symm.trans returned
  have closed : a ^ d = 1 + (a - 1) * geometric a d := by
    clear formula returned
    induction d with
    | zero => simp [geometric]
    | succ d ih =>
      rw [geometric_succ,mul_add,← add_assoc,← ih,pow_succ]
      obtain ⟨b,rfl⟩ : ∃ b, a = b + 1 := ⟨a-1,by omega⟩
      simp only [Nat.add_sub_cancel]
      ring
  have factored : a ^ d * x + c * geometric a d = x + geometric a d * ((a - 1) * x + c) := by
    rw [closed]
    ring
  rw [factored] at formula
  have divides : 2 ^ k ∣ geometric a d * ((a - 1) * x + c) := by
    have shifted : 0 + geometric a d * ((a - 1) * x + c) ≡ 0 [MOD 2 ^ k] := by
      rw [zero_add]
      exact Nat.ModEq.add_left_cancel' x (by simpa using formula)
    simpa [Nat.modEq_zero_iff_dvd] using shifted
  obtain ⟨quarter,shape⟩ : ∃ quarter, a - 1 = 4 * quarter := ⟨(a-1)/4,by omega⟩
  have coprime : Nat.Coprime (2 ^ k) ((a - 1) * x + c) := by
    apply Nat.Coprime.pow_left
    rw [Nat.coprime_two_left,Nat.odd_iff,shape,mul_assoc]
    omega
  exact dvd_of_dvd_geometric a k d residue (coprime.dvd_of_dvd_mul_right divides)

private theorem step_injective (a c k x y : Nat) (odd : a % 2 = 1)
    (same : step a c (2 ^ k) x = step a c (2 ^ k) y) : x ≡ y [MOD 2 ^ k] := by
  have equal : a * x + c ≡ a * y + c [MOD 2 ^ k] := same
  refine Nat.ModEq.cancel_left_of_coprime ?_ (Nat.ModEq.add_right_cancel' c equal)
  have coprime : Nat.Coprime a 2 := (Nat.coprime_two_right).mpr (Nat.odd_iff.mpr odd)
  simpa [Nat.gcd_comm] using coprime.pow_right k

private theorem iterate_injective (a c k m x y : Nat) (odd : a % 2 = 1)
    (same : (step a c (2 ^ k))^[m] x ≡ (step a c (2 ^ k))^[m] y [MOD 2 ^ k]) :
    x ≡ y [MOD 2 ^ k] := by
  induction m with
  | zero => simpa using same
  | succ m ih =>
    simp only [Function.iterate_succ_apply'] at same
    apply ih
    apply step_injective a c k _ _ odd
    have left : step a c (2 ^ k) ((step a c (2 ^ k))^[m] x) < 2 ^ k := Nat.mod_lt _ (by positivity)
    have right : step a c (2 ^ k) ((step a c (2 ^ k))^[m] y) < 2 ^ k := Nat.mod_lt _ (by positivity)
    exact Nat.ModEq.eq_of_lt_of_lt same left right

/-- Within any `2^k` consecutive steps the recurrence meets every residue. -/
theorem visits_all (a c k x target : Nat) (residue : a % 4 = 1) (odd : c % 2 = 1)
    (start : x < 2 ^ k) (bound : target < 2 ^ k) :
    ∃ n < 2 ^ k, (step a c (2 ^ k))^[n] x = target := by
  have positive : 0 < 2 ^ k := by positivity
  let visit : Fin (2 ^ k) → Fin (2 ^ k) := fun n =>
    ⟨(step a c (2 ^ k))^[n.val] x,iterate_step_lt a c _ _ _ positive start⟩
  -- Two visits to one residue are a multiple of the period apart, so a window
  -- shorter than the period holds no repetition and hence no omission.
  have apart (m d : Nat) (far : m + d < 2 ^ k)
      (same : (step a c (2 ^ k))^[m] x = (step a c (2 ^ k))^[m + d] x) : d = 0 := by
    rw [Function.iterate_add_apply] at same
    have returned := iterate_injective a c k m _ _ (by omega) (congrArg (· % 2 ^ k) same)
    have divides := no_return a c k d x residue odd returned.symm
    exact Nat.eq_zero_of_dvd_of_lt divides (by omega)
  have injective : Function.Injective visit := by
    intro m n same
    have same := congrArg Fin.val same
    apply Fin.ext
    rcases Nat.le_total m.val n.val with le | le
    · obtain ⟨d,equal⟩ := Nat.exists_eq_add_of_le le
      have zero := apart m.val d (by omega) (by simpa only [visit,equal] using same)
      omega
    · obtain ⟨d,equal⟩ := Nat.exists_eq_add_of_le le
      have zero := apart n.val d (by omega) (by simpa only [visit,equal] using same.symm)
      omega
  obtain ⟨n,hit⟩ := Finite.surjective_of_injective injective ⟨target,bound⟩
  exact ⟨n.val,n.isLt,congrArg Fin.val hit⟩

end IndyNode.AffineCycle

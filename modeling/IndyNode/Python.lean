import Mathlib.Algebra.Group.Nat.Defs
import Mathlib.Data.Int.Basic
import IndyNode.Foundation.Loop

/-! The Python behaviour the modelled code rests on: exceptions, integer hashing
and the bit operations on unbounded integers. -/
namespace IndyNode

/-- What a call can raise. `diverges` is not an exception of the language: it
marks a loop that has run through its bound without ending. -/
inductive Raised where
  | assertionError
  | attributeError
  | indexError
  | keyError
  | typeError
  | valueError
  | authValidationError (reason : String)
  | invalidClientRequest (identifier : Option String) (reqId : Nat) (reason : String)
  | unauthorizedClientRequest (identifier : Option String) (reqId : Nat) (reason : String)
  | diverges
deriving DecidableEq, Repr

/-- The truth value of a string that may be `None`. -/
def truthy (text : Option String) : Bool := text.getD "" ≠ ""

/-- `hash(x)` of a hashable type. -/
class PyHash (α : Type) where
  hash : α → Int

/-- The modulus of the numeric hash on 64-bit CPython. -/
def hashModulus : Nat := 2^61 - 1

instance : PyHash Nat where
  hash n := (n % hashModulus : Nat)

/-- The value -1 is reserved for errors, so CPython replaces it by -2. -/
instance : PyHash Int where
  hash
    | .ofNat n => (n % hashModulus : Nat)
    | .negSucc m =>
      let folded := -(((m+1) % hashModulus : Nat) : Int)
      if folded = -1 then -2 else folded

/-- `x & mask` for a mask of one bits: a negative `x` is read in two's
complement without a sign limit, so its low bits are those missing from `-x-1`. -/
def pyAnd (x : Int) (mask : Nat) : Nat :=
  match x with
  | .ofNat n => n &&& mask
  | .negSucc m => mask ^^^ (mask &&& m)

@[simp] theorem pyAnd_ofNat (n mask : Nat) : pyAnd (n : Int) mask = n &&& mask := rfl

theorem pyAnd_le (x : Int) (mask : Nat) : pyAnd x mask ≤ mask := by
  cases x with
  | ofNat n => exact Nat.and_le_right
  | negSucc m =>
    have masked : mask ^^^ (mask &&& m) = (mask ^^^ (mask &&& m)) &&& mask := by
      apply Nat.eq_of_testBit_eq
      intro i
      simp only [Nat.testBit_xor,Nat.testBit_and]
      cases mask.testBit i <;> simp
    change mask ^^^ (mask &&& m) ≤ mask
    rw [masked]
    exact Nat.and_le_right

theorem hash_nat_nonneg (n : Nat) : 0 ≤ PyHash.hash n := Int.natCast_nonneg _

theorem hash_int_nonneg (i : Int) (nonneg : 0 ≤ i) : 0 ≤ PyHash.hash i := by
  obtain ⟨n,rfl⟩ := Int.eq_ofNat_of_zero_le nonneg
  exact Int.natCast_nonneg _

end IndyNode

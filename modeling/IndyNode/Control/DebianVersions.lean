import IndyNode.Foundation.StatefulSort
import Mathlib.Data.List.Induction
import Mathlib.Data.Set.Insert

/-! Versions of packages: how they are compared through `dpkg` and a cache of its answers, and
which of the available versions is the latest. -/
namespace IndyNode.Control

/-- The order of `dpkg`, in which differently written versions may be equal. -/
structure DpkgOrder where
  le : String → String → Bool
  total : ∀ a b, le a b = true ∨ le b a = true
  trans : ∀ a b c, le a b = true → le b c = true → le a c = true

namespace DpkgOrder
variable (order : DpkgOrder)

/-- `dpkg --compare-versions a gt b` succeeds. -/
def gt (a b : String) : Bool := !order.le a b

def sign (a b : String) : Int := if order.gt a b then 1 else if order.gt b a then -1 else 0

def Equal (a b : String) : Prop := order.le a b = true ∧ order.le b a = true

end DpkgOrder

section Comparison
variable (order : DpkgOrder)

/-- The latest assignment to a key stands first. -/
abbrev Cache := List ((String × String) × Int)

/-- `_cmp` -/
def rawCmp (v1 v2 : String) : Int := if v1 = v2 then 0 else if order.gt v1 v2 then 1 else -1

def cmp (v1 v2 : String) : StateM Cache Int := fun cache =>
  match cache.lookup (v1,v2) with
  | some result => (result,cache)
  | none =>
    let result := rawCmp order v1 v2
    (result,((v2,v1),result * -1) :: ((v1,v2),result) :: cache)

def lessThan (v1 v2 : String) : StateM Cache Bool := do
  let result ← cmp order v1 v2
  pure (result < 0)

/-- The cache after a sequence of comparisons. -/
def cacheAfter (history : List (String × String)) : Cache :=
  history.foldl (fun cache call => ((cmp order call.1 call.2).run cache).2) []

def answer (history : List (String × String)) (v1 v2 : String) : Int :=
  ((cmp order v1 v2).run (cacheAfter order history)).1

end Comparison

section Versions

structure DebianVersion (U : Type) where
  full : String
  epoch : Option Char
  upstream : U
  revision : Option String

def isUpstreamChar (char : Char) : Bool := char.isAlphanum || ['.','+','-','~'].contains char

def splitEpoch : List Char → Option Char × List Char
  | digit :: ':' :: rest => if digit.isDigit then (some digit,rest) else (none,digit :: ':' :: rest)
  | chars => (none,chars)

/-- The text before the last hyphen and the text after it. -/
def splitRevision (chars : List Char) : List Char × Option String :=
  let last := chars.reverse.takeWhile (· ≠ '-')
  if last.length = chars.length then (chars,none)
  else ((chars.reverse.drop (last.length + 1)).reverse,some (String.ofList last.reverse))

/-- `upstreamCls` reads the upstream version or refuses it. -/
def debianVersion {U : Type} (upstreamCls : String → Option U) (version : String) (keepTilde : Bool) :
    Option (DebianVersion U) := do
  let (epoch,chars) := splitEpoch version.toList
  let first ← chars.head?
  if first.isDigit && chars.all isUpstreamChar then
    let untilded := if keepTilde then chars else chars.map fun char => if char = '~' then '.' else char
    let (upstream,revision) := splitRevision untilded
    let upstream ← upstreamCls (String.ofList upstream)
    some ⟨version,epoch,upstream,revision⟩
  else none

variable {U : Type} [DecidableEq U] (upstreamCls : String → Option U) (upstream : Option U)

/-- The versions that are valid and wanted. -/
def candidates (listed : List String) : List (DebianVersion U) :=
  listed.filterMap fun version =>
    match debianVersion upstreamCls version false with
    | none => none
    | some found => if upstream = none ∨ upstream = some found.upstream then some found else none

/-- `listed` are the versions in the output of the package manager, if it had any. -/
def getLatestPkgVersion (order : DpkgOrder) (listed : Option (List String)) :
    StateM Cache (Option (DebianVersion U)) := do
  match listed with
  | none => pure none
  | some listed =>
    let versions ← sortedBy (fun a b => lessThan order a.full b.full) (candidates upstreamCls upstream listed)
    pure versions.getLast?

end Versions

section Answers
variable {order : DpkgOrder}

private theorem DpkgOrder.refl (order : DpkgOrder) (a : String) : order.le a a = true := (order.total a a).elim id id

private theorem DpkgOrder.le_of_gt {a b : String} (greater : order.gt a b = true) : order.le b a = true := by
  rcases order.total a b with below | above
  · simp [DpkgOrder.gt,below] at greater
  · exact above

private theorem DpkgOrder.gt_false {a b : String} : order.gt a b = false ↔ order.le a b = true := by
  simp [DpkgOrder.gt]

private theorem DpkgOrder.gt_of_le {a b : String} (above : order.le b a = true) (unequal : ¬order.Equal a b) :
    order.gt a b = true := by
  cases below : order.le a b with
  | true => exact absurd ⟨below,above⟩ unequal
  | false => simp [DpkgOrder.gt,below]

variable (order) in
/-- What a comparison may answer: between two texts of one version, either of two signs. -/
def MayAnswer (a b : String) (result : Int) : Prop :=
  if a = b then result = 0
  else result = 1 ∧ order.le b a = true ∨ result = -1 ∧ order.le a b = true

private theorem MayAnswer.reversed {a b : String} {result : Int} (fine : MayAnswer order a b result) :
    MayAnswer order b a (result * -1) := by
  unfold MayAnswer at fine ⊢
  by_cases same : a = b
  · rw [if_pos same] at fine
    rw [if_pos same.symm,fine]
    rfl
  · rw [if_neg same] at fine
    rw [if_neg (Ne.symm same)]
    rcases fine with ⟨rfl,above⟩ | ⟨rfl,below⟩
    · exact .inr ⟨rfl,above⟩
    · exact .inl ⟨rfl,below⟩

private theorem MayAnswer.below {a b : String} {result : Int} (fine : MayAnswer order a b result)
    (negative : result < 0) :
    order.le a b = true := by
  unfold MayAnswer at fine
  split at fine
  · omega
  · rcases fine with ⟨one,-⟩ | ⟨-,below⟩
    · omega
    · exact below

private theorem MayAnswer.above {a b : String} {result : Int} (fine : MayAnswer order a b result)
    (nonnegative : ¬result < 0) : order.le b a = true := by
  by_cases same : a = b
  · rw [same]
    exact order.refl b
  · have reversed := fine.reversed
    rw [MayAnswer,if_neg (Ne.symm same)] at reversed
    rcases reversed with ⟨one,-⟩ | ⟨-,above⟩
    · omega
    · exact above

private theorem rawCmp_mayAnswer (order : DpkgOrder) (a b : String) : MayAnswer order a b (rawCmp order a b) := by
  unfold MayAnswer rawCmp
  by_cases same : a = b
  · rw [if_pos same,if_pos same]
  · rw [if_neg same,if_neg same]
    cases greater : order.gt a b with
    | true => exact .inl ⟨rfl,DpkgOrder.le_of_gt greater⟩
    | false => exact .inr ⟨rfl,DpkgOrder.gt_false.mp greater⟩

variable (order) in
def CacheFine (cache : Cache) : Prop := ∀ entry ∈ cache, MayAnswer order entry.1.1 entry.1.2 entry.2

private theorem cmp_fine {cache : Cache} (fine : CacheFine order cache) (a b : String) :
    MayAnswer order a b ((cmp order a b).run cache).1 ∧ CacheFine order ((cmp order a b).run cache).2 := by
  change MayAnswer order a b (cmp order a b cache).1 ∧ CacheFine order (cmp order a b cache).2
  unfold cmp
  split
  · rename_i result found
    obtain ⟨before,after,rfl,-⟩ := List.lookup_eq_some_iff.mp found
    exact ⟨fine ((a,b),result) (by simp),fine⟩
  · have fresh := rawCmp_mayAnswer order a b
    refine ⟨fresh,fun entry member => ?_⟩
    rcases List.mem_cons.mp member with rfl | member
    · exact fresh.reversed
    · rcases List.mem_cons.mp member with rfl | member
      · exact fresh
      · exact fine entry member

private theorem cacheAfter_fine (history : List (String × String)) : CacheFine order (cacheAfter order history) := by
  unfold cacheAfter
  induction history using List.reverseRecOn with
  | nil => exact fun entry member => absurd member List.not_mem_nil
  | append_singleton history call ih =>
    rw [List.foldl_append]
    exact (cmp_fine ih call.1 call.2).2

private theorem answer_mayAnswer (history : List (String × String)) (a b : String) :
    MayAnswer order a b (answer order history a b) :=
  (cmp_fine (cacheAfter_fine history) a b).1

/-- Between versions that are not two texts of one version the sign is the only answer. -/
theorem mayAnswer_sign {a b : String} {result : Int} (fine : MayAnswer order a b result)
    (apart : order.Equal a b → a = b) : result = order.sign a b := by
  unfold MayAnswer at fine
  unfold DpkgOrder.sign
  by_cases same : a = b
  · subst same
    rw [if_pos rfl] at fine
    simp [fine,DpkgOrder.gt,order.refl]
  · rw [if_neg same] at fine
    rcases fine with ⟨rfl,above⟩ | ⟨rfl,below⟩
    · have greater := DpkgOrder.gt_of_le above fun equal => same (apart equal)
      rw [if_pos greater]
    · have less := DpkgOrder.gt_of_le below fun equal => same (apart equal.symm)
      rw [if_neg (by simp [DpkgOrder.gt,below]),if_pos less]

private theorem mayAnswer_equal {a b : String} {result : Int} (fine : MayAnswer order a b result)
    (equal : order.Equal a b)
    (differ : a ≠ b) : result ≠ order.sign a b := by
  have zero : order.sign a b = 0 := by simp [DpkgOrder.sign,DpkgOrder.gt,equal.1,equal.2]
  rw [zero]
  rw [MayAnswer,if_neg differ] at fine
  rcases fine with ⟨rfl,-⟩ | ⟨rfl,-⟩ <;> decide

end Answers

section Latest
variable (order : DpkgOrder)

private theorem lessThan_respects (U : Type) :
    Respects (fun a b : DebianVersion U => lessThan order a.full b.full)
      (fun a b => order.le a.full b.full = true) (CacheFine order) := by
  refine ⟨fun a b cache kept => (cmp_fine kept a.full b.full).2,fun a b cache kept below => ?_,
    fun a b cache kept above => ?_⟩
  · exact (cmp_fine kept a.full b.full).1.below (of_decide_eq_true below)
  · exact (cmp_fine kept a.full b.full).1.above (of_decide_eq_false above)

variable {U : Type} [DecidableEq U] (upstreamCls : String → Option U) (upstream : Option U)

/-- The latest version is one of the candidates, and none of them is greater. -/
def LatestOf (versions : List (DebianVersion U)) : Option (DebianVersion U) → Prop
  | none => versions = []
  | some latest => latest ∈ versions ∧ ∀ other ∈ versions, order.gt other.full latest.full = false

private theorem latest_run (cache : Cache) (listed : List String) :
    ((getLatestPkgVersion upstreamCls upstream order (some listed)).run cache).1 =
      ((sortedBy (fun a b => lessThan order a.full b.full)
        (candidates upstreamCls upstream listed)).run cache).1.getLast? := by
  rw [getLatestPkgVersion,StateT.run_bind]
  rfl

private theorem latest_unexceeded (cache : Cache) (fine : CacheFine order cache) (listed : List String) :
    LatestOf order (candidates upstreamCls upstream listed)
      ((getLatestPkgVersion upstreamCls upstream order (some listed)).run cache).1 := by
  have arranged := sortedBy_arranges (lessThan_respects order U)
    (fun a b c => order.trans a.full b.full c.full) (candidates upstreamCls upstream listed) cache fine
  rw [latest_run]
  generalize (sortedBy (fun a b => lessThan order a.full b.full)
    (candidates upstreamCls upstream listed)).run cache = outcome at arranged ⊢
  obtain ⟨-,sorted,perm⟩ := arranged
  cases last : outcome.1.getLast? with
  | none =>
    rw [List.getLast?_eq_none_iff.mp last] at perm
    exact List.nil_perm.mp perm
  | some latest =>
    obtain ⟨before,shape⟩ := List.getLast?_eq_some_iff.mp last
    rw [shape] at sorted perm
    refine ⟨perm.mem_iff.mp (by simp),fun other member => ?_⟩
    rw [DpkgOrder.gt_false]
    rcases List.mem_append.mp (perm.mem_iff.mpr member) with earlier | final
    · exact (List.pairwise_append.mp sorted).2.2 other earlier latest (List.mem_singleton_self _)
    · rw [List.mem_singleton.mp final]
      exact order.refl _

end Latest

section Faithful
variable (order : DpkgOrder) (used : Set String)

/-- Among the versions in use a comparison gives the sign of the order, whatever was compared
before. -/
structure Faithful : Prop where
  sign : ∀ history, ∀ a ∈ used, ∀ b ∈ used, answer order history a b = order.sign a b
  antisymmetric : ∀ history, ∀ a ∈ used, ∀ b ∈ used, answer order history b a = -answer order history a b
  transitive : ∀ history, ∀ a ∈ used, ∀ b ∈ used, ∀ c ∈ used, answer order history a b ≤ 0 →
    answer order history b c ≤ 0 → answer order history a c ≤ 0
  independent : ∀ history other, ∀ a ∈ used, ∀ b ∈ used, answer order history a b = answer order other a b
  latest : ∀ history (U : Type) [DecidableEq U] (upstreamCls : String → Option U) upstream listed,
    LatestOf order (candidates upstreamCls upstream listed)
      ((getLatestPkgVersion upstreamCls upstream order (some listed)).run (cacheAfter order history)).1

variable {order}

private theorem sign_antisymmetric (a b : String) : order.sign b a = -order.sign a b := by
  unfold DpkgOrder.sign DpkgOrder.gt
  rcases order.total a b with below | below
  · cases order.le b a <;> simp [below]
  · cases order.le a b <;> simp [below]

private theorem sign_nonpositive (a b : String) : order.sign a b ≤ 0 ↔ order.le a b = true := by
  unfold DpkgOrder.sign DpkgOrder.gt
  cases order.le a b <;> cases order.le b a <;> simp

theorem comparison_faithful_iff (order : DpkgOrder) (used : Set String) :
    Faithful order used ↔ ∀ a ∈ used, ∀ b ∈ used, order.Equal a b → a = b := by
  constructor
  · intro faithful a first b second equal
    by_contra differ
    exact mayAnswer_equal (answer_mayAnswer [] a b) equal differ (faithful.sign [] a first b second)
  · intro apart
    have sign : ∀ history, ∀ a ∈ used, ∀ b ∈ used, answer order history a b = order.sign a b :=
      fun history a first b second => mayAnswer_sign (answer_mayAnswer history a b) (apart a first b second)
    refine ⟨sign,fun history a first b second => ?_,fun history a first b second c third below above => ?_,
      fun history other a first b second => ?_,fun history U _ upstreamCls upstream listed => ?_⟩
    · rw [sign history b second a first,sign history a first b second,sign_antisymmetric]
    · rw [sign history _ first _ second,sign_nonpositive] at below
      rw [sign history _ second _ third,sign_nonpositive] at above
      rw [sign history _ first _ third,sign_nonpositive]
      exact order.trans a b c below above
    · rw [sign history a first b second,sign other a first b second]
    · exact latest_unexceeded order upstreamCls upstream _ (cacheAfter_fine history) listed

/-- Two texts of one version, as `1.0` and `1.00` are for `dpkg`. -/
def sampleOrder : DpkgOrder where
  le a b := if b = "1.0" ∨ b = "1.00" then true else !(a = "1.0" ∨ a = "1.00")
  total a b := by
    by_cases first : a = "1.0" ∨ a = "1.00" <;> by_cases second : b = "1.0" ∨ b = "1.00" <;> simp [first,second]
  trans a b c := by
    by_cases first : a = "1.0" ∨ a = "1.00" <;> by_cases second : b = "1.0" ∨ b = "1.00" <;>
      by_cases third : c = "1.0" ∨ c = "1.00" <;> simp [first,second,third]

theorem two_texts_never_equal :
    sampleOrder.Equal "1.0" "1.00" ∧ answer sampleOrder [] "1.0" "1.00" = -1 ∧
      answer sampleOrder [("1.00","1.0")] "1.0" "1.00" = 1 ∧ ¬Faithful sampleOrder {"1.0","1.00"} := by
  refine ⟨⟨by decide,by decide⟩,by decide,by decide,fun faithful => ?_⟩
  have given := faithful.sign [] "1.0" (Set.mem_insert _ _) "1.00" (Set.mem_insert_of_mem _ rfl)
  exact absurd given (by decide)

end Faithful
end IndyNode.Control

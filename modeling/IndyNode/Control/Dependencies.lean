import Mathlib.Data.Finset.Union
import Mathlib.Data.List.Dedup
import Mathlib.Logic.Function.Basic

/-! The packages that are pinned for an upgrade. Dependencies are followed level by level
through unordered sets, and the first version required of a package is the one it gets. -/
namespace IndyNode.Control

/-- `name=version`, or the name alone. -/
structure Constraint where
  name : String
  version : Option String
deriving DecidableEq, Repr

/-- The version to pin, which is empty if none is required. -/
def Constraint.pin (constraint : Constraint) : String := constraint.version.getD ""

/-- The order in which a set made of a list is iterated. -/
structure SetOrder where
  arrange : List Constraint → List Constraint
  nodup : ∀ items, (arrange items).Nodup
  same : ∀ items, (arrange items).toFinset = items.toFinset

/-- The two sets made at one level: of the packages, and of them with their dependencies. -/
structure LevelOrder where
  packages : SetOrder
  deps : SetOrder

def maxDepsDepth : Nat := 6

section Traversal
variable (repository : Constraint → List Constraint) (holdList : List String)

/-- The first constraint for each name. -/
def pkgsDedup (processed : List String) : List Constraint → List Constraint
  | [] => []
  | dep :: rest =>
    if dep.name ∈ processed then pkgsDedup processed rest
    else dep :: pkgsDedup (dep.name :: processed) rest

/-- The pinned version of a package, if it has one. -/
abbrev DepsMap := String → Option String

def pinDep (depsMap : DepsMap) (dep : Constraint) : DepsMap :=
  if dep.name ∈ holdList ∧ (depsMap dep.name = none ∨ depsMap dep.name = some "") then
    Function.update depsMap dep.name (some dep.pin)
  else depsMap

def levelDeps (order : LevelOrder) (package : List Constraint) : List Constraint :=
  let ret := order.packages.arrange package
  order.deps.arrange (pkgsDedup [] (ret.flatMap repository) ++ ret)

/-- The calls one inside the other, with the orders of one level each. -/
def getDepsTreeFiltered : List LevelOrder → List Constraint → DepsMap → DepsMap
  | [],_,depsMap => depsMap
  | order :: orders,package,depsMap =>
    let deps := levelDeps repository order package
    getDepsTreeFiltered orders deps (deps.foldl (pinDep holdList) depsMap)

/-- What is returned for a package, up to the order of the dictionary. -/
def pinnedVersions (orders : List LevelOrder) (root : Constraint) : List Constraint :=
  holdList.dedup.filterMap fun name =>
    (getDepsTreeFiltered repository holdList orders [root] (fun _ => none) name).map fun version =>
      ⟨name,if version = "" then none else some version⟩

end Traversal

section Sightings
variable (name : String)

/-- A version stays once it is found; an empty one gives way. -/
def settle (before found : Option String) : Option String :=
  match before with
  | none => found
  | some version => if version = "" then some (found.getD "") else some version

/-- What is found for a package in a sequence of constraints. -/
def sight : List Constraint → Option String
  | [] => none
  | dep :: rest => if dep.name = name then settle (some dep.pin) (sight rest) else sight rest

private theorem settle_none (before : Option String) : settle before none = before := by
  cases before with
  | none => rfl
  | some version =>
    rw [settle]
    split
    · rename_i empty
      rw [empty]
      rfl
    · rfl

private theorem settle_assoc (first second third : Option String) :
    settle (settle first second) third = settle first (settle second third) := by
  cases first with
  | none => rfl
  | some version =>
    by_cases empty : version = ""
    · cases second with
      | none => simp [settle,empty]
      | some other => by_cases none : other = "" <;> simp [settle,empty,none]
    · simp [settle,empty]

private theorem sight_append (earlier later : List Constraint) :
    sight name (earlier ++ later) = settle (sight name earlier) (sight name later) := by
  induction earlier with
  | nil => rfl
  | cons dep rest ih =>
    rw [List.cons_append,sight,sight,ih]
    split
    · rw [settle_assoc]
    · rfl

variable (holdList : List String)

private theorem pinDep_sight (depsMap : DepsMap) (dep : Constraint) (held : name ∈ holdList) :
    pinDep holdList depsMap dep name = settle (depsMap name) (sight name [dep]) := by
  unfold pinDep
  rw [sight,sight,settle_none]
  by_cases own : dep.name = name
  · subst own
    rw [if_pos rfl]
    cases known : depsMap dep.name with
    | none => rw [if_pos ⟨held,.inl rfl⟩,Function.update_self,settle]
    | some version =>
      by_cases empty : version = ""
      · subst empty
        rw [if_pos ⟨held,.inr rfl⟩,Function.update_self]
        rfl
      · rw [if_neg (by simp [empty]),known,settle,if_neg empty]
  · rw [if_neg own,settle_none]
    split
    · exact Function.update_of_ne (Ne.symm own) _ _
    · rfl

private theorem fold_sight (deps : List Constraint) (depsMap : DepsMap) (held : name ∈ holdList) :
    deps.foldl (pinDep holdList) depsMap name = settle (depsMap name) (sight name deps) := by
  induction deps generalizing depsMap with
  | nil => rw [List.foldl_nil,sight,settle_none]
  | cons dep rest ih =>
    rw [List.foldl_cons,ih,pinDep_sight name holdList depsMap dep held,settle_assoc,← sight_append]
    rfl

variable (repository : Constraint → List Constraint)

/-- The constraints in the order in which they are met. -/
def metConstraints : List LevelOrder → List Constraint → List Constraint
  | [],_ => []
  | order :: orders,package =>
    levelDeps repository order package ++ metConstraints orders (levelDeps repository order package)

private theorem tree_sight (orders : List LevelOrder) (package : List Constraint) (depsMap : DepsMap)
    (held : name ∈ holdList) : getDepsTreeFiltered repository holdList orders package depsMap name =
      settle (depsMap name) (sight name (metConstraints repository orders package)) := by
  induction orders generalizing package depsMap with
  | nil => rw [getDepsTreeFiltered,metConstraints,sight,settle_none]
  | cons order orders ih =>
    rw [getDepsTreeFiltered,ih,fold_sight name holdList _ _ held,settle_assoc,← sight_append]
    rfl

end Sightings

section Levels
variable (repository : Constraint → List Constraint)

/-- What may follow a level: the level itself and, by some order of its packages, the first
dependency on each name. -/
def NextLevel (level next : Finset Constraint) : Prop :=
  ∃ ret : List Constraint, ret.Nodup ∧ ret.toFinset = level ∧
    next = (pkgsDedup [] (ret.flatMap repository) ++ ret).toFinset

inductive Levels : Finset Constraint → List (Finset Constraint) → Prop where
  | nil (level : Finset Constraint) : Levels level []
  | cons {level next : Finset Constraint} {rest : List (Finset Constraint)} (follows : NextLevel repository level next)
      (later : Levels next rest) : Levels level (next :: rest)

/-- What may be found for a package in one level: one of the versions required there, or the
empty one if the package is required without a version. -/
def LevelSight (name : String) (level : Finset Constraint) (found : Option String) : Prop :=
  (∃ dep ∈ level, dep.name = name ∧ dep.pin ≠ "" ∧ found = some dep.pin) ∨
    (∀ dep ∈ level, dep.name = name → dep.pin = "") ∧
      found = if ∃ dep ∈ level, dep.name = name then some "" else none

def Sighting (name : String) : List (Finset Constraint) → Option String → Prop
  | [],found => found = none
  | level :: rest,found => ∃ here later, LevelSight name level here ∧ Sighting name rest later ∧ found = settle here later

/-- For every package on hold all sequences of levels have one and the same finding. -/
def AgreedSightings (holdList : List String) (root : Constraint) : Prop :=
  ∀ name ∈ holdList, ∀ levels others first second, Levels repository {root} levels → Levels repository {root} others →
    levels.length = maxDepsDepth → others.length = maxDepsDepth →
      Sighting name levels first → Sighting name others second → first = second

private theorem sight_level (name : String) (deps : List Constraint) : LevelSight name deps.toFinset
    (sight name deps) := by
  unfold LevelSight
  simp only [List.mem_toFinset]
  induction deps with
  | nil => exact .inr ⟨by simp,by simp [sight]⟩
  | cons dep rest ih =>
    rw [sight]
    by_cases own : dep.name = name
    · rw [if_pos own]
      by_cases empty : dep.pin = ""
      · rcases ih with ⟨other,member,named,given,found⟩ | ⟨none,found⟩
        · refine .inl ⟨other,List.mem_cons_of_mem _ member,named,given,?_⟩
          rw [found,settle,if_pos empty]
          rfl
        · refine .inr ⟨List.forall_mem_cons.mpr ⟨fun _ => empty,none⟩,?_⟩
          rw [if_pos ⟨dep,List.mem_cons_self,own⟩,found,settle,if_pos empty]
          split <;> rfl
      · exact .inl ⟨dep,List.mem_cons_self,own,empty,by rw [settle,if_neg empty]⟩
    · rw [if_neg own]
      rcases ih with ⟨other,member,found⟩ | ⟨none,found⟩
      · exact .inl ⟨other,List.mem_cons_of_mem _ member,found⟩
      · refine .inr ⟨List.forall_mem_cons.mpr ⟨fun named => absurd named own,none⟩,?_⟩
        simpa [own] using found

private theorem level_sighted {name : String} {level : Finset Constraint} {found : Option String}
    (possible : LevelSight name level found) :
    ∃ deps : List Constraint, deps.Nodup ∧ deps.toFinset = level ∧ sight name deps = found := by
  rcases possible with ⟨dep,member,named,given,rfl⟩ | ⟨none,rfl⟩
  · refine ⟨dep :: (level.erase dep).toList,?_,?_,?_⟩
    · simp [Finset.nodup_toList]
    · simp [Finset.insert_erase member]
    · rw [sight,if_pos named,settle,if_neg given]
  · refine ⟨level.toList,level.nodup_toList,level.toList_toFinset,?_⟩
    have here := sight_level name level.toList
    rw [level.toList_toFinset] at here
    rcases here with ⟨dep,member,named,given,-⟩ | ⟨-,found⟩
    · exact absurd (none dep member named) given
    · exact found

variable {repository}

variable (repository) in
private theorem run_levels (name : String) (orders : List LevelOrder) (package : List Constraint) :
    ∃ levels, Levels repository package.toFinset levels ∧ levels.length = orders.length ∧
      Sighting name levels (sight name (metConstraints repository orders package)) := by
  induction orders generalizing package with
  | nil => exact ⟨[],.nil _,rfl,rfl⟩
  | cons order orders ih =>
    obtain ⟨levels,later,length,found⟩ := ih (levelDeps repository order package)
    refine ⟨(levelDeps repository order package).toFinset :: levels,.cons ?_ later,by simp [length],?_⟩
    · exact ⟨order.packages.arrange package,order.packages.nodup _,order.packages.same _,order.deps.same _⟩
    · exact ⟨_,_,sight_level name _,found,sight_append name _ _⟩

/-- The order that puts one set in a given arrangement. -/
def SetOrder.towards (wanted : List Constraint) (once : wanted.Nodup) : SetOrder where
  arrange items := if items.toFinset = wanted.toFinset then wanted else items.dedup
  nodup items := by
    split
    · exact once
    · exact items.nodup_dedup
  same items := by
    split
    · rename_i equal
      exact equal.symm
    · exact Finset.ext fun dep => by simp

private theorem towards_arrange {wanted items : List Constraint} (once : wanted.Nodup)
    (equal : items.toFinset = wanted.toFinset) : (SetOrder.towards wanted once).arrange items = wanted := if_pos equal

private theorem levels_run {name : String} {level : Finset Constraint} {levels : List (Finset Constraint)}
    (chain : Levels repository level levels) {found : Option String} (possible : Sighting name levels found) :
    ∃ orders : List LevelOrder, orders.length = levels.length ∧ ∀ package : List Constraint, package.toFinset = level →
      sight name (metConstraints repository orders package) = found := by
  induction chain generalizing found with
  | nil level => exact ⟨[],rfl,fun _ _ => possible.symm⟩
  | @cons level next rest follows later ih =>
    obtain ⟨here,behind,first,possible,rfl⟩ := possible
    obtain ⟨orders,length,runs⟩ := ih possible
    obtain ⟨ret,once,arranged,reached⟩ := follows
    obtain ⟨deps,single,same,seen⟩ := level_sighted first
    refine ⟨⟨.towards ret once,.towards deps single⟩ :: orders,by simp [length],fun package given => ?_⟩
    have packages := towards_arrange once (given.trans arranged.symm)
    have made : levelDeps repository ⟨.towards ret once,.towards deps single⟩ package = deps := by
      rw [levelDeps,packages]
      exact towards_arrange single (reached.symm.trans same.symm)
    rw [metConstraints,made,sight_append,seen,runs deps same]

end Levels

section Independence
variable (repository : Constraint → List Constraint) (holdList : List String) (root : Constraint)

/-- The pinned versions do not depend on the orders in which sets are iterated. -/
def OrderFree : Prop :=
  ∀ orders others : List LevelOrder, orders.length = maxDepsDepth → others.length = maxDepsDepth →
    ∀ pinned, pinned ∈ pinnedVersions repository holdList orders root ↔
      pinned ∈ pinnedVersions repository holdList others root

private theorem mem_pinnedVersions (orders : List LevelOrder) (pinned : Constraint) :
    pinned ∈ pinnedVersions repository holdList orders root ↔ pinned.name ∈ holdList ∧
      ∃ version, sight pinned.name (metConstraints repository orders [root]) = some version ∧
        pinned.version = if version = "" then none else some version := by
  unfold pinnedVersions
  simp only [List.mem_filterMap,List.mem_dedup,Option.map_eq_some_iff]
  constructor
  · rintro ⟨name,held,version,found,rfl⟩
    rw [tree_sight name holdList repository orders [root] _ held] at found
    exact ⟨held,version,found,rfl⟩
  · rintro ⟨held,version,found,given⟩
    refine ⟨pinned.name,held,version,?_,?_⟩
    · rw [tree_sight _ holdList repository orders [root] _ held]
      exact found
    · rw [← given]

private theorem pinned_inj {first second : String}
    (same : (if first = "" then none else some first) = if second = "" then none else some second) :
    first = second := by
  by_cases empty : first = "" <;> by_cases other : second = "" <;> simp_all

variable {repository holdList root}

private theorem OrderFree.sighted (free : OrderFree repository holdList root) {orders others : List LevelOrder}
    (depth : orders.length = maxDepsDepth) (sameDepth : others.length = maxDepsDepth) {name : String}
    (held : name ∈ holdList) {version : String}
    (found : sight name (metConstraints repository orders [root]) = some version) :
    sight name (metConstraints repository others [root]) = some version := by
  have pinned := (mem_pinnedVersions repository holdList root orders
    ⟨name,if version = "" then none else some version⟩).mpr ⟨held,version,found,rfl⟩
  rw [free orders others depth sameDepth,mem_pinnedVersions] at pinned
  obtain ⟨-,other,again,same⟩ := pinned
  rw [pinned_inj same]
  exact again

private theorem agreed_order_free (agreed : AgreedSightings repository holdList root) :
    OrderFree repository holdList root := by
  intro orders others depth otherDepth pinned
  rw [mem_pinnedVersions,mem_pinnedVersions]
  refine and_congr_right fun held => ?_
  obtain ⟨levels,chain,length,found⟩ := run_levels repository pinned.name orders [root]
  obtain ⟨otherLevels,otherChain,otherLength,again⟩ := run_levels repository pinned.name others [root]
  have single : [root].toFinset = {root} := by simp
  rw [single] at chain otherChain
  rw [agreed pinned.name held levels otherLevels _ _ chain otherChain (length.trans depth)
    (otherLength.trans otherDepth) found again]

private theorem order_free_iff (repository : Constraint → List Constraint) (holdList : List String)
    (root : Constraint) :
    OrderFree repository holdList root ↔ AgreedSightings repository holdList root := by
  constructor
  · intro free name held levels others first second chain otherChain depth otherDepth found again
    obtain ⟨orders,length,runs⟩ := levels_run chain found
    obtain ⟨otherOrders,otherLength,otherRuns⟩ := levels_run otherChain again
    have one := runs [root] (by simp)
    have two := otherRuns [root] (by simp)
    rw [← one,← two]
    apply Option.ext
    intro version
    exact ⟨free.sighted (length.trans depth) (otherLength.trans otherDepth) held,
      free.sighted (otherLength.trans otherDepth) (length.trans depth) held⟩
  · exact agreed_order_free

end Independence

section Met
variable (repository : Constraint → List Constraint)

/-- A level with everything its members require. -/
def extended (level : Finset Constraint) : Finset Constraint :=
  level ∪ level.biUnion fun package => (repository package).toFinset

/-- What is required within so many levels of the root, by whatever is met there. -/
def metWithin (root : Constraint) : Nat → Finset Constraint
  | 0 => {root}
  | levels + 1 => extended repository (metWithin root levels)

/-- No name comes with two different constraints. -/
def OneEach (level : Finset Constraint) : Prop :=
  ∀ dep ∈ level, ∀ other ∈ level, dep.name = other.name → dep = other

instance (level : Finset Constraint) : Decidable (OneEach level) :=
  inferInstanceAs (Decidable (∀ dep ∈ level, ∀ other ∈ level, dep.name = other.name → dep = other))

private theorem OneEach.part {level whole : Finset Constraint} (single : OneEach whole) (inside : level ⊆ whole) :
    OneEach level := fun dep member other listed => single dep (inside member) other (inside listed)

theorem pkgsDedup_subset {processed : List String} {deps : List Constraint} {dep : Constraint}
    (kept : dep ∈ pkgsDedup processed deps) : dep ∈ deps := by
  induction deps generalizing processed with
  | nil => cases kept
  | cons first rest ih =>
    rw [pkgsDedup] at kept
    split at kept
    · exact List.mem_cons_of_mem _ (ih kept)
    · rcases List.mem_cons.mp kept with rfl | later
      · exact List.mem_cons_self
      · exact List.mem_cons_of_mem _ (ih later)

private theorem pkgsDedup_named {processed : List String} {deps : List Constraint} {dep : Constraint}
    (member : dep ∈ deps)
    (fresh : dep.name ∉ processed) : ∃ kept ∈ pkgsDedup processed deps, kept.name = dep.name := by
  induction deps generalizing processed with
  | nil => cases member
  | cons first rest ih =>
    rw [pkgsDedup]
    by_cases same : first.name = dep.name
    · rw [if_neg (same ▸ fresh)]
      exact ⟨first,List.mem_cons_self,same⟩
    · have later : dep ∈ rest := by
        rcases List.mem_cons.mp member with rfl | later
        · exact absurd rfl same
        · exact later
      split
      · exact ih later fresh
      · obtain ⟨kept,member,named⟩ := ih later (List.not_mem_cons_of_ne_of_not_mem (Ne.symm same) fresh)
        exact ⟨kept,List.mem_cons_of_mem _ member,named⟩

variable {repository}

/-- Where names are not ambiguous nothing is lost by taking the first dependency on each. -/
theorem arranged_extended {ret : List Constraint} (single : OneEach (extended repository ret.toFinset)) :
    (pkgsDedup [] (ret.flatMap repository) ++ ret).toFinset = extended repository ret.toFinset := by
  have required : ∀ dep ∈ ret.flatMap repository, dep ∈ extended repository ret.toFinset := by
    intro dep member
    simpa [extended] using Or.inr (List.mem_flatMap.mp member)
  ext dep
  constructor
  · intro member
    rcases List.mem_append.mp (List.mem_toFinset.mp member) with kept | old
    · exact required dep (pkgsDedup_subset kept)
    · exact Finset.mem_union_left _ (List.mem_toFinset.mpr old)
  · intro member
    rcases Finset.mem_union.mp member with old | new
    · exact List.mem_toFinset.mpr (List.mem_append_right _ (List.mem_toFinset.mp old))
    · obtain ⟨package,listed,needed⟩ := Finset.mem_biUnion.mp new
      have wanted : dep ∈ ret.flatMap repository :=
        List.mem_flatMap.mpr ⟨package,List.mem_toFinset.mp listed,List.mem_toFinset.mp needed⟩
      obtain ⟨kept,found,named⟩ := pkgsDedup_named wanted List.not_mem_nil
      rw [← single kept (required kept (pkgsDedup_subset found)) dep member named]
      exact List.mem_toFinset.mpr (List.mem_append_left _ found)

private theorem nextLevel_extended {level : Finset Constraint} (single : OneEach (extended repository level))
    (next : Finset Constraint) : NextLevel repository level next ↔ next = extended repository level := by
  constructor
  · rintro ⟨ret,-,rfl,rfl⟩
    exact arranged_extended single
  · rintro rfl
    refine ⟨level.toList,level.nodup_toList,level.toList_toFinset,?_⟩
    rw [arranged_extended (by rwa [level.toList_toFinset]),level.toList_toFinset]

variable {root : Constraint}

private theorem metWithin_mono {fewer more : Nat} (within : fewer ≤ more) :
    metWithin repository root fewer ⊆ metWithin repository root more := by
  induction within with
  | refl => exact Finset.Subset.refl _
  | step _ ih => exact ih.trans Finset.subset_union_left

private theorem levels_met {levels : List (Finset Constraint)} {depth : Nat}
    (chain : Levels repository (metWithin repository root depth) levels)
    (single : OneEach (metWithin repository root (depth + levels.length))) :
    levels = (List.range' (depth + 1) levels.length).map (metWithin repository root) := by
  induction levels generalizing depth with
  | nil => rfl
  | cons next rest ih =>
    obtain _ | ⟨follows,later⟩ := chain
    have one : OneEach (metWithin repository root (depth + 1)) :=
      single.part (metWithin_mono (by rw [List.length_cons]; omega))
    obtain rfl := (nextLevel_extended one next).mp follows
    rw [List.length_cons,List.range'_succ,List.map_cons]
    refine congrArg (_ :: ·) (ih later ?_)
    rwa [List.length_cons,Nat.add_comm rest.length,← Nat.add_assoc] at single

private theorem met_levels {rest : List (Finset Constraint)} (depth count : Nat)
    (single : OneEach (metWithin repository root (depth + count)))
    (later : Levels repository (metWithin repository root (depth + count)) rest) :
    Levels repository (metWithin repository root depth)
      ((List.range' (depth + 1) count).map (metWithin repository root) ++ rest) := by
  induction count generalizing depth with
  | zero => exact later
  | succ count ih =>
    rw [List.range'_succ,List.map_cons,List.cons_append]
    have one : OneEach (metWithin repository root (depth + 1)) := single.part (metWithin_mono (by omega))
    refine .cons ((nextLevel_extended one _).mpr rfl) (ih (depth + 1) ?_ ?_)
    · rwa [Nat.add_right_comm]
    · rwa [Nat.add_right_comm]

end Met

section Agreement
variable {repository : Constraint → List Constraint} {root : Constraint} {name : String}

private theorem sighting_single {whole : Finset Constraint} (single : OneEach whole) {levels : List (Finset Constraint)}
    (inside : ∀ level ∈ levels, level ⊆ whole) {first second : Option String} (found : Sighting name levels first)
    (again : Sighting name levels second) : first = second := by
  induction levels generalizing first second with
  | nil => exact Eq.trans found (Eq.symm again)
  | cons level rest ih =>
    obtain ⟨within,inside⟩ := List.forall_mem_cons.mp inside
    obtain ⟨here,later,seen,found,rfl⟩ := found
    obtain ⟨there,behind,seenAgain,again,rfl⟩ := again
    rw [ih inside found again]
    congr 1
    rcases seen with ⟨dep,member,named,given,rfl⟩ | ⟨none,rfl⟩
    · rcases seenAgain with ⟨other,listed,otherNamed,-,rfl⟩ | ⟨none,-⟩
      · rw [single dep (within member) other (within listed) (named.trans otherNamed.symm)]
      · exact absurd (none dep member named) given
    · rcases seenAgain with ⟨other,listed,otherNamed,given,-⟩ | ⟨-,rfl⟩
      · exact absurd (none other listed otherNamed) given
      · rfl

private theorem sighting_skip {levels rest : List (Finset Constraint)} {found : Option String}
    (absent : ∀ level ∈ levels, ∀ dep ∈ level, dep.name ≠ name) (later : Sighting name rest found) :
    Sighting name (levels ++ rest) found := by
  induction levels with
  | nil => exact later
  | cons level levels ih =>
    obtain ⟨here,behind⟩ := List.forall_mem_cons.mp absent
    have nowhere : ¬∃ dep ∈ level, dep.name = name := fun ⟨dep,member,named⟩ => here dep member named
    refine ⟨none,found,.inr ⟨fun dep member named => absurd named (here dep member),?_⟩,ih behind,rfl⟩
    rw [if_neg nowhere]

private theorem single_order_free (holdList : List String) (single : OneEach (metWithin repository root maxDepsDepth)) :
    OrderFree repository holdList root := by
  apply agreed_order_free
  intro name held levels others first second chain otherChain depth otherDepth found again
  have known : ∀ reached : List (Finset Constraint), Levels repository {root} reached →
      reached.length = maxDepsDepth → reached = (List.range' 1 maxDepsDepth).map (metWithin repository root) := by
    intro reached chain depth
    have met := @levels_met repository root reached 0 chain (by rwa [depth,Nat.zero_add])
    rwa [depth] at met
  rw [known levels chain depth] at found
  rw [known others otherChain otherDepth] at again
  refine sighting_single single (fun level member => ?_) found again
  obtain ⟨count,within,rfl⟩ := List.mem_map.mp member
  refine metWithin_mono ?_
  have bounds := List.mem_range'_1.mp within
  omega

private theorem pkgsDedup_first {processed : List String} {deps rest : List Constraint} {dep : Constraint}
    (first : deps.find? (fun other => other.name = name) = some dep) (fresh : name ∉ processed) :
    dep ∈ pkgsDedup processed (deps ++ rest) := by
  induction deps generalizing processed with
  | nil => cases first
  | cons other deps ih =>
    rw [List.cons_append,pkgsDedup]
    by_cases own : other.name = name
    · rw [List.find?_cons_of_pos (by simpa using own)] at first
      rw [if_neg (own ▸ fresh),Option.some.inj first]
      exact List.mem_cons_self
    · rw [List.find?_cons_of_neg (by simpa using own)] at first
      split
      · exact ih first fresh
      · exact List.mem_cons_of_mem _ (ih first (List.not_mem_cons_of_ne_of_not_mem (Ne.symm own) fresh))

private theorem required_next {level : Finset Constraint} {package dep : Constraint} (member : package ∈ level)
    (first : (repository package).find? (fun other => other.name = name) = some dep) :
    ∃ next, NextLevel repository level next ∧ dep ∈ next := by
  refine ⟨_,⟨package :: (level.erase package).toList,?_,?_,rfl⟩,?_⟩
  · simp [Finset.nodup_toList]
  · simp [Finset.insert_erase member]
  · rw [List.mem_toFinset,List.flatMap_cons]
    exact List.mem_append_left _ (pkgsDedup_first first List.not_mem_nil)

/-- Within the levels that are followed, a package is first required by two others at once, and
in different versions. -/
def FirstConflict (repository : Constraint → List Constraint) (root : Constraint) (name : String) : Prop :=
  ∃ depth < maxDepsDepth, OneEach (metWithin repository root depth) ∧
    (∀ dep ∈ metWithin repository root depth, dep.name ≠ name) ∧
    ∃ package ∈ metWithin repository root depth, ∃ other ∈ metWithin repository root depth, ∃ one two : Constraint,
      (repository package).find? (fun dep => dep.name = name) = some one ∧
      (repository other).find? (fun dep => dep.name = name) = some two ∧
      one.pin ≠ "" ∧ two.pin ≠ "" ∧ one.pin ≠ two.pin

/-- Up to the conflict all runs go through the same levels; then either version may come first. -/
theorem version_sighted {depth : Nat} (within : depth < maxDepsDepth)
    (single : OneEach (metWithin repository root depth))
    (absent : ∀ dep ∈ metWithin repository root depth, dep.name ≠ name) {package dep : Constraint}
    (member : package ∈ metWithin repository root depth)
    (first : (repository package).find? (fun other => other.name = name) = some dep) (given : dep.pin ≠ "") :
    ∃ levels, Levels repository {root} levels ∧ levels.length = maxDepsDepth ∧
      Sighting name levels (some dep.pin) := by
  obtain ⟨next,follows,reached⟩ := required_next member first
  have named : dep.name = name := by simpa using List.find?_some first
  obtain ⟨rest,later,length,found⟩ := run_levels repository name
    (List.replicate (maxDepsDepth - depth - 1) ⟨.towards [] List.nodup_nil,.towards [] List.nodup_nil⟩) next.toList
  rw [next.toList_toFinset] at later
  refine ⟨_,met_levels 0 depth (by rwa [Nat.zero_add]) (.cons (by rwa [Nat.zero_add]) later),?_,sighting_skip ?_ ?_⟩
  · simp only [List.length_append,List.length_map,List.length_range',List.length_cons,length,List.length_replicate]
    omega
  · intro level listed
    obtain ⟨count,bounds,rfl⟩ := List.mem_map.mp listed
    intro other inside
    have bounds := List.mem_range'_1.mp bounds
    exact absent other (metWithin_mono (by omega) inside)
  · refine ⟨some dep.pin,_,.inl ⟨dep,reached,named,given,rfl⟩,found,?_⟩
    rw [settle,if_neg given]

end Agreement

section Conflicts

/-- Two dependencies that require different versions of one package. -/
def conflictingRepository (constraint : Constraint) : List Constraint :=
  if constraint.name = "a" then [⟨"b",none⟩,⟨"c",none⟩]
  else if constraint.name = "b" then [⟨"x",some "1"⟩]
  else if constraint.name = "c" then [⟨"x",some "2"⟩] else []

/-- Two dependencies that require the same version. -/
def agreeingRepository (constraint : Constraint) : List Constraint :=
  if constraint.name = "a" then [⟨"b",none⟩,⟨"c",none⟩]
  else if constraint.name = "b" ∨ constraint.name = "c" then [⟨"x",some "1"⟩] else []

def SetOrder.forwards : SetOrder := ⟨List.dedup,List.nodup_dedup,fun items => by ext; simp⟩

def SetOrder.backwards : SetOrder where
  arrange items := items.dedup.reverse
  nodup items := List.nodup_reverse.mpr items.nodup_dedup
  same items := by ext; simp

end Conflicts
end IndyNode.Control

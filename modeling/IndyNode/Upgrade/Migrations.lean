import Mathlib.Data.List.Lex
import Mathlib.Data.List.Nodup
import Mathlib.Data.List.DropRight
import Mathlib.Data.Prod.Lex
import Mathlib.Order.WithBot
import IndyNode.Foundation.Loop
import IndyNode.Foundation.StableSort
import IndyNode.Python

/-! Which migration scripts are run between two versions, and in which order. -/
namespace IndyNode.Upgrade

section Release

def numericPart (part : List Char) : Option Nat :=
  if part ≠ [] ∧ part.all Char.isDigit then
    some (part.foldl (fun number c => 10 * number + (c.toNat - '0'.toNat)) 0)
  else none

/-- The numbers of a release, where zeros at the end do not count. -/
def releaseParts (text : String) : Option (List Nat) :=
  ((text.toList.splitOn '.').mapM numericPart).map fun parts => parts.rdropWhile (· = 0)

end Release

section Scripts
variable {V : Type} [LinearOrder V] (nodeVersion : String → Option V)

/-- `InvalidVersionError` is a `ValueError`. -/
def readVersion (text : String) : Except Raised V :=
  match nodeVersion text with
  | none => .error .valueError
  | some version => .ok version

def compareVersions (verA verB : String) : Except Raised Ordering := do
  let first ← readVersion nodeVersion verA
  let second ← readVersion nodeVersion verB
  return compare first second

def joinVersion (parts : List (List Char)) : String := String.ofList (List.intercalate ['.'] parts)

def getMigrationVersions (migration : String) : Option (String × String) :=
  let split := migration.toList.splitOn '_'
  if split.length ≠ 7 then none else some (joinVersion (split.take 3),joinVersion (split.drop 4))

def compareMigrationScripts (migration1 migration2 : String) : Except Raised Ordering :=
  match getMigrationVersions migration1,getMigrationVersions migration2 with
  | some (original1,new1),some (original2,new2) => do
    if (← compareVersions nodeVersion original1 original2) = .eq then
      compareVersions nodeVersion new1 new2
    else compareVersions nodeVersion original1 original2
  | _,_ => .error .valueError

/-- Only scripts whose versions have been read are sorted, so the comparison does not raise. -/
def sortMigrations (migrations : List String) : List String :=
  migrations.insertionSort fun first second => compareMigrationScripts nodeVersion first second ≠ .ok .gt

/-- One round of the loop. A script that goes the other way is passed over. -/
def considerMigration (currentVersion newVersion : String) (relevant : List String) (migration : String) :
    Except Raised (List String) :=
  match getMigrationVersions migration with
  | none => .ok relevant
  | some (original,new) => do
    if (← compareVersions nodeVersion newVersion currentVersion) ≠ .lt then
      if (← compareVersions nodeVersion original new) = .gt then return relevant
      if (← compareVersions nodeVersion currentVersion original) ≠ .gt ∧
          (← compareVersions nodeVersion newVersion new) ≠ .lt then
        return sortMigrations nodeVersion (relevant ++ [migration])
      return sortMigrations nodeVersion relevant
    else
      if (← compareVersions nodeVersion new original) = .gt then return relevant
      if (← compareVersions nodeVersion currentVersion original) ≠ .lt ∧
          (← compareVersions nodeVersion newVersion new) ≠ .gt then
        return sortMigrations nodeVersion (relevant ++ [migration])
      return sortMigrations nodeVersion relevant

def getRelevantMigrations (scripts : List String) (currentVersion newVersion : String) :
    Except Raised (List String) :=
  scripts.foldlM (considerMigration nodeVersion currentVersion newVersion) []

def migrationSpan (migration : String) : Option (V × V) := do
  let (original,new) ← getMigrationVersions migration
  return (← nodeVersion original,← nodeVersion new)

def ValidlyNamed (migration : String) : Prop := (migrationSpan nodeVersion migration).isSome

/-- A script of no span comes first. -/
def spanKey (migration : String) : WithBot (V ×ₗ V) :=
  (migrationSpan nodeVersion migration).elim ⊥ fun span => (toLex span : V ×ₗ V)

variable {nodeVersion}

private theorem compareVersions_read {textA textB : String} {a b : V} (first : nodeVersion textA = some a)
    (second : nodeVersion textB = some b) : compareVersions nodeVersion textA textB = .ok (compare a b) := by
  simp only [compareVersions,readVersion,first,second,ok_bind]
  rfl

omit [LinearOrder V] in
private theorem migrationSpan_some {migration : String} {span : V × V}
    (named : migrationSpan nodeVersion migration = some span) :
    ∃ original new, getMigrationVersions migration = some (original,new) ∧
      nodeVersion original = some span.1 ∧ nodeVersion new = some span.2 := by
  simp only [migrationSpan,Option.bind_eq_bind,Option.bind_eq_some_iff] at named
  obtain ⟨⟨original,new⟩,split,first,readFirst,second,readSecond,made⟩ := named
  obtain rfl := Option.some.inj made
  exact ⟨original,new,split,readFirst,readSecond⟩

private theorem compareMigrationScripts_span {migration1 migration2 : String} {span1 span2 : V × V}
    (named1 : migrationSpan nodeVersion migration1 = some span1)
    (named2 : migrationSpan nodeVersion migration2 = some span2) :
    compareMigrationScripts nodeVersion migration1 migration2 ≠ .ok .gt ↔
      spanKey nodeVersion migration1 ≤ spanKey nodeVersion migration2 := by
  obtain ⟨original1,new1,split1,start1,end1⟩ := migrationSpan_some named1
  obtain ⟨original2,new2,split2,start2,end2⟩ := migrationSpan_some named2
  have keys : spanKey nodeVersion migration1 ≤ spanKey nodeVersion migration2 ↔
      span1.1 < span2.1 ∨ span1.1 = span2.1 ∧ span1.2 ≤ span2.2 := by
    simp only [spanKey,named1,named2,Option.elim_some,WithBot.coe_le_coe]
    exact Prod.Lex.toLex_le_toLex
  rw [keys]
  simp only [compareMigrationScripts,split1,split2,compareVersions_read start1 start2,
    compareVersions_read end1 end2,ok_bind]
  by_cases same : span1.1 = span2.1
  · simp [same,compare_gt_iff_gt]
  · have other : compare span1.1 span2.1 ≠ .eq := fun equal => same (compare_eq_iff_eq.mp equal)
    simp only [if_neg other,ne_eq,Except.ok.injEq,compare_gt_iff_gt,not_lt,same,false_and,or_false]
    exact ⟨fun below => lt_of_le_of_ne below same,le_of_lt⟩

private theorem sortMigrations_named (migrations : List String)
    (named : ∀ migration ∈ migrations, ValidlyNamed nodeVersion migration) :
    sortMigrations nodeVersion migrations = keySort (spanKey nodeVersion) migrations := by
  apply keySort_of_agree
  intro first inFirst second inSecond
  obtain ⟨span1,named1⟩ := Option.isSome_iff_exists.mp (named first inFirst)
  obtain ⟨span2,named2⟩ := Option.isSome_iff_exists.mp (named second inSecond)
  exact compareMigrationScripts_span named1 named2

end Scripts

section Relevant
variable {V : Type} [LinearOrder V] {nodeVersion : String → Option V}

def LiesBetween (current new version : V) : Prop :=
  current ≤ version ∧ version ≤ new ∨ new ≤ version ∧ version ≤ current

/-- Both ends lie between the two versions, and the script goes from the one to the other. -/
def Relevant (current new : V) (span : V × V) : Prop :=
  LiesBetween current new span.1 ∧ LiesBetween current new span.2 ∧
    if current ≤ new then span.1 ≤ span.2 else span.2 ≤ span.1

instance (current new : V) (span : V × V) : Decidable (Relevant current new span) := by
  unfold Relevant LiesBetween
  infer_instance

def isRelevant (nodeVersion : String → Option V) (current new : V) (migration : String) : Bool :=
  (migrationSpan nodeVersion migration).any fun span => Relevant current new span

theorem relevant_upgrade {current new : V} (up : current ≤ new) (span : V × V) :
    Relevant current new span ↔ span.1 ≤ span.2 ∧ current ≤ span.1 ∧ span.2 ≤ new := by
  simp only [Relevant,LiesBetween,if_pos up]
  grind

theorem relevant_downgrade {current new : V} (down : new < current) (span : V × V) :
    Relevant current new span ↔ span.2 ≤ span.1 ∧ span.1 ≤ current ∧ new ≤ span.2 := by
  simp only [Relevant,LiesBetween,if_neg (not_le.mpr down)]
  grind

variable {currentVersion newVersion : String} {current new : V}

/-- One turn of the loop: a script of the other direction is passed over without a sort. -/
theorem taken_or_left {A : Type} {otherWay inside : Prop} [Decidable otherWay] [Decidable inside]
    (left taken sorted : A) :
    (¬otherWay ∧ inside → (if otherWay then left else if inside then taken else sorted) = taken) ∧
      (¬(¬otherWay ∧ inside) →
        (if otherWay then left else if inside then taken else sorted) = left ∨
        (if otherWay then left else if inside then taken else sorted) = sorted) := by
  by_cases other : otherWay
  · rw [if_pos other]
    exact ⟨fun fits => absurd other fits.1,fun _ => .inl rfl⟩
  · rw [if_neg other]
    by_cases within : inside
    · rw [if_pos within]
      exact ⟨fun _ => rfl,fun unfit => absurd ⟨other,within⟩ unfit⟩
    · rw [if_neg within]
      exact ⟨fun fits => absurd fits.2 within,fun _ => .inr rfl⟩

private theorem considerMigration_span (readCurrent : nodeVersion currentVersion = some current)
    (readNew : nodeVersion newVersion = some new) (relevant : List String) {migration : String}
    {span : V × V} (named : migrationSpan nodeVersion migration = some span) :
    (Relevant current new span → considerMigration nodeVersion currentVersion newVersion relevant migration =
        .ok (sortMigrations nodeVersion (relevant ++ [migration]))) ∧
      (¬Relevant current new span →
        considerMigration nodeVersion currentVersion newVersion relevant migration = .ok relevant ∨
        considerMigration nodeVersion currentVersion newVersion relevant migration =
          .ok (sortMigrations nodeVersion relevant)) := by
  obtain ⟨originalText,newText,split,readStart,readEnd⟩ := migrationSpan_some named
  simp only [considerMigration,split,compareVersions_read readNew readCurrent,
    compareVersions_read readStart readEnd,compareVersions_read readEnd readStart,
    compareVersions_read readCurrent readStart,compareVersions_read readNew readEnd,ok_bind,ne_eq,
    compare_lt_iff_lt,compare_gt_iff_gt,not_lt]
  by_cases up : current ≤ new
  · rw [relevant_upgrade up,if_pos up,← not_lt]
    exact taken_or_left _ _ _
  · rw [relevant_downgrade (not_le.mp up),if_neg up,← not_lt]
    exact taken_or_left _ _ _

theorem isRelevant_iff (migration : String) : isRelevant nodeVersion current new migration = true ↔
    ∃ span, migrationSpan nodeVersion migration = some span ∧ Relevant current new span := by
  cases spanned : migrationSpan nodeVersion migration <;> simp [isRelevant,spanned]

theorem getRelevantMigrations_sorted (readCurrent : nodeVersion currentVersion = some current)
    (readNew : nodeVersion newVersion = some new) (scripts : List String)
    (named : ∀ migration ∈ scripts, ValidlyNamed nodeVersion migration) :
    ∃ result, getRelevantMigrations nodeVersion scripts currentVersion newVersion = .ok result ∧
      StablySorted (spanKey nodeVersion) (scripts.filter (isRelevant nodeVersion current new)) result := by
  refine foldlM_invariant _ (fun done result => StablySorted (spanKey nodeVersion)
    (done.filter (isRelevant nodeVersion current new)) result) scripts [] .nil ?_
  intro before migration after result shape stable
  have listed : migration ∈ scripts := by simp [shape]
  obtain ⟨span,spanned⟩ := Option.isSome_iff_exists.mp (named migration listed)
  have chosen : ∀ migration ∈ result, ValidlyNamed nodeVersion migration := by
    intro migration member
    obtain ⟨span,spanned,_⟩ := (isRelevant_iff migration).mp
      (List.mem_filter.mp (stable.perm.mem_iff.mp member)).2
    exact Option.isSome_iff_exists.mpr ⟨span,spanned⟩
  obtain ⟨takes,leaves⟩ := considerMigration_span readCurrent readNew result spanned
  have verdict : isRelevant nodeVersion current new migration = decide (Relevant current new span) := by
    rw [isRelevant,spanned,Option.any_some]
  rw [List.filter_append,List.filter_singleton,verdict]
  by_cases fits : Relevant current new span
  · refine ⟨_,takes fits,?_⟩
    rw [sortMigrations_named _ ?_,decide_eq_true fits]
    · exact stable.append [migration]
    · intro other member
      rcases List.mem_append.mp member with old | last
      · exact chosen other old
      · obtain rfl := List.mem_singleton.mp last
        exact named other listed
  · rw [decide_eq_false fits]
    rcases leaves fits with same | again
    · exact ⟨_,same,by simpa using stable⟩
    · refine ⟨_,again,?_⟩
      rw [sortMigrations_named _ chosen]
      simpa using stable.append []

def Travels (nodeVersion : String → Option V) (current new : V) (earlier later : String) : Prop :=
  ∀ first second, migrationSpan nodeVersion earlier = some first →
    migrationSpan nodeVersion later = some second →
    if current ≤ new then first.1 ≤ second.1 else second.1 ≤ first.1

structure Selected (nodeVersion : String → Option V) (scripts : List String)
    (currentVersion newVersion : String) (current new : V) (result : List String) : Prop where
  members : ∀ migration, migration ∈ result ↔
    migration ∈ scripts ∧ ∃ span, migrationSpan nodeVersion migration = some span ∧ Relevant current new span
  once : result.Nodup
  ordered : result.Pairwise (Travels nodeVersion current new)
  orderless : ∀ other, other.Perm scripts →
    getRelevantMigrations nodeVersion other currentVersion newVersion = .ok result

/-- No two relevant scripts have the same versions, and on the way down all of them
start at one version. -/
def Separate (nodeVersion : String → Option V) (scripts : List String) (current new : V) : Prop :=
  (scripts.filter (isRelevant nodeVersion current new)).Pairwise fun first second =>
    migrationSpan nodeVersion first ≠ migrationSpan nodeVersion second ∧
      (new < current → (migrationSpan nodeVersion first).map Prod.fst =
        (migrationSpan nodeVersion second).map Prod.fst)

omit [LinearOrder V] in
private theorem spanKey_inj {first second : String} : spanKey nodeVersion first = spanKey nodeVersion second ↔
    migrationSpan nodeVersion first = migrationSpan nodeVersion second := by
  unfold spanKey
  cases migrationSpan nodeVersion first <;> cases migrationSpan nodeVersion second <;> simp

theorem spanKey_start {first second : String} {span1 span2 : V × V}
    (named1 : migrationSpan nodeVersion first = some span1)
    (named2 : migrationSpan nodeVersion second = some span2)
    (ordered : spanKey nodeVersion first ≤ spanKey nodeVersion second) : span1.1 ≤ span2.1 := by
  simp only [spanKey,named1,named2,Option.elim_some,WithBot.coe_le_coe] at ordered
  rcases Prod.Lex.toLex_le_toLex.mp ordered with below | ⟨same,_⟩
  · exact le_of_lt below
  · exact le_of_eq same

section Sorted
variable {scripts result : List String}
  (stable : StablySorted (spanKey nodeVersion) (scripts.filter (isRelevant nodeVersion current new)) result)
include stable

theorem mem_sorted_span (migration : String) : migration ∈ result ↔
    migration ∈ scripts ∧ ∃ span, migrationSpan nodeVersion migration = some span ∧ Relevant current new span := by
  rw [stable.perm.mem_iff,List.mem_filter,isRelevant_iff]

private theorem sorted_travels_up (up : current ≤ new) : result.Pairwise (Travels nodeVersion current new) := by
  refine stable.sorted.imp fun ordered span1 span2 named1 named2 => ?_
  rw [if_pos up]
  exact spanKey_start named1 named2 ordered

/-- The scripts are sorted upwards in either direction, so on the way down only scripts
with the same start stand in the right order. -/
theorem sorted_travels_down (down : new < current) : result.Pairwise (Travels nodeVersion current new) ↔
    (scripts.filter (isRelevant nodeVersion current new)).Pairwise fun first second =>
      (migrationSpan nodeVersion first).map Prod.fst = (migrationSpan nodeVersion second).map Prod.fst := by
  rw [← stable.perm.pairwise_iff fun same => same.symm]
  constructor
  · intro ordered
    refine (ordered.and stable.sorted).imp_of_mem fun {first second} inFirst inSecond both => ?_
    obtain ⟨_,span1,named1,_⟩ := (mem_sorted_span stable first).mp inFirst
    obtain ⟨_,span2,named2,_⟩ := (mem_sorted_span stable second).mp inSecond
    have back := both.1 span1 span2 named1 named2
    rw [if_neg (not_le.mpr down)] at back
    rw [named1,named2]
    exact congrArg some (le_antisymm (spanKey_start named1 named2 both.2) back)
  · intro same
    refine same.imp fun {first second} equal span1 span2 named1 named2 => ?_
    rw [named1,named2] at equal
    rw [if_neg (not_le.mpr down)]
    exact le_of_eq (Option.some.inj equal).symm

end Sorted

section Orders
variable (readCurrent : nodeVersion currentVersion = some current)
  (readNew : nodeVersion newVersion = some new) {scripts result : List String}
  (named : ∀ migration ∈ scripts, ValidlyNamed nodeVersion migration)
  (stable : StablySorted (spanKey nodeVersion) (scripts.filter (isRelevant nodeVersion current new)) result)
include readCurrent readNew named stable

/-- The same scripts are read the other way round: a tie would come out the other way
round too. -/
theorem Selected.distinct
    (selected : Selected nodeVersion scripts currentVersion newVersion current new result) :
    (scripts.filter (isRelevant nodeVersion current new)).Pairwise fun first second =>
      migrationSpan nodeVersion first ≠ migrationSpan nodeVersion second := by
  obtain ⟨other,again,reversed⟩ := getRelevantMigrations_sorted readCurrent readNew scripts.reverse
    (fun migration member => named migration (List.mem_reverse.mp member))
  obtain rfl : result = other :=
    Except.ok.inj ((selected.orderless _ (List.reverse_perm scripts)).symm.trans again)
  refine List.pairwise_iff_forall_sublist.mpr fun {first second} pair tied => ?_
  apply stable.untied reversed selected.once first second pair ?_ (spanKey_inj.mpr tied)
  rw [List.filter_reverse]
  exact List.reverse_sublist.mpr pair

private theorem Separate.orderless (separate : Separate nodeVersion scripts current new) (other : List String)
    (perm : other.Perm scripts) :
    getRelevantMigrations nodeVersion other currentVersion newVersion = .ok result := by
  obtain ⟨found,again,sorted⟩ := getRelevantMigrations_sorted readCurrent readNew other
    (fun migration member => named migration (perm.mem_iff.mp member))
  have same := perm.filter (isRelevant nodeVersion current new)
  rw [again,sorted.unique stable same]
  intro first inFirst second inSecond tied
  have distinct := List.pairwise_map.mpr (separate.imp fun both => both.1)
  exact List.inj_on_of_nodup_map distinct (same.mem_iff.mp inFirst) (same.mem_iff.mp inSecond)
    (spanKey_inj.mp tied)

end Orders

theorem relevant_migrations_iff (readCurrent : nodeVersion currentVersion = some current)
    (readNew : nodeVersion newVersion = some new) (scripts : List String)
    (named : ∀ migration ∈ scripts, ValidlyNamed nodeVersion migration) :
    ∃ result, getRelevantMigrations nodeVersion scripts currentVersion newVersion = .ok result ∧
      (Selected nodeVersion scripts currentVersion newVersion current new result ↔
        Separate nodeVersion scripts current new) := by
  obtain ⟨result,returned,stable⟩ := getRelevantMigrations_sorted readCurrent readNew scripts named
  refine ⟨result,returned,?_,?_⟩
  · intro selected
    have distinct := selected.distinct readCurrent readNew named stable
    by_cases down : new < current
    · exact (distinct.and ((sorted_travels_down stable down).mp selected.ordered)).imp
        fun both => ⟨both.1,fun _ => both.2⟩
    · exact distinct.imp fun differ => ⟨differ,fun below => absurd below down⟩
  · intro separate
    refine ⟨mem_sorted_span stable,?_,?_,separate.orderless readCurrent readNew named stable⟩
    · exact stable.perm.nodup_iff.mpr (separate.imp fun both same => both.1 (congrArg _ same))
    · rcases le_or_gt current new with up | down
      · exact sorted_travels_up stable up
      · exact (sorted_travels_down stable down).mpr (separate.imp fun both => both.2 down)

end Relevant

section Samples

def upgradeScripts : List String := ["1_0_10_to_1_1_0","1_0_2_to_1_0_10","1_0_1_to_1_0_3"]

private theorem upgradeScripts_named (migration : String) (listed : migration ∈ upgradeScripts) :
    ValidlyNamed releaseParts migration := by
  simp only [upgradeScripts,List.mem_cons,List.not_mem_nil,or_false] at listed
  rcases listed with rfl | rfl | rfl <;> rfl

theorem upgrade_scripts_selected :
    ∃ result, getRelevantMigrations releaseParts upgradeScripts "1.0.2" "1.1" = .ok result ∧
      Selected releaseParts upgradeScripts "1.0.2" "1.1" [1,0,2] [1,1] result := by
  obtain ⟨result,returned,selected⟩ := @relevant_migrations_iff _ _ releaseParts "1.0.2" "1.1"
    [1,0,2] [1,1] rfl rfl upgradeScripts upgradeScripts_named
  refine ⟨result,returned,selected.mpr ?_⟩
  unfold Separate
  decide

/-- On the way down the last step is run first, and two spellings of one version are run
in the order in which they are listed. -/
theorem downgrade_runs_upwards :
    getRelevantMigrations releaseParts ["1_0_3_to_1_0_2","1_0_2_to_1_0_1"] "1.0.3" "1.0.1" =
        .ok ["1_0_2_to_1_0_1","1_0_3_to_1_0_2"] ∧
      ¬Travels releaseParts [1,0,3] [1,0,1] "1_0_2_to_1_0_1" "1_0_3_to_1_0_2" ∧
      getRelevantMigrations releaseParts ["1_0_1_to_1_0_2","1_0_01_to_1_0_2"] "1.0.1" "1.0.2" ≠
        getRelevantMigrations releaseParts ["1_0_01_to_1_0_2","1_0_1_to_1_0_2"] "1.0.1" "1.0.2" := by
  refine ⟨rfl,fun travels => ?_,by decide⟩
  have below := travels ([1,0,2],[1,0,1]) ([1,0,3],[1,0,2]) rfl rfl
  exact absurd below (by decide)

end Samples
end IndyNode.Upgrade

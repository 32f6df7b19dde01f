import IndyNode.Upgrade.Rollback

/-! Upgrading over a version in between. The scripts of the two hops, one after the other, are
those of the whole way up exactly if none of them jumps over that version or stays at it. On the way
down the scripts of each hop are run upwards, so the two ways agree only where one hop has none. -/
namespace IndyNode.Upgrade

section Hops
variable {V : Type} [LinearOrder V] {nodeVersion : String → Option V} {start middle final : V}

/-- Each script for the whole way belongs to one of the hops. -/
def CoveredByHops (nodeVersion : String → Option V) (scripts : List String) (start middle final : V) : Prop :=
  ∀ migration ∈ scripts, isRelevant nodeVersion start final migration = true →
    isRelevant nodeVersion start middle migration = true ∨ isRelevant nodeVersion middle final migration = true

private theorem relevant_of_hop (direction : start ≤ middle ∧ middle ≤ final ∨ final < middle ∧ middle < start)
    (migration : String) (hop : isRelevant nodeVersion start middle migration = true ∨
      isRelevant nodeVersion middle final migration = true) :
    isRelevant nodeVersion start final migration = true := by
  rw [isRelevant_iff,isRelevant_iff] at hop
  rw [isRelevant_iff]
  rcases hop with ⟨span,named,relevant⟩ | ⟨span,named,relevant⟩
  · refine ⟨span,named,?_⟩
    rcases direction with ⟨up,further⟩ | ⟨further,down⟩
    · rw [relevant_upgrade up] at relevant
      exact (relevant_upgrade (up.trans further) span).mpr ⟨relevant.1,relevant.2.1,relevant.2.2.trans further⟩
    · rw [relevant_downgrade down] at relevant
      exact (relevant_downgrade (further.trans down) span).mpr
        ⟨relevant.1,relevant.2.1,further.le.trans relevant.2.2⟩
  · refine ⟨span,named,?_⟩
    rcases direction with ⟨up,further⟩ | ⟨further,down⟩
    · rw [relevant_upgrade further] at relevant
      exact (relevant_upgrade (up.trans further) span).mpr ⟨relevant.1,up.trans relevant.2.1,relevant.2.2⟩
    · rw [relevant_downgrade further] at relevant
      exact (relevant_downgrade (further.trans down) span).mpr
        ⟨relevant.1,relevant.2.1.trans down.le,relevant.2.2⟩

private theorem CoveredByHops.filter {scripts : List String}
    (direction : start ≤ middle ∧ middle ≤ final ∨ final < middle ∧ middle < start)
    (covered : CoveredByHops nodeVersion scripts start middle final) :
    scripts.filter (isRelevant nodeVersion start final) = scripts.filter fun migration =>
      isRelevant nodeVersion start middle migration || isRelevant nodeVersion middle final migration := by
  refine List.filter_congr fun migration listed => ?_
  rw [Bool.eq_iff_iff,Bool.or_eq_true]
  exact ⟨covered migration listed,relevant_of_hop direction migration⟩

private theorem unsorted_false {scripts : List String} {test : String → Bool}
    (sorted : StablySorted (spanKey nodeVersion) (scripts.filter test) []) (migration : String)
    (listed : migration ∈ scripts) : test migration = false := by
  refine Bool.eq_false_iff.mpr fun chosen => ?_
  exact absurd (sorted.perm.mem_iff.mpr (List.mem_filter.mpr ⟨listed,chosen⟩)) List.not_mem_nil

section Lists
variable {scripts whole first second : List String} (once : scripts.Nodup)
  (all : StablySorted (spanKey nodeVersion) (scripts.filter (isRelevant nodeVersion start final)) whole)
  (one : StablySorted (spanKey nodeVersion) (scripts.filter (isRelevant nodeVersion start middle)) first)
  (two : StablySorted (spanKey nodeVersion) (scripts.filter (isRelevant nodeVersion middle final)) second)
include all one two

private theorem hops_cover (joined : whole = first ++ second) :
    CoveredByHops nodeVersion scripts start middle final := by
  intro migration listed relevant
  have member : migration ∈ first ++ second := joined ▸ all.perm.mem_iff.mpr (List.mem_filter.mpr ⟨listed,relevant⟩)
  rcases List.mem_append.mp member with early | late
  · exact .inl (List.mem_filter.mp (one.perm.mem_iff.mp early)).2
  · exact .inr (List.mem_filter.mp (two.perm.mem_iff.mp late)).2

include once in
private theorem hops_disjoint (joined : whole = first ++ second) (migration : String) (listed : migration ∈ scripts)
    (early : isRelevant nodeVersion start middle migration = true) :
    isRelevant nodeVersion middle final migration = false := by
  refine Bool.eq_false_iff.mpr fun late => ?_
  have unrepeated : (first ++ second).Nodup := joined ▸ all.perm.nodup_iff.mpr (once.filter _)
  exact (List.nodup_append.mp unrepeated).2.2 migration (one.perm.mem_iff.mpr (List.mem_filter.mpr ⟨listed,early⟩))
    migration (two.perm.mem_iff.mpr (List.mem_filter.mpr ⟨listed,late⟩)) rfl

include once in
private theorem hops_up (up : start ≤ middle) (further : middle ≤ final) : whole = first ++ second ↔
    CoveredByHops nodeVersion scripts start middle final ∧
      ∀ migration ∈ scripts, migrationSpan nodeVersion migration ≠ some (middle,middle) := by
  constructor
  · intro joined
    refine ⟨hops_cover all one two joined,fun migration listed stays => ?_⟩
    have early : isRelevant nodeVersion start middle migration = true :=
      (isRelevant_iff migration).mpr ⟨_,stays,(relevant_upgrade up _).mpr ⟨le_rfl,up,le_rfl⟩⟩
    have late : isRelevant nodeVersion middle final migration = true :=
      (isRelevant_iff migration).mpr ⟨_,stays,(relevant_upgrade further _).mpr ⟨le_rfl,le_rfl,further⟩⟩
    rw [hops_disjoint once all one two joined migration listed early] at late
    exact Bool.false_ne_true late
  · rintro ⟨covered,moves⟩
    have both := one.join two fun a listed b _ early late => ?_
    · rw [← covered.filter (.inl ⟨up,further⟩)] at both
      exact all.eq_of_nodup both (once.filter _)
    -- A script of the first hop ends where those of the second start, and starts before.
    obtain ⟨span1,named1,relevant1⟩ := (isRelevant_iff a).mp early
    obtain ⟨span2,named2,relevant2⟩ := (isRelevant_iff b).mp late
    obtain ⟨ascends,_,ends⟩ := (relevant_upgrade up span1).mp relevant1
    obtain ⟨_,starts,_⟩ := (relevant_upgrade further span2).mp relevant2
    simp only [spanKey,named1,named2,Option.elim_some,WithBot.coe_lt_coe]
    refine Prod.Lex.toLex_lt_toLex.mpr (.inl (lt_of_le_of_ne (ascends.trans (ends.trans starts)) fun same => ?_))
    have stays : span1 = (middle,middle) := Prod.ext
      (le_antisymm (ascends.trans ends) (starts.trans same.ge)) (le_antisymm ends (starts.trans (same.ge.trans ascends)))
    exact moves a listed (stays ▸ named1)

include once in
private theorem hops_down (further : final < middle) (down : middle < start) : whole = first ++ second ↔
    CoveredByHops nodeVersion scripts start middle final ∧ (first = [] ∨ second = []) := by
  have direction : start ≤ middle ∧ middle ≤ final ∨ final < middle ∧ middle < start := .inr ⟨further,down⟩
  constructor
  · intro joined
    refine ⟨hops_cover all one two joined,Classical.byContradiction fun neither => ?_⟩
    obtain ⟨some_first,some_second⟩ := not_or.mp neither
    obtain ⟨x,inFirst⟩ := List.exists_mem_of_ne_nil first some_first
    obtain ⟨y,inSecond⟩ := List.exists_mem_of_ne_nil second some_second
    obtain ⟨listed,span1,named1,relevant1⟩ := (mem_sorted_span one x).mp inFirst
    obtain ⟨_,span2,named2,relevant2⟩ := (mem_sorted_span two y).mp inSecond
    obtain ⟨descends,_,ends⟩ := (relevant_downgrade down span1).mp relevant1
    obtain ⟨_,starts,_⟩ := (relevant_downgrade further span2).mp relevant2
    -- The list of the whole way is sorted upwards, so the first hop cannot start above the second.
    have ordered := (List.pairwise_append.mp (joined ▸ all.sorted)).2.2 x inFirst y inSecond
    have below := (spanKey_start named1 named2 ordered).trans starts
    have late : isRelevant nodeVersion middle final x = true := (isRelevant_iff x).mpr
      ⟨span1,named1,(relevant_downgrade further span1).mpr ⟨descends,below,further.le.trans ends⟩⟩
    have early : isRelevant nodeVersion start middle x = true := (isRelevant_iff x).mpr ⟨span1,named1,relevant1⟩
    rw [hops_disjoint once all one two joined x listed early] at late
    exact Bool.false_ne_true late
  · rintro ⟨covered,rfl | rfl⟩
    · have same : scripts.filter (isRelevant nodeVersion start final) =
          scripts.filter (isRelevant nodeVersion middle final) := by
        rw [covered.filter direction]
        exact List.filter_congr fun migration listed => by rw [unsorted_false one migration listed,Bool.false_or]
      rw [same] at all
      exact all.eq_of_nodup two (once.filter _)
    · have same : scripts.filter (isRelevant nodeVersion start final) =
          scripts.filter (isRelevant nodeVersion start middle) := by
        rw [covered.filter direction]
        exact List.filter_congr fun migration listed => by rw [unsorted_false two migration listed,Bool.or_false]
      rw [same] at all
      rw [List.append_nil]
      exact all.eq_of_nodup one (once.filter _)

end Lists
/-- When a node goes from one version to another in two hops, the scripts it runs are those of the
whole way: upwards exactly if no script jumps over the version in between and none stays at it,
downwards exactly if none jumps over it and one of the hops has no scripts. -/
theorem migrations_in_hops {startVersion middleVersion finalVersion : String}
    (readStart : nodeVersion startVersion = some start) (readMiddle : nodeVersion middleVersion = some middle)
    (readFinal : nodeVersion finalVersion = some final) (scripts : List String) (once : scripts.Nodup)
    (named : ∀ migration ∈ scripts, ValidlyNamed nodeVersion migration) :
    ∃ whole first second,
      getRelevantMigrations nodeVersion scripts startVersion finalVersion = .ok whole ∧
      getRelevantMigrations nodeVersion scripts startVersion middleVersion = .ok first ∧
      getRelevantMigrations nodeVersion scripts middleVersion finalVersion = .ok second ∧
      (start ≤ middle → middle ≤ final → (whole = first ++ second ↔
        CoveredByHops nodeVersion scripts start middle final ∧
          ∀ migration ∈ scripts, migrationSpan nodeVersion migration ≠ some (middle,middle))) ∧
      (final < middle → middle < start → (whole = first ++ second ↔
        CoveredByHops nodeVersion scripts start middle final ∧ (first = [] ∨ second = []))) ∧
      (whole = first ++ second → ∀ (V : Type) (pass : Pass V), pass.migrationScripts = some scripts → ∀ data,
        migrate nodeVersion pass startVersion finalVersion data =
          migrate nodeVersion pass startVersion middleVersion data >>=
            migrate nodeVersion pass middleVersion finalVersion) := by
  obtain ⟨whole,wholeRun,all⟩ := getRelevantMigrations_sorted readStart readFinal scripts named
  obtain ⟨first,firstRun,one⟩ := getRelevantMigrations_sorted readStart readMiddle scripts named
  obtain ⟨second,secondRun,two⟩ := getRelevantMigrations_sorted readMiddle readFinal scripts named
  refine ⟨whole,first,second,wholeRun,firstRun,secondRun,hops_up once all one two,hops_down once all one two,?_⟩
  intro joined V pass listed data
  have third : migrate nodeVersion pass middleVersion finalVersion = second.foldlM (callMigrationScript pass) := by
    funext data
    simp only [migrate,listed,secondRun]
  simp only [third,migrate,listed,wholeRun,firstRun,joined,List.foldlM_append]

end Hops

section Samples

def minorScripts : List String := ["1_1_0_to_1_2_0","1_2_0_to_1_1_0","1_0_0_to_1_1_0","1_1_0_to_1_0_0"]

private theorem minorScripts_named (migration : String) (listed : migration ∈ minorScripts) :
    ValidlyNamed releaseParts migration := by
  simp only [minorScripts,List.mem_cons,List.not_mem_nil,or_false] at listed
  rcases listed with rfl | rfl | rfl | rfl <;> rfl

/-- Over the version in between the same scripts are run on the way up, but not on the way down. -/
theorem hops_up_not_down :
    (∃ whole first second, getRelevantMigrations releaseParts minorScripts "1.0.0" "1.2.0" = .ok whole ∧
      getRelevantMigrations releaseParts minorScripts "1.0.0" "1.1.0" = .ok first ∧
      getRelevantMigrations releaseParts minorScripts "1.1.0" "1.2.0" = .ok second ∧ whole = first ++ second) ∧
    ∃ whole first second, getRelevantMigrations releaseParts minorScripts "1.2.0" "1.0.0" = .ok whole ∧
      getRelevantMigrations releaseParts minorScripts "1.2.0" "1.1.0" = .ok first ∧
      getRelevantMigrations releaseParts minorScripts "1.1.0" "1.0.0" = .ok second ∧ whole ≠ first ++ second := by
  constructor
  · obtain ⟨whole,first,second,wholeRun,firstRun,secondRun,up,_⟩ := @migrations_in_hops _ _ releaseParts [1] [1,1] [1,2]
      "1.0.0" "1.1.0" "1.2.0" rfl rfl rfl minorScripts (by decide) minorScripts_named
    refine ⟨whole,first,second,wholeRun,firstRun,secondRun,(up (by decide) (by decide)).mpr ⟨?_,by decide⟩⟩
    unfold CoveredByHops
    decide
  · obtain ⟨whole,first,second,wholeRun,firstRun,secondRun,_,down,_⟩ := @migrations_in_hops _ _ releaseParts [1,2] [1,1] [1]
      "1.2.0" "1.1.0" "1.0.0" rfl rfl rfl minorScripts (by decide) minorScripts_named
    refine ⟨whole,first,second,wholeRun,firstRun,secondRun,fun joined => ?_⟩
    obtain ⟨_,alone⟩ := (down (by decide) (by decide)).mp joined
    have one : first = ["1_2_0_to_1_1_0"] := Except.ok.inj (firstRun.symm.trans rfl)
    have two : second = ["1_1_0_to_1_0_0"] := Except.ok.inj (secondRun.symm.trans rfl)
    simp [one,two] at alone

end Samples
end IndyNode.Upgrade

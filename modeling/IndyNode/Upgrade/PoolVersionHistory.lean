import IndyNode.Upgrade.PoolVersion
import Mathlib.Data.Set.Card

/-! The version of the pool by the history of the votes: which votes count at a time, when they
make a version the one of the pool, and what is answered for a time. -/
namespace IndyNode.Upgrade
open TxnVersionController

section History
variable (txns : List VersionTxn) (adopted : Nat → Option String)

def Votes (i : Nat) (version frm : String) : Prop :=
  ∃ time, txns[i]? = some (.nodeUpgrade .complete version frm time)

/-- The nodes with a vote for the version before transaction `i` that no adoption has discarded. -/
def Standing (i : Nat) (version : String) : Set String :=
  {frm | ∃ j < i, Votes txns j version frm ∧
    ∀ k, j ≤ k → k < i → ∀ other, adopted k = some other → other < version}

/-- Those and the node that votes with transaction `i`. -/
def Counted (i : Nat) (version : String) : Set String :=
  {frm | frm ∈ Standing txns adopted i version ∨ Votes txns i version frm}

/-- At which transactions a version is adopted. -/
def AdoptionsOf : Prop :=
  ∀ i version, adopted i = some version ↔
    (∃ frm, Votes txns i version frm) ∧ faults (txns.take i) < (Counted txns adopted i version).ncard

/-- The latest adoption not after the time. -/
def LatestAdoption (time : Nat) (version : String) : Prop :=
  ∃ i txn, txns[i]? = some txn ∧ txn.time ≤ time ∧ adopted i = some version ∧
    ∀ j later, i < j → txns[j]? = some later → later.time ≤ time → adopted j = none

variable {txns adopted}

private theorem standing_congr {other : Nat → Option String} {i : Nat} (same : ∀ k < i, adopted k = other k)
    (version : String) :
    Standing txns adopted i version = Standing txns other i version := by
  ext frm
  refine exists_congr fun j => and_congr_right fun _ => and_congr_right fun _ => ?_
  refine forall_congr' fun k => imp_congr_right fun _ => ?_
  exact ⟨fun all within name listed => all within name (same k within ▸ listed),
    fun all within name listed => all within name ((same k within).symm ▸ listed)⟩

/-- The history fixes its adoptions. -/
theorem adoptions_unique {other : Nat → Option String} (one : AdoptionsOf txns adopted) (two : AdoptionsOf txns other) :
    adopted = other := by
  funext i
  induction i using Nat.strong_induction_on with
  | _ i ih =>
    apply Option.ext
    intro version
    have counted : Counted txns adopted i version = Counted txns other i version := by
      unfold Counted
      rw [standing_congr ih version]
    rw [one i version,two i version,counted]

private theorem standing_succ {i : Nat} {version : String} (kept : ∀ other, adopted i = some other → other < version) :
    Standing txns adopted (i + 1) version = Counted txns adopted i version := by
  ext frm
  constructor
  · rintro ⟨j,before,vote,stands⟩
    rcases Nat.lt_succ_iff_lt_or_eq.mp before with earlier | rfl
    · exact .inl ⟨j,earlier,vote,fun k after within => stands k after (by omega)⟩
    · exact .inr vote
  · rintro (⟨j,before,vote,stands⟩ | vote)
    · refine ⟨j,by omega,vote,fun k after within other adopts => ?_⟩
      rcases Nat.lt_succ_iff_lt_or_eq.mp within with earlier | rfl
      · exact stands k after earlier other adopts
      · exact kept other adopts
    · refine ⟨i,by omega,vote,fun k after within other adopts => ?_⟩
      obtain rfl : k = i := by omega
      exact kept other adopts

private theorem standing_discarded {i : Nat} {version other : String} (adopts : adopted i = some other)
    (older : ¬other < version) : Standing txns adopted (i + 1) version = ∅ := by
  refine Set.eq_empty_iff_forall_notMem.mpr ?_
  rintro frm ⟨j,before,-,stands⟩
  exact older (stands i (by omega) (by omega) other adopts)

private theorem standing_zero (version : String) : Standing txns adopted 0 version = ∅ := by
  refine Set.eq_empty_iff_forall_notMem.mpr ?_
  rintro frm ⟨j,before,-⟩
  exact absurd before (Nat.not_lt_zero j)

end History

section Runs
variable (txns : List VersionTxn)

def adoptedAt (i : Nat) : Option String := txns[i]?.bind (init.run (txns.take i)).adoption

variable {txns}

private theorem adoptedAt_of {i : Nat} {txn : VersionTxn} (found : txns[i]? = some txn) :
    adoptedAt txns i = (init.run (txns.take i)).adoption txn := by
  rw [adoptedAt,found,Option.bind_some]

private theorem run_take_succ {i : Nat} {txn : VersionTxn} (found : txns[i]? = some txn) :
    init.run (txns.take (i + 1)) = (init.run (txns.take i)).updateVersion txn := by
  rw [List.take_add_one,found,Option.toList_some,run_snoc]

/-- The votes kept by the controller are those that stand. -/
theorem run_votes {i : Nat} (within : i ≤ txns.length) (version : String) :
    ((init.run (txns.take i)).votesForNewVersion version : Set String) =
      Standing txns (adoptedAt txns) i version := by
  induction i generalizing version with
  | zero => simp [run,init,standing_zero]
  | succ i ih =>
    have found : txns[i]? = some txns[i] := List.getElem?_eq_getElem within
    have here := adoptedAt_of found
    have before := ih (Nat.le_of_succ_le within)
    rw [run_take_succ found]
    cases adopts : (init.run (txns.take i)).adoption txns[i] with
    | none =>
      rw [standing_succ (by simp [here,adopts]),votes_kept _ _ adopts,Counted,← before version]
      simp only [Votes,found,Option.some.injEq,Finset.mem_coe]
    | some other =>
      rw [votes_adopted _ _ adopts]
      by_cases newer : other < version
      · rw [if_pos newer,before version,standing_succ (by simpa [here,adopts] using newer)]
        -- The transaction votes for the adopted version, so not for this one.
        refine (Set.ext fun frm => or_iff_left ?_).symm
        rintro ⟨time,vote⟩
        obtain ⟨sender,moment,shape,-⟩ := (adoption_iff _ _ _).mp adopts
        rw [found,shape] at vote
        have same := (VersionTxn.nodeUpgrade.inj (Option.some.inj vote)).2.1
        exact String.lt_irrefl version (same ▸ newer)
      · rw [if_neg newer,standing_discarded (here.trans adopts) newer]
        exact Finset.coe_empty

theorem run_counted {i : Nat} {version frm : String} (vote : Votes txns i version frm) :
    Counted txns (adoptedAt txns) i version = ((init.run (txns.take i)).senders version frm : Set String) := by
  obtain ⟨time,found⟩ := vote
  have within : i < txns.length := (List.getElem?_eq_some_iff.mp found).1
  ext sender
  rw [Counted,← run_votes within.le,senders,Set.mem_ofPred_eq,Finset.coe_insert,Set.mem_insert_iff,or_comm]
  refine or_congr_left ⟨?_,?_⟩
  · rintro ⟨moment,again⟩
    rw [found] at again
    exact (VersionTxn.nodeUpgrade.inj (Option.some.inj again)).2.2.1.symm
  · rintro rfl
    exact ⟨time,found⟩

private theorem run_adoptionsOf (txns : List VersionTxn) : AdoptionsOf txns (adoptedAt txns) := by
  intro i version
  rw [adoptedAt,Option.bind_eq_some_iff]
  constructor
  · rintro ⟨txn,found,adopts⟩
    obtain ⟨frm,time,rfl,enough⟩ := (adoption_iff _ _ _).mp adopts
    have vote : Votes txns i version frm := ⟨time,found⟩
    rw [run_f] at enough
    refine ⟨⟨frm,vote⟩,?_⟩
    rw [run_counted vote,Set.ncard_coe_finset]
    exact enough
  · rintro ⟨⟨frm,time,found⟩,enough⟩
    rw [run_counted ⟨time,found⟩,Set.ncard_coe_finset,← run_f] at enough
    exact ⟨_,found,(adoption_iff _ _ _).mpr ⟨frm,time,rfl,enough⟩⟩

private theorem lastVersionAt_later {time timestamp : Nat} (later : timestamp < time) (version : String)
    (versions : List (Nat × String)) (lastVersion : Option String) :
    lastVersionAt timestamp lastVersion (setVersion time version versions) =
      lastVersionAt timestamp lastVersion versions := by
  induction versions generalizing lastVersion with
  | nil => exact if_pos later
  | cons entry rest ih =>
    rw [setVersion]
    split
    · rename_i before
      rw [lastVersionAt,if_pos later,lastVersionAt,if_pos (later.trans before)]
    · split
      · rename_i same
        rw [lastVersionAt,if_pos later,lastVersionAt,if_pos (same ▸ later)]
      · rw [lastVersionAt,lastVersionAt]
        split
        · rfl
        · exact ih _

private theorem lastVersionAt_latest {time timestamp : Nat} (past : time ≤ timestamp) (version : String)
    {versions : List (Nat × String)} (increasing : versions.Pairwise fun first second => first.1 < second.1)
    (before : ∀ entry ∈ versions, entry.1 ≤ time) :
    lastVersionAt timestamp none (setVersion time version versions) = some version := by
  rw [setVersion_latest time version versions increasing before,lastVersionAt_eq,List.takeWhile_eq_self_iff.mpr]
  · simp
  · intro entry member
    rw [List.mem_append,List.mem_filter,List.mem_singleton] at member
    rcases member with ⟨old,-⟩ | rfl
    · simpa using (before entry old).trans past
    · simpa using past

private theorem reading_later (self : TxnVersionController) {timestamp : Nat} {txn : VersionTxn}
    (later : timestamp < txn.time) :
    (self.updateVersion txn).getPoolVersion (some timestamp) = self.getPoolVersion (some timestamp) := by
  cases adopts : self.adoption txn with
  | none => rw [getPoolVersion,versions_kept self txn adopts,getPoolVersion]
  | some version =>
    rw [getPoolVersion,versions_adopted self txn adopts,getPoolVersion,lastVersionAt_later later]

private theorem readings_later (self : TxnVersionController) {timestamp : Nat} (rest : List VersionTxn)
    (later : ∀ txn ∈ rest, timestamp < txn.time) :
    (self.run rest).getPoolVersion (some timestamp) = self.getPoolVersion (some timestamp) := by
  induction rest generalizing self with
  | nil => rfl
  | cons txn rest ih =>
    obtain ⟨here,later⟩ := List.forall_mem_cons.mp later
    rw [← reading_later self here]
    exact ih (self.updateVersion txn) later

private theorem adoptedAt_before {i : Nat} (within : i < txns.length) (txn : VersionTxn) :
    adoptedAt (txns ++ [txn]) i = adoptedAt txns i := by
  rw [adoptedAt,List.getElem?_append_left within,List.take_append_of_le_length within.le,adoptedAt]

private theorem found_snoc {i : Nat} {txn found : VersionTxn} : (txns ++ [txn])[i]? = some found ↔
    (i < txns.length ∧ txns[i]? = some found) ∨ (i = txns.length ∧ txn = found) := by
  rcases Nat.lt_trichotomy i txns.length with within | rfl | beyond
  · simp [List.getElem?_append_left within,within,within.ne]
  · simp
  · have outside : (txns ++ [txn])[i]? = none := List.getElem?_eq_none (by simpa using beyond)
    simp [outside,beyond.ne',not_lt_of_gt beyond]

private theorem adoptedAt_last (txns : List VersionTxn) (txn : VersionTxn) :
    adoptedAt (txns ++ [txn]) txns.length = (init.run txns).adoption txn := by
  rw [adoptedAt_of (found_snoc.mpr (.inr ⟨rfl,rfl⟩)),List.take_left]

private theorem latest_skip {timestamp : Nat} {txn : VersionTxn}
    (skip : txn.time ≤ timestamp → (init.run txns).adoption txn = none) (version : String) :
    LatestAdoption (txns ++ [txn]) (adoptedAt (txns ++ [txn])) timestamp version ↔
      LatestAdoption txns (adoptedAt txns) timestamp version := by
  constructor
  · rintro ⟨i,found,here,past,adopts,last⟩
    rcases found_snoc.mp here with ⟨within,here⟩ | ⟨rfl,rfl⟩
    · rw [adoptedAt_before within] at adopts
      refine ⟨i,found,here,past,adopts,fun j later after there early => ?_⟩
      have inside : j < txns.length := (List.getElem?_eq_some_iff.mp there).1
      rw [← adoptedAt_before inside txn]
      exact last j later after (found_snoc.mpr (.inl ⟨inside,there⟩)) early
    · rw [adoptedAt_last,skip past] at adopts
      cases adopts
  · rintro ⟨i,found,here,past,adopts,last⟩
    have within : i < txns.length := (List.getElem?_eq_some_iff.mp here).1
    refine ⟨i,found,found_snoc.mpr (.inl ⟨within,here⟩),past,by rwa [adoptedAt_before within],?_⟩
    intro j later after there early
    rcases found_snoc.mp there with ⟨inside,there⟩ | ⟨rfl,rfl⟩
    · rw [adoptedAt_before inside]
      exact last j later after there early
    · rw [adoptedAt_last,skip early]

private theorem latest_here {timestamp : Nat} {txn : VersionTxn} {adopted : String} (past : txn.time ≤ timestamp)
    (adopts : (init.run txns).adoption txn = some adopted) (version : String) :
    LatestAdoption (txns ++ [txn]) (adoptedAt (txns ++ [txn])) timestamp version ↔ adopted = version := by
  have here : (txns ++ [txn])[txns.length]? = some txn := found_snoc.mpr (.inr ⟨rfl,rfl⟩)
  have recorded := (adoptedAt_last txns txn).trans adopts
  constructor
  · rintro ⟨i,found,there,-,earlier,last⟩
    rcases found_snoc.mp there with ⟨within,-⟩ | ⟨rfl,-⟩
    · have none := last txns.length txn within here past
      rw [recorded] at none
      cases none
    · exact Option.some.inj (recorded.symm.trans earlier)
  · rintro rfl
    refine ⟨txns.length,txn,here,past,recorded,fun j later after there _ => ?_⟩
    rcases found_snoc.mp there with ⟨within,-⟩ | ⟨rfl,-⟩
    · exact absurd within (not_lt_of_gt after)
    · exact absurd after (lt_irrefl _)

private theorem reading_latest (timed : (txns.map VersionTxn.time).Pairwise (· ≤ ·)) (timestamp : Nat)
    (version : String) :
    (init.run txns).getPoolVersion (some timestamp) = some version ↔
      LatestAdoption txns (adoptedAt txns) timestamp version := by
  induction txns using List.reverseRecOn with
  | nil =>
    refine iff_of_false (by simp [run,init,getPoolVersion,lastVersionAt]) ?_
    rintro ⟨i,txn,found,-⟩
    cases found
  | append_singleton txns txn ih =>
    rw [List.map_append,List.pairwise_append] at timed
    rw [run_snoc]
    rcases Nat.lt_or_ge timestamp txn.time with later | past
    · rw [reading_later _ later,latest_skip fun past => absurd later (not_lt.mpr past)]
      exact ih timed.1
    · cases adopts : (init.run txns).adoption txn with
      | none =>
        rw [latest_skip fun _ => adopts,getPoolVersion,versions_kept _ _ adopts]
        exact ih timed.1
      | some adopted =>
        have recorded := run_recorded txns timed.1
        have before : ∀ entry ∈ (init.run txns).versions, entry.1 ≤ txn.time := fun entry member =>
          timed.2.2 entry.1 (recorded.past entry member) _ (List.mem_singleton_self _)
        rw [latest_here past adopts,getPoolVersion,versions_adopted _ _ adopts,
          lastVersionAt_latest past adopted recorded.increasing before,Option.some.injEq]

/-- The adoptions are those of the history, the answer for a time is the latest of them, and
what comes later does not change it. -/
theorem pool_version_by_history (txns : List VersionTxn) (timed : (txns.map VersionTxn.time).Pairwise (· ≤ ·)) :
    (∃ adopted, AdoptionsOf txns adopted) ∧
      ∀ adopted, AdoptionsOf txns adopted → ∀ timestamp,
        (∀ version, (init.run txns).getPoolVersion (some timestamp) = some version ↔
          LatestAdoption txns adopted timestamp version) ∧
        ∀ rest, (∀ txn ∈ rest, timestamp < txn.time) →
          (init.run (txns ++ rest)).getPoolVersion (some timestamp) =
            (init.run txns).getPoolVersion (some timestamp) := by
  have history := run_adoptionsOf txns
  refine ⟨⟨_,history⟩,fun adopted other timestamp => ⟨fun version => ?_,fun rest later => ?_⟩⟩
  · rw [adoptions_unique other history]
    exact reading_latest timed timestamp version
  · rw [run,List.foldl_append]
    exact readings_later _ rest later

end Runs

theorem upwards_by_history : (upwards.map VersionTxn.time).Pairwise (· ≤ ·) ∧
    (∃ adopted, AdoptionsOf upwards adopted) ∧
      ∀ adopted, AdoptionsOf upwards adopted → ∀ timestamp,
        (∀ version, (init.run upwards).getPoolVersion (some timestamp) = some version ↔
          LatestAdoption upwards adopted timestamp version) ∧
        ∀ rest, (∀ txn ∈ rest, timestamp < txn.time) →
          (init.run (upwards ++ rest)).getPoolVersion (some timestamp) =
            (init.run upwards).getPoolVersion (some timestamp) :=
  ⟨by decide,pool_version_by_history upwards (by decide)⟩

end IndyNode.Upgrade

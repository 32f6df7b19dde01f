import Mathlib.Data.Finset.Card
import IndyNode.Upgrade.Migrations
import IndyNode.Upgrade.Upgrader

/-! The version of the pool: the nodes vote for the version to which they have been
upgraded, and a version with more than `f` votes is adopted. -/
namespace IndyNode.Upgrade

inductive NodeUpgradeAction where
  | inProgress
  | complete
  | fail
deriving DecidableEq, Repr

inductive VersionTxn where
  | poolUpgrade (payload : PoolUpgrade) (time : Nat)
  | nodeUpgrade (action : NodeUpgradeAction) (version frm : String) (time : Nat)
  | other (time : Nat)
deriving DecidableEq, Repr

def VersionTxn.time : VersionTxn → Nat
  | .poolUpgrade _ time => time
  | .nodeUpgrade _ _ _ time => time
  | .other time => time

/-- `versions` is sorted by time, and a version without votes has no senders. -/
structure TxnVersionController where
  versions : List (Nat × String)
  f : Int
  votesForNewVersion : String → Finset String

def setVersion (time : Nat) (version : String) : List (Nat × String) → List (Nat × String)
  | [] => [(time,version)]
  | entry :: rest =>
    if time < entry.1 then (time,version) :: entry :: rest
    else if time = entry.1 then (time,version) :: rest
    else entry :: setVersion time version rest

/-- The loop of `get_pool_version`. -/
def lastVersionAt (timestamp : Nat) (lastVersion : Option String) : List (Nat × String) → Option String
  | [] => lastVersion
  | entry :: rest =>
    if timestamp < entry.1 then lastVersion else lastVersionAt timestamp (some entry.2) rest

namespace TxnVersionController

def init : TxnVersionController := ⟨[],0,fun _ => ∅⟩

variable (self : TxnVersionController)

def version : Option String := self.versions.getLast?.map Prod.snd

def getPoolVersion : Option Nat → Option String
  | none => self.version
  | some timestamp => lastVersionAt timestamp none self.versions

def senders (version frm : String) : Finset String := insert frm (self.votesForNewVersion version)

def updateVersion : VersionTxn → TxnVersionController
  | .poolUpgrade payload _ =>
    if payload.action = .start then { self with f := ((payload.schedule.length : Int) - 1) / 3 } else self
  | .nodeUpgrade .complete version frm time =>
    let votes := Function.update self.votesForNewVersion version (self.senders version frm)
    if self.f < (self.senders version frm).card then
      { self with
        versions := setVersion time version self.versions
        votesForNewVersion := fun v => if version < v then votes v else ∅ }
    else { self with votesForNewVersion := votes }
  | _ => self

def adoption : VersionTxn → Option String
  | .nodeUpgrade .complete version frm _ =>
    if self.f < (self.senders version frm).card then some version else none
  | _ => none

def run (txns : List VersionTxn) : TxnVersionController := txns.foldl updateVersion self

end TxnVersionController

open TxnVersionController

def adoptions (self : TxnVersionController) : List VersionTxn → List String
  | [] => []
  | txn :: rest => (self.adoption txn).toList ++ adoptions (self.updateVersion txn) rest

/-- Component by component, as numbers. A text that is no release is neither older nor newer. -/
def older (first second : String) : Bool :=
  match releaseParts first,releaseParts second with
  | some parts,some others => parts < others
  | _,_ => false

private theorem older_self (version : String) : older version version = false := by
  unfold older
  cases releaseParts version <;> simp

private theorem older_iff {first second : String} : older first second = true ↔
    ∃ parts others, releaseParts first = some parts ∧ releaseParts second = some others ∧ parts < others := by
  unfold older
  cases releaseParts first <;> cases releaseParts second <;> simp

private theorem older_trans {first second third : String} (lower : older first second = true)
    (upper : older second third = true) : older first third = true := by
  obtain ⟨low,middle,isLow,isMiddle,below⟩ := older_iff.mp lower
  obtain ⟨middle',high,same,isHigh,above⟩ := older_iff.mp upper
  obtain rfl := Option.some.inj (isMiddle.symm.trans same)
  exact older_iff.mpr ⟨low,high,isLow,isHigh,lt_trans below above⟩

def scheduleSize : VersionTxn → Option Nat
  | .poolUpgrade payload _ => if payload.action = .start then some payload.schedule.length else none
  | _ => none

/-- `f`, by the latest START. -/
def faults (txns : List VersionTxn) : Int :=
  match (txns.filterMap scheduleSize).getLast? with
  | none => 0
  | some size => ((size : Int) - 1) / 3

/-- The transactions behind the latest adoption; `since` are those found so far. -/
def sinceAdoption (self : TxnVersionController) (since : List VersionTxn) : List VersionTxn → List VersionTxn
  | [] => since
  | txn :: rest =>
    sinceAdoption (self.updateVersion txn) (if (self.adoption txn).isSome then [] else since ++ [txn]) rest

def voter (version : String) : VersionTxn → Option String
  | .nodeUpgrade .complete voted frm _ => if voted = version then some frm else none
  | _ => none

/-- The nodes that report the version in the transactions. -/
def voters (version : String) (txns : List VersionTxn) : Finset String := (txns.filterMap (voter version)).toFinset

section Step
variable (self : TxnVersionController) (txn : VersionTxn)

theorem run_snoc (txns : List VersionTxn) : self.run (txns ++ [txn]) = (self.run txns).updateVersion txn := by
  rw [run,List.foldl_append]
  rfl

private theorem adoptions_snoc (txns : List VersionTxn) :
    adoptions self (txns ++ [txn]) = adoptions self txns ++ ((self.run txns).adoption txn).toList := by
  induction txns generalizing self with
  | nil => simp [adoptions,run]
  | cons first rest ih =>
    rw [List.cons_append,adoptions,ih,adoptions,List.append_assoc]
    rfl

private theorem adoption_some {version : String} (adopted : self.adoption txn = some version) :
    ∃ frm, txn = .nodeUpgrade .complete version frm txn.time ∧ self.f < (self.senders version frm).card := by
  unfold adoption at adopted
  split at adopted
  · rename_i sent frm time
    by_cases enough : self.f < (self.senders sent frm).card
    · rw [if_pos enough] at adopted
      obtain rfl := Option.some.inj adopted
      exact ⟨frm,rfl,enough⟩
    · simp [if_neg enough] at adopted
  · simp at adopted

theorem versions_adopted {version : String} (adopted : self.adoption txn = some version) :
    (self.updateVersion txn).versions = setVersion txn.time version self.versions := by
  obtain ⟨frm,shape,enough⟩ := adoption_some self txn adopted
  rw [shape]
  simp only [updateVersion,if_pos enough]
  rfl

theorem votes_adopted {version : String} (adopted : self.adoption txn = some version) (other : String) :
    (self.updateVersion txn).votesForNewVersion other =
      if version < other then self.votesForNewVersion other else ∅ := by
  obtain ⟨frm,shape,enough⟩ := adoption_some self txn adopted
  rw [shape]
  simp only [updateVersion,if_pos enough]
  by_cases newer : version < other
  · have differ : other ≠ version := by
      rintro rfl
      exact String.lt_irrefl other newer
    rw [if_pos newer,if_pos newer,Function.update_of_ne differ]
  · rw [if_neg newer,if_neg newer]

theorem versions_kept (none : self.adoption txn = none) : (self.updateVersion txn).versions = self.versions := by
  unfold updateVersion
  split
  · split <;> rfl
  · rename_i version frm time
    have few : ¬self.f < (self.senders version frm).card := by
      intro enough
      simp [adoption,enough] at none
    simp only [if_neg few]
  · rfl

theorem adoption_iff (version : String) : self.adoption txn = some version ↔
    ∃ frm time, txn = .nodeUpgrade .complete version frm time ∧ self.f < (self.senders version frm).card := by
  constructor
  · intro adopts
    obtain ⟨frm,shape,enough⟩ := adoption_some self txn adopts
    exact ⟨frm,txn.time,shape,enough⟩
  · rintro ⟨frm,time,rfl,enough⟩
    exact if_pos enough

private theorem updateVersion_f : (self.updateVersion txn).f =
    match scheduleSize txn with
    | none => self.f
    | some size => ((size : Int) - 1) / 3 := by
  cases txn with
  | poolUpgrade payload time =>
    simp only [updateVersion,scheduleSize]
    by_cases start : payload.action = .start
    · rw [if_pos start,if_pos start]
    · rw [if_neg start,if_neg start]
  | nodeUpgrade action version frm time =>
    cases action <;> simp only [updateVersion,scheduleSize]
    split <;> rfl
  | other time => rfl

/-- Without an adoption a vote is added to the others. -/
theorem votes_kept (kept : self.adoption txn = none) (version : String) :
    ((self.updateVersion txn).votesForNewVersion version : Set String) =
      {frm | frm ∈ self.votesForNewVersion version ∨ ∃ time, txn = .nodeUpgrade .complete version frm time} := by
  ext frm
  unfold updateVersion
  split
  · split <;> simp
  · rename_i voted sender time
    have few : ¬self.f < (self.senders voted sender).card := by
      intro enough
      simp [adoption,enough] at kept
    simp only [if_neg few,Finset.mem_coe,Set.mem_ofPred_eq]
    by_cases same : version = voted
    · subst same
      rw [Function.update_self,senders,Finset.mem_insert]
      constructor
      · rintro (rfl | member)
        · exact .inr ⟨time,rfl⟩
        · exact .inl member
      · rintro (member | ⟨moment,vote⟩)
        · exact .inr member
        · exact .inl (VersionTxn.nodeUpgrade.inj vote).2.2.1.symm
    · rw [Function.update_of_ne same]
      refine ⟨.inl,?_⟩
      rintro (member | ⟨moment,vote⟩)
      · exact member
      · exact absurd (VersionTxn.nodeUpgrade.inj vote).2.1.symm same
  · rename_i notStart notVote
    refine ⟨.inl,?_⟩
    rintro (member | ⟨time,rfl⟩)
    · exact member
    · exact absurd rfl (notVote version frm time)

private theorem faults_snoc (txns : List VersionTxn) (txn : VersionTxn) : faults (txns ++ [txn]) =
    match scheduleSize txn with
    | none => faults txns
    | some size => ((size : Int) - 1) / 3 := by
  unfold faults
  rw [List.filterMap_append]
  cases size : scheduleSize txn with
  | none => simp [size]
  | some count => simp [size]

theorem run_f (txns : List VersionTxn) : (init.run txns).f = faults txns := by
  induction txns using List.reverseRecOn with
  | nil => rfl
  | append_singleton txns txn ih => rw [run_snoc,updateVersion_f,faults_snoc,ih]

end Step

section Times

/-- A time that is not before any other takes the last place, from an entry of the same
time if there is one. -/
theorem setVersion_latest (time : Nat) (version : String) (versions : List (Nat × String))
    (times : versions.Pairwise fun first second => first.1 < second.1)
    (past : ∀ entry ∈ versions, entry.1 ≤ time) :
    setVersion time version versions = versions.filter (·.1 < time) ++ [(time,version)] := by
  induction versions with
  | nil => rfl
  | cons entry rest ih =>
    obtain ⟨first,times⟩ := List.pairwise_cons.mp times
    obtain ⟨here,past⟩ := List.forall_mem_cons.mp past
    rw [setVersion,if_neg (not_lt.mpr here)]
    by_cases same : time = entry.1
    · have last : rest = [] := by
        refine List.eq_nil_iff_forall_not_mem.mpr fun other member => ?_
        have after := first other member
        have before := past other member
        omega
      simp [last,same]
    · have before : entry.1 < time := lt_of_le_of_ne here (Ne.symm same)
      rw [if_neg same,ih times past,List.filter_cons_of_pos (by simpa using before)]
      rfl

theorem lastVersionAt_eq (timestamp : Nat) (lastVersion : Option String) (versions : List (Nat × String)) :
    lastVersionAt timestamp lastVersion versions =
      (((versions.takeWhile (·.1 ≤ timestamp)).map Prod.snd).getLast?).or lastVersion := by
  induction versions generalizing lastVersion with
  | nil => rfl
  | cons entry rest ih =>
    rw [lastVersionAt]
    by_cases later : timestamp < entry.1
    · rw [if_pos later,List.takeWhile_cons_of_neg (by simpa using later)]
      rfl
    · rw [if_neg later,ih,List.takeWhile_cons_of_pos (by simpa using later),List.map_cons,List.getLast?_cons]
      cases ((rest.takeWhile (·.1 ≤ timestamp)).map Prod.snd).getLast? <;> rfl

/-- What the controller has stored of the adopted versions, at which of the times. -/
structure Recorded (controller : TxnVersionController) (adopted : List String) (times : List Nat) : Prop where
  increasing : controller.versions.Pairwise fun first second => first.1 < second.1
  past : ∀ entry ∈ controller.versions, entry.1 ∈ times
  logged : (controller.versions.map Prod.snd).Sublist adopted
  latest : controller.version = adopted.getLast?

private theorem Recorded.step {self : TxnVersionController} {adopted : List String} {times : List Nat}
    (recorded : Recorded self adopted times) (txn : VersionTxn) (last : ∀ time ∈ times, time ≤ txn.time) :
    Recorded (self.updateVersion txn) (adopted ++ (self.adoption txn).toList) (times ++ [txn.time]) := by
  obtain ⟨increasing,past,logged,latest⟩ := recorded
  cases adopts : self.adoption txn with
  | none =>
    have kept := versions_kept self txn adopts
    rw [Option.toList_none,List.append_nil]
    refine ⟨kept ▸ increasing,fun entry member => ?_,kept ▸ logged,?_⟩
    · exact List.mem_append_left _ (past entry (kept ▸ member))
    · rw [version,kept]
      exact latest
  | some version =>
    have stored := (versions_adopted self txn adopts).trans (setVersion_latest txn.time version _ increasing
      fun entry member => last entry.1 (past entry member))
    rw [Option.toList_some]
    refine ⟨?_,?_,?_,?_⟩
    · rw [stored,List.pairwise_append]
      refine ⟨increasing.filter _,List.pairwise_singleton _ _,fun entry member newest final => ?_⟩
      obtain rfl := List.mem_singleton.mp final
      simpa using (List.mem_filter.mp member).2
    · intro entry member
      rw [stored,List.mem_append,List.mem_filter,List.mem_singleton] at member
      rcases member with old | rfl
      · exact List.mem_append_left _ (past entry old.1)
      · exact List.mem_append_right _ (List.mem_singleton_self _)
    · rw [stored,List.map_append]
      exact ((List.filter_sublist.map _).trans logged).append (List.Sublist.refl _)
    · rw [TxnVersionController.version,stored,List.getLast?_concat,List.getLast?_concat]
      rfl

theorem run_recorded (txns : List VersionTxn) (timed : (txns.map VersionTxn.time).Pairwise (· ≤ ·)) :
    Recorded (init.run txns) (adoptions init txns) (txns.map VersionTxn.time) := by
  induction txns using List.reverseRecOn with
  | nil => exact ⟨.nil,by simp [init,run],.slnil,rfl⟩
  | append_singleton txns txn ih =>
    rw [List.map_append,List.pairwise_append] at timed
    rw [run_snoc,adoptions_snoc,List.map_append]
    apply (ih timed.1).step txn
    exact fun time member => timed.2.2 time member _ (List.mem_singleton_self _)

private theorem takeWhile_time_initial (versions : List (Nat × String)) {early late : Nat} (ordered : early ≤ late) :
    versions.takeWhile (·.1 ≤ early) <+: versions.takeWhile (·.1 ≤ late) := by
  have narrowed : versions.takeWhile (·.1 ≤ early) =
      (versions.takeWhile (·.1 ≤ late)).takeWhile (·.1 ≤ early) := by
    rw [List.takeWhile_takeWhile]
    congr 1
    funext entry
    simp only [decide_eq_true_eq,decide_eq_decide]
    omega
  rw [narrowed]
  exact List.takeWhile_prefix _

end Times

section Runs
variable (txns : List VersionTxn)

/-- `adopted` speaks about every adoption, `version` about the current version as the
transactions come in and `readings` about the versions given for earlier times. -/
structure NeverBack : Prop where
  adopted : (adoptions init txns).Pairwise fun earlier later => older later earlier = false
  version : ∀ earlier later v w, earlier <+: later → later <+: txns → (init.run earlier).version = some v →
    (init.run later).version = some w → older w v = false
  readings : ∀ early late v w, early ≤ late → (init.run txns).getPoolVersion (some early) = some v →
    (init.run txns).getPoolVersion (some late) = some w → older w v = false
  votes : ∀ before txn v, before ++ [txn] <+: txns → (init.run before).adoption txn = some v →
    ∀ w, (init.run (before ++ [txn])).votesForNewVersion w =
      if older v w then (init.run before).votesForNewVersion w else ∅

/-- Behind the latest adoption at most `f` nodes report a version older than an adopted one, and
when a version gets more votes, the texts of the versions with votes are ordered as their
numbers are. -/
def Orderly (before : List VersionTxn) : VersionTxn → Prop
  | .nodeUpgrade .complete version frm time =>
    (∀ v ∈ adoptions init before, older version v = true →
      ((voters version (sinceAdoption init [] before ++ [.nodeUpgrade .complete version frm time])).card : Int) ≤
        faults before) ∧
      (faults before < ((init.run before).senders version frm).card →
        ∀ w, ((init.run before).votesForNewVersion w).Nonempty → (version < w ↔ older version w = true))
  | _ => True

/-- What is asked at each transaction, of those before it. -/
def EachStep (asked : List VersionTxn → VersionTxn → Prop) : Prop :=
  ∀ before txn, before ++ [txn] <+: txns → asked before txn

def OrderlyRun : Prop := EachStep txns Orderly

/-- The adoption of a version goes not back and leaves the votes for the newer ones. -/
def Forward (before : List VersionTxn) (txn : VersionTxn) : Prop :=
  ∀ version, (init.run before).adoption txn = some version →
    (∀ v ∈ adoptions init before, older version v = false) ∧
      ∀ w, ((init.run before).updateVersion txn).votesForNewVersion w =
        if older version w then (init.run before).votesForNewVersion w else ∅

/-- The votes for a version older than an adopted one have come in behind the latest adoption. -/
def VotesRecent : Prop :=
  ∀ w, ∀ v ∈ adoptions init txns, older w v = true →
    (init.run txns).votesForNewVersion w = voters w (sinceAdoption init [] txns)

variable {txns}

private theorem eachStep_nil (asked : List VersionTxn → VersionTxn → Prop) : EachStep [] asked := by
  intro before txn longer
  simp at longer

private theorem eachStep_snoc (asked : List VersionTxn → VersionTxn → Prop) (txns : List VersionTxn)
    (txn : VersionTxn) :
    EachStep (txns ++ [txn]) asked ↔ EachStep txns asked ∧ asked txns txn := by
  constructor
  · intro all
    refine ⟨fun before other longer => ?_,all txns txn (List.prefix_refl _)⟩
    exact all before other (longer.trans (List.prefix_append _ _))
  · rintro ⟨earlier,last⟩ before other longer
    rcases List.prefix_concat_iff.mp longer with whole | inside
    · obtain ⟨rfl,same⟩ := List.append_inj' whole rfl
      obtain rfl := List.singleton_inj.mp same
      exact last
    · exact earlier before other inside

private theorem sinceAdoption_snoc (self : TxnVersionController) (since txns : List VersionTxn) (txn : VersionTxn) :
    sinceAdoption self since (txns ++ [txn]) =
      if ((self.run txns).adoption txn).isSome then [] else sinceAdoption self since txns ++ [txn] := by
  induction txns generalizing self since with
  | nil => rfl
  | cons first txns ih => exact ih _ _

private theorem mem_voters_snoc {version frm : String} {txns : List VersionTxn} {txn : VersionTxn} :
    frm ∈ voters version (txns ++ [txn]) ↔ frm ∈ voters version txns ∨ voter version txn = some frm := by
  simp [voters]

private theorem voter_eq_some {version frm : String} {txn : VersionTxn} :
    voter version txn = some frm ↔ ∃ time, txn = .nodeUpgrade .complete version frm time := by
  unfold voter
  split
  · rename_i voted sender time
    by_cases same : voted = version
    · simp [same]
    · simp [same]
  · rename_i other
    refine iff_of_false (by simp) ?_
    rintro ⟨time,rfl⟩
    exact other _ _ _ rfl

private theorem votes_voted {version : String} (voted : ((init.run txns).votesForNewVersion version).Nonempty) :
    ∃ txn ∈ txns, ∃ frm, voter version txn = some frm := by
  induction txns using List.reverseRecOn with
  | nil => exact absurd voted Finset.not_nonempty_empty
  | append_singleton txns txn ih =>
    obtain ⟨frm,member⟩ := voted
    rw [run_snoc] at member
    suffices earlier : frm ∈ (init.run txns).votesForNewVersion version ∨ voter version txn = some frm by
      rcases earlier with earlier | vote
      · obtain ⟨other,listed,found⟩ := ih ⟨frm,earlier⟩
        exact ⟨other,List.mem_append_left _ listed,found⟩
      · exact ⟨txn,by simp,frm,vote⟩
    cases adopts : (init.run txns).adoption txn with
    | none =>
      rw [voter_eq_some]
      exact (Set.ext_iff.mp (votes_kept _ txn adopts version) frm).mp member
    | some adopted =>
      rw [votes_adopted _ txn adopts] at member
      split at member
      · exact .inl member
      · exact absurd member (Finset.notMem_empty frm)

private theorem VotesRecent.step {txn : VersionTxn} (recent : VotesRecent txns) (forward : Forward txns txn) :
    VotesRecent (txns ++ [txn]) := by
  intro w v listed below
  rw [adoptions_snoc,List.mem_append] at listed
  rw [run_snoc,sinceAdoption_snoc]
  cases adopts : (init.run txns).adoption txn with
  | none =>
    rw [adopts] at listed
    have known : v ∈ adoptions init txns := by simpa using listed
    rw [Option.isSome_none,if_neg Bool.false_ne_true]
    ext frm
    rw [mem_voters_snoc,← recent w v known below,voter_eq_some]
    exact Set.ext_iff.mp (votes_kept _ txn adopts w) frm
  | some version =>
    rw [adopts] at listed
    obtain ⟨newest,discards⟩ := forward version adopts
    -- The version just adopted is newer or not comparable, so the votes for older ones are gone.
    have gone : older version w = false := by
      apply Bool.eq_false_iff.mpr
      intro above
      have back := older_trans above below
      rcases listed with known | last
      · exact Bool.false_ne_true ((newest v known).symm.trans back)
      · obtain rfl : v = version := by simpa using last
        exact Bool.false_ne_true ((older_self v).symm.trans back)
    rw [discards w,gone]
    rfl

private theorem votesRecent_of_forward (forward : EachStep txns Forward) : VotesRecent txns := by
  induction txns using List.reverseRecOn with
  | nil => exact fun _ _ listed => absurd listed List.not_mem_nil
  | append_singleton txns txn ih =>
    obtain ⟨earlier,last⟩ := (eachStep_snoc Forward txns txn).mp forward
    exact (ih earlier).step last

private theorem senders_recent (recent : VotesRecent txns) {version v : String} (frm : String) (time : Nat)
    (listed : v ∈ adoptions init txns) (below : older version v = true) :
    voters version (sinceAdoption init [] txns ++ [.nodeUpgrade .complete version frm time]) =
      (init.run txns).senders version frm := by
  have vote : voter version (.nodeUpgrade .complete version frm time) = some frm := if_pos rfl
  ext sender
  rw [mem_voters_snoc,← recent version v listed below,vote,senders,Finset.mem_insert,or_comm,Option.some.injEq,
    eq_comm]

private theorem orderly_iff (recent : VotesRecent txns) (txn : VersionTxn) : Orderly txns txn ↔ Forward txns txn := by
  constructor
  · intro orderly version adopts
    obtain ⟨frm,shape,enough⟩ := adoption_some _ txn adopts
    rw [shape,Orderly,← run_f] at orderly
    refine ⟨fun v listed => ?_,fun w => ?_⟩
    · apply Bool.eq_false_iff.mpr
      intro back
      have few := orderly.1 v listed back
      rw [senders_recent recent frm _ listed back] at few
      exact absurd enough (not_lt.mpr few)
    · rw [votes_adopted _ txn adopts]
      rcases ((init.run txns).votesForNewVersion w).eq_empty_or_nonempty with none | some
      · simp [none]
      · simp only [orderly.2 enough w some]
  · intro keeps
    unfold Orderly
    split
    · rename_i version frm time
      have adopts (enough : (init.run txns).f < ((init.run txns).senders version frm).card) :
          (init.run txns).adoption (.nodeUpgrade .complete version frm time) = some version := if_pos enough
      rw [← run_f]
      refine ⟨fun v listed back => ?_,fun enough w some => ?_⟩
      · rw [senders_recent recent frm time listed back]
        by_contra enough
        have forward := (keeps version (adopts (not_le.mp enough))).1 v listed
        exact Bool.false_ne_true (forward.symm.trans back)
      · have kept := (keeps version (adopts enough)).2 w
        rw [votes_adopted _ _ (adopts enough)] at kept
        by_cases newer : version < w
        · rw [if_pos newer] at kept
          refine iff_of_true newer ?_
          by_contra other
          rw [if_neg other] at kept
          exact some.ne_empty kept
        · rw [if_neg newer] at kept
          refine iff_of_false newer fun other => ?_
          rw [if_pos other] at kept
          exact some.ne_empty kept.symm
    · trivial

private theorem orderlyRun_iff (txns : List VersionTxn) : OrderlyRun txns ↔ EachStep txns Forward := by
  induction txns using List.reverseRecOn with
  | nil => exact iff_of_true (eachStep_nil _) (eachStep_nil _)
  | append_singleton txns txn ih =>
    rw [OrderlyRun,eachStep_snoc,eachStep_snoc,← OrderlyRun,ih]
    exact and_congr_right fun forward => orderly_iff (votesRecent_of_forward forward) txn

private theorem adoptions_initial (self : TxnVersionController) {short long : List VersionTxn}
    (longer : short <+: long) :
    adoptions self short <+: adoptions self long := by
  obtain ⟨rest,rfl⟩ := longer
  induction rest using List.reverseRecOn with
  | nil => simp
  | append_singleton rest txn ih =>
    rw [← List.append_assoc,adoptions_snoc]
    exact ih.trans (List.prefix_append _ _)

private theorem adopted_forward (forward : EachStep txns Forward) :
    (adoptions init txns).Pairwise fun earlier later => older later earlier = false := by
  induction txns using List.reverseRecOn with
  | nil => exact .nil
  | append_singleton txns txn ih =>
    obtain ⟨before,last⟩ := (eachStep_snoc Forward txns txn).mp forward
    have before := ih before
    rw [adoptions_snoc]
    cases adopts : (init.run txns).adoption txn with
    | none => simpa using before
    | some version =>
      rw [Option.toList_some,List.pairwise_append]
      refine ⟨before,List.pairwise_singleton _ _,fun earlier listed later final => ?_⟩
      obtain rfl := List.mem_singleton.mp final
      exact (last later adopts).1 earlier listed

private theorem last_not_older {short long : List String} (longer : short <+: long)
    (ordered : long.Pairwise fun earlier later => older later earlier = false) {v w : String}
    (early : short.getLast? = some v) (late : long.getLast? = some w) : older w v = false := by
  rcases last_related ordered longer early late with rfl | forward
  · exact older_self v
  · exact forward

theorem pool_version_iff (timed : (txns.map VersionTxn.time).Pairwise (· ≤ ·)) :
    NeverBack txns ↔ OrderlyRun txns := by
  rw [orderlyRun_iff]
  constructor
  · intro forward before txn longer version adopts
    refine ⟨fun v listed => ?_,fun w => ?_⟩
    · have known := forward.adopted.sublist (adoptions_initial init longer).sublist
      rw [adoptions_snoc,adopts,Option.toList_some,List.pairwise_append] at known
      exact known.2.2 v listed version (List.mem_singleton_self _)
    · rw [← run_snoc]
      exact forward.votes before txn version longer adopts w
  · intro forward
    have adopted := adopted_forward forward
    have latest : ∀ short, short <+: txns →
        (init.run short).version = (adoptions init short).getLast? := fun short longer =>
      (run_recorded short (timed.sublist (longer.sublist.map _))).latest
    refine ⟨adopted,fun earlier later v w first second early late => ?_,
      fun early late v w first before after => ?_,fun before txn v longer adopts w => ?_⟩
    · rw [latest earlier (first.trans second)] at early
      rw [latest later second] at late
      apply last_not_older (adoptions_initial init first) ?_ early late
      exact adopted.sublist (adoptions_initial init second).sublist
    · rw [getPoolVersion,lastVersionAt_eq,Option.or_none] at before after
      apply last_not_older ((takeWhile_time_initial _ first).map _) ?_ before after
      refine adopted.sublist ?_
      exact ((List.takeWhile_sublist _).map _).trans (run_recorded txns timed).logged
    · rw [run_snoc]
      exact (forward before txn longer v adopts).2 w

end Runs

section Samples

def voteFor (version frm : String) (time : Nat) : VersionTxn := .nodeUpgrade .complete version frm time

/-- An upgrade of a pool of four nodes, in which one may be faulty. -/
def fourNodes : VersionTxn := .poolUpgrade
  ⟨.start,"1.9.0",[("A","noon"),("B","noon"),("C","noon"),("D","noon")],none,none,false,1⟩ 0

/-- 1.8.0 is adopted, then 1.9.0, and one node is late. -/
def upwards : List VersionTxn := [fourNodes,voteFor "1.8.0" "A" 1,voteFor "1.9.0" "D" 2,voteFor "1.8.0" "B" 3,
  voteFor "1.9.0" "C" 4,voteFor "1.8.0" "C" 5]

private theorem orderly_few {before : List VersionTxn} {version frm : String} {time : Nat}
    (few : ((init.run before).senders version frm).card ≤ faults before)
    (late : ∀ v ∈ adoptions init before, older version v = true →
      ((voters version (sinceAdoption init [] before ++ [voteFor version frm time])).card : Int) ≤ faults before) :
    Orderly before (voteFor version frm time) :=
  ⟨late,fun enough => absurd enough (not_lt.mpr few)⟩

private theorem upwards_voted {w : String} {txns : List VersionTxn} (early : txns <+: upwards)
    (some : ((init.run txns).votesForNewVersion w).Nonempty) : w = "1.8.0" ∨ w = "1.9.0" := by
  obtain ⟨txn,member,frm,vote⟩ := votes_voted some
  have listed := early.subset member
  simp only [upwards,List.mem_cons,List.not_mem_nil,or_false] at listed
  obtain ⟨time,rfl⟩ := voter_eq_some.mp vote
  rcases listed with wrong | same | same | same | same | same
  · cases wrong
  · exact .inl (VersionTxn.nodeUpgrade.inj same).2.1
  · exact .inr (VersionTxn.nodeUpgrade.inj same).2.1
  · exact .inl (VersionTxn.nodeUpgrade.inj same).2.1
  · exact .inr (VersionTxn.nodeUpgrade.inj same).2.1
  · exact .inl (VersionTxn.nodeUpgrade.inj same).2.1

theorem upwards_never_back : adoptions init upwards = ["1.8.0","1.9.0"] ∧ NeverBack upwards := by
  refine ⟨rfl,(pool_version_iff (by decide)).mpr ?_⟩
  have first := (eachStep_snoc Orderly [] fourNodes).mpr ⟨eachStep_nil _,trivial⟩
  have second := (eachStep_snoc Orderly _ (voteFor "1.8.0" "A" 1)).mpr
    ⟨first,orderly_few (by decide) (by decide)⟩
  have third := (eachStep_snoc Orderly _ (voteFor "1.9.0" "D" 2)).mpr
    ⟨second,orderly_few (by decide) (by decide)⟩
  have fourth := (eachStep_snoc Orderly _ (voteFor "1.8.0" "B" 3)).mpr ⟨third,by decide,fun _ w some => by
    rcases upwards_voted (by decide) some with rfl | rfl <;> decide⟩
  have fifth := (eachStep_snoc Orderly _ (voteFor "1.9.0" "C" 4)).mpr ⟨fourth,by decide,fun _ w some => by
    rcases upwards_voted (by decide) some with rfl | rfl <;> decide⟩
  exact (eachStep_snoc Orderly _ (voteFor "1.8.0" "C" 5)).mpr ⟨fifth,orderly_few (by decide) (by decide)⟩

/-- "1.9.0" comes after "1.10.0" as a text: its vote outlives the adoption of 1.10.0, and
one more brings the pool back. A vote for 1.10.0 does not outlive the adoption of 1.9.0. -/
theorem pool_goes_back :
    adoptions init [fourNodes,voteFor "1.9.0" "A" 1,voteFor "1.10.0" "C" 2,voteFor "1.10.0" "D" 3,
        voteFor "1.9.0" "B" 4] = ["1.10.0","1.9.0"] ∧
      older "1.9.0" "1.10.0" = true ∧
      (init.run [fourNodes,voteFor "1.10.0" "D" 1,voteFor "1.9.0" "A" 2,
        voteFor "1.9.0" "B" 3]).votesForNewVersion "1.10.0" = ∅ := by
  exact ⟨rfl,rfl,rfl⟩

end Samples
end IndyNode.Upgrade

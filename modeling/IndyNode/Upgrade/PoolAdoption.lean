import IndyNode.Upgrade.Notifications
import IndyNode.Upgrade.PoolVersionHistory

/-! The nodes of a pool with the ledger that orders their notices. The version that the
pool adopts has been installed at the nodes that are not faulty and count for it. -/
namespace IndyNode.Upgrade
open TxnVersionController

structure Pool (V : Type) where
  stations : String → Station V
  config : List VersionTxn

inductive PoolEvent (V : Type) where
  | station (node : String) (event : StationEvent V)
  | order (txn : VersionTxn)

section Pool
variable {V : Type} [DecidableEq V] (setups : String → UpgradeSetup V) (full : V → String)
  (faulty : Finset String)

omit [DecidableEq V] in
/-- NODE_UPGRADE of a client is refused and that of a node has its signature, so a node
that is not faulty has sent what is ordered in its name. -/
def Pool.admits (pool : Pool V) : VersionTxn → Bool
  | .nodeUpgrade action version frm _ => frm ∈ faulty ∨
      (pool.stations frm).sent.any fun notice => notice.action = action ∧ full notice.version = version
  | _ => true

/-- How far a node has followed the ledger of the pool is left open. -/
def Pool.step (pool : Pool V) : PoolEvent V → Option (Pool V)
  | .station node event => ((pool.stations node).step (setups node) event).map fun next =>
      { pool with stations := Function.update pool.stations node next }
  | .order txn =>
    if pool.admits full faulty txn then some { pool with config := pool.config ++ [txn] } else none

private theorem Pool.step_config {pool next : Pool V} {event : PoolEvent V}
    (stepped : pool.step setups full faulty event = some next) :
    ∃ added, next.config = pool.config ++ added ∧
      ∀ txn ∈ added, event = .order txn ∧ pool.admits full faulty txn = true := by
  cases event with
  | station node event =>
    obtain ⟨after,-,rfl⟩ := Option.map_eq_some_iff.mp stepped
    exact ⟨[],by simp,by simp⟩
  | order txn =>
    obtain ⟨admitted,made⟩ := Option.ite_none_right_eq_some.mp stepped
    obtain rfl := Option.some.inj made
    refine ⟨[txn],rfl,?_⟩
    rw [List.forall_mem_singleton]
    exact ⟨rfl,admitted⟩

private theorem Pool.step_sent (node : String) {pool next : Pool V} {event : PoolEvent V}
    (stepped : pool.step setups full faulty event = some next) :
    ∃ added, (next.stations node).sent = (pool.stations node).sent ++ added ∧ ∀ notice ∈ added,
      ∃ inner, event = .station node inner ∧ (pool.stations node).Tells (setups node) inner notice := by
  cases event with
  | station other inner =>
    obtain ⟨after,taken,rfl⟩ := Option.map_eq_some_iff.mp stepped
    by_cases same : node = other
    · subst same
      obtain ⟨added,grown,tells⟩ := (Station.step_moves (setups node) _ after inner taken).tells
      exact ⟨added,by simpa using grown,fun notice member => ⟨inner,rfl,tells notice member⟩⟩
    · exact ⟨[],by simp [same],by simp⟩
  | order txn =>
    obtain ⟨-,made⟩ := Option.ite_none_right_eq_some.mp stepped
    obtain rfl := Option.some.inj made
    exact ⟨[],by simp,by simp⟩

private theorem Station.Tells.installed {setup : UpgradeSetup V} {station : Station V} {event : StationEvent V}
    {notice : Notice V} (tells : station.Tells setup event notice) (complete : notice.action = .complete) :
    ∃ pkgName, station.installed pkgName = some notice.version := by
  cases tells with
  | begun data action failTimeout rest first scheduled right => simp at complete
  | ended txns data last =>
    rw [resultOf] at complete ⊢
    split at complete
    · exact ⟨_,by assumption⟩
    · simp at complete

/-- Before some event of the run the node had a release of this version installed. -/
def HadInstalled (start : Pool V) (events : List (PoolEvent V)) (node version : String) : Prop :=
  ∃ k before event, TakenAt (Pool.step setups full faulty) start events k before event ∧
    ∃ pkgName release, (before.stations node).installed pkgName = some release ∧ full release = version

private theorem vote_installed {start final : Pool V} (silent : ∀ node, (start.stations node).sent = [])
    (fresh : start.config = []) {events : List (PoolEvent V)}
    (ran : traced (Pool.step setups full faulty) start events = some final) {version node : String} {time : Nat}
    (vote : .nodeUpgrade .complete version node time ∈ final.config) (correct : node ∉ faulty) :
    HadInstalled setups full faulty start events node version := by
  obtain ⟨k,before,event,⟨-,earlier⟩,-,admitted⟩ := traced_output (Pool.step setups full faulty) Pool.config
    (fun pool event txn => event = .order txn ∧ pool.admits full faulty txn = true)
    (fun _ _ _ => Pool.step_config setups full faulty) fresh ran vote
  simp only [Pool.admits,correct,false_or,decide_eq_true_eq,List.any_eq_true] at admitted
  obtain ⟨notice,told,complete,text⟩ := admitted
  obtain ⟨j,sender,what,taken,inner,-,tells⟩ := traced_output (Pool.step setups full faulty)
    (fun pool => (pool.stations node).sent)
    (fun pool event notice => ∃ inner, event = .station node inner ∧
      (pool.stations node).Tells (setups node) inner notice)
    (fun _ _ _ => Pool.step_sent setups full faulty node) (silent node) earlier told
  obtain ⟨pkgName,installed⟩ := tells.installed complete
  have within := taken.extend (Pool.step setups full faulty) (events.drop k)
  rw [List.take_append_drop] at within
  exact ⟨j,sender,what,within,pkgName,notice.version,installed,text⟩

/-- Whatever the faulty nodes vote, and however the nodes run and restart: when the pool
adopts a version, more nodes than `f` leaves to the faulty ones had it installed. -/
theorem adopted_version_installed (start final : Pool V) (silent : ∀ node, (start.stations node).sent = [])
    (fresh : start.config = []) (events : List (PoolEvent V))
    (ran : traced (Pool.step setups full faulty) start events = some final) (i : Nat) (version : String)
    (adopted : adoptedAt final.config i = some version) :
    ∃ nodes : Finset String, Disjoint nodes faulty ∧
      faults (final.config.take i) < faulty.card + nodes.card ∧
      ∀ node ∈ nodes, HadInstalled setups full faulty start events node version := by
  obtain ⟨txn,found,adopts⟩ := Option.bind_eq_some_iff.mp adopted
  obtain ⟨frm,time,rfl,enough⟩ := (adoption_iff _ _ _).mp adopts
  rw [run_f] at enough
  refine ⟨(init.run (final.config.take i)).senders version frm \ faulty,Finset.sdiff_disjoint,?_,?_⟩
  · have split := Finset.card_le_card_sdiff_add_card (t := faulty)
      (s := (init.run (final.config.take i)).senders version frm)
    omega
  · intro node member
    obtain ⟨votes,correct⟩ := Finset.mem_sdiff.mp member
    have counted : node ∈ Counted final.config (adoptedAt final.config) i version := by
      rw [run_counted ⟨time,found⟩]
      exact votes
    obtain ⟨j,moment,vote⟩ : ∃ j, Votes final.config j version node := by
      rcases counted with ⟨j,-,vote,-⟩ | vote
      · exact ⟨j,vote⟩
      · exact ⟨i,vote⟩
    exact vote_installed setups full faulty silent fresh ran (List.mem_of_getElem? vote) correct

end Pool

section Samples

def stoppedPool : Pool String :=
  ⟨fun _ => ⟨⟨⟨none,[⟨.scheduled,plannedData⟩,⟨.started,plannedData⟩],.empty,[]⟩,[],5,false⟩,fun _ => some "1.1",[]⟩,[]⟩

def twoVotes : List (PoolEvent String) :=
  [.order fourNodes,.order (voteFor "1.1" "A" 1),.station "B" (.restart []),.order (voteFor "1.1" "B" 2)]

theorem one_of_two_installed : ∃ final,
    traced (Pool.step (fun _ => sampleSetup) id {"A"}) stoppedPool twoVotes = some final ∧
    adoptedAt final.config 2 = some "1.1" ∧ ∃ nodes : Finset String, Disjoint nodes {"A"} ∧ 0 < nodes.card ∧
      ∀ node ∈ nodes, HadInstalled (fun _ => sampleSetup) id {"A"} stoppedPool twoVotes node "1.1" := by
  let ran : traced (Pool.step (fun _ => sampleSetup) id {"A"}) stoppedPool twoVotes = some _ := rfl
  have adopted : adoptedAt [fourNodes,voteFor "1.1" "A" 1,voteFor "1.1" "B" 2] 2 = some "1.1" := by decide
  refine ⟨_,ran,adopted,?_⟩
  obtain ⟨nodes,apart,enough,installed⟩ := adopted_version_installed (fun _ => sampleSetup) id {"A"}
    stoppedPool _ (fun _ => rfl) rfl twoVotes ran 2 "1.1" adopted
  refine ⟨nodes,apart,?_,installed⟩
  have bound : (1 : Int) < 1 + nodes.card := enough
  omega

end Samples
end IndyNode.Upgrade

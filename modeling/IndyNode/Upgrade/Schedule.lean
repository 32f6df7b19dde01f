import IndyNode.Python
import Mathlib.Algebra.Order.Group.Unbundled.Int
import Mathlib.Data.Finset.Basic
import Mathlib.Data.List.Sort

/-! The schedule of a POOL_UPGRADE. Every node with services has a time of its own in it, in
the future and apart from the times of the other nodes. -/
namespace IndyNode.Upgrade

/-- Instants are in microseconds. -/
structure ParsedTime where
  zoned : Bool
  instant : Int
deriving DecidableEq, Repr

/-- `parse` refuses a text where the date parser raises `ValueError`; `minSep` is in seconds. -/
structure ScheduleSetup where
  parse : String → Option ParsedTime
  timeText : ParsedTime → String
  secondsText : Int → String
  minSep : Int

/-- `when <= now` for a `now` with a zone. -/
def ParsedTime.notAfter (when : ParsedTime) (now : Int) : Except Raised Bool :=
  if when.zoned then .ok (when.instant ≤ now) else .error .typeError

section Validation
variable (setup : ScheduleSetup) (now : Int) (force : Bool)

/-- The loop over the times, which returns a reason or goes on with one more time. -/
def collectTimes (times : List Int) : List String → Except Raised (String ⊕ List Int)
  | [] => .ok (.inr times)
  | dateStr :: rest =>
    match setup.parse dateStr with
    | none => .ok (.inl (dateStr ++ " cannot be parsed to a time"))
    | some when => do
      let past ← when.notAfter now
      if past && !force then .ok (.inl (setup.timeText when ++ " is less than current time"))
      else collectTimes (times ++ [when.instant]) rest

/-- The first difference between neighbours that is too small. -/
def closeNeighbours (least : Int) : List Int → Option Int
  | first :: second :: rest =>
    if second - first < least then some (second - first) else closeNeighbours least (second :: rest)
  | _ => none

def nonDemotedNodes (nodeSrvs : List (String × List String)) : Finset String :=
  ((nodeSrvs.filter fun node => node.2 ≠ []).map Prod.fst).toFinset

def isScheduleValid (schedule : List (String × String)) (nodeSrvs : List (String × List String)) :
    Except Raised (Bool × String) :=
  if force = false ∧ (schedule.map Prod.fst).toFinset ≠ nonDemotedNodes nodeSrvs then
    .ok (false,"Schedule should contain id of all nodes")
  else do
    match ← collectTimes setup now force [] (schedule.map Prod.snd) with
    | .inl reason => .ok (false,reason)
    | .inr times =>
      if force then .ok (true,"")
      else
        match closeNeighbours (setup.minSep * 1000000) (times.insertionSort (· ≤ ·)) with
        | some diff => .ok (false,"time span between upgrades is " ++ setup.secondsText diff ++
            " seconds which is less than specified in the config")
        | none => .ok (true,"")

end Validation

section Specification
variable (setup : ScheduleSetup) (now : Int) (force : Bool) (schedule : List (String × String))
  (nodeSrvs : List (String × List String))

/-- Exactly the nodes with services are scheduled. -/
def IdsRight : Prop := ∀ id, id ∈ schedule.map Prod.fst ↔ ∃ services, (id,services) ∈ nodeSrvs ∧ services ≠ []

/-- The times that the texts stand for. -/
def Denotes (texts : List String) (times : List ParsedTime) : Prop :=
  texts.map setup.parse = times.map some

def ScheduleRight : Prop :=
  if force then ∃ times, Denotes setup (schedule.map Prod.snd) times
  else IdsRight schedule nodeSrvs ∧ ∃ times, Denotes setup (schedule.map Prod.snd) times ∧
    (∀ time ∈ times, now < time.instant) ∧
    times.Pairwise fun a b => setup.minSep * 1000000 ≤ |a.instant - b.instant|

/-- The validation ends with this text. -/
def Stops (text : String) : Prop :=
  setup.parse text = none ∨ force = false ∧ ∃ time, setup.parse text = some time ∧ time.zoned = true ∧ time.instant ≤ now

def Zoneless (text : String) : Prop := ∃ time, setup.parse text = some time ∧ time.zoned = false

/-- Every text without a zone stands behind one with which the validation ends. -/
def ZonesReached (texts : List String) : Prop :=
  ∀ before text after, texts = before ++ text :: after → Zoneless setup text → ∃ other ∈ before, Stops setup now force other

/-- There is a verdict, and it is the right one. -/
def Decided : Prop :=
  ∃ valid reason, isScheduleValid setup now force schedule nodeSrvs = .ok (valid,reason) ∧
    (valid = true ↔ ScheduleRight setup now force schedule nodeSrvs)

end Specification

section Separation

/-- In a sorted list it is enough to compare neighbours. -/
theorem closeNeighbours_none (least : Int) {times : List Int} (sorted : times.Pairwise (· ≤ ·)) :
    closeNeighbours least times = none ↔ times.Pairwise fun a b => least ≤ |a - b| := by
  let apart (a b : Int) : Prop := a ≤ b ∧ least ≤ b - a
  have chained : closeNeighbours least times = none ↔ times.IsChain apart := by
    induction times with
    | nil => simp [closeNeighbours]
    | cons first rest ih =>
      cases rest with
      | nil => simp [closeNeighbours]
      | cons second rest =>
        obtain ⟨below,sorted⟩ := List.pairwise_cons.mp sorted
        have ordered := below second List.mem_cons_self
        rw [closeNeighbours,List.isChain_cons_cons,← ih sorted]
        by_cases close : second - first < least
        · rw [if_pos close]
          refine iff_of_false (by simp) fun both => ?_
          exact absurd close (not_lt.mpr both.1.2)
        · rw [if_neg close]
          exact (and_iff_right ⟨ordered,not_lt.mp close⟩).symm
  have : Trans apart apart apart := ⟨fun {a b c} first second => ⟨first.1.trans second.1,by
    have := first.2
    have := second.1
    omega⟩⟩
  rw [chained,List.isChain_iff_pairwise]
  constructor
  · intro pairs
    refine pairs.imp fun {a b} both => ?_
    rw [abs_sub_comm,abs_of_nonneg (sub_nonneg.mpr both.1)]
    exact both.2
  · intro pairs
    refine (sorted.and pairs).imp fun {a b} both => ⟨both.1,?_⟩
    rw [abs_sub_comm,abs_of_nonneg (sub_nonneg.mpr both.1)] at both
    exact both.2

private theorem closeNeighbours_sorted (least : Int) (times : List Int) :
    closeNeighbours least (times.insertionSort (· ≤ ·)) = none ↔ times.Pairwise fun a b => least ≤ |a - b| := by
  rw [closeNeighbours_none least (List.pairwise_insertionSort (· ≤ ·) times)]
  apply List.Perm.pairwise_iff ?_ (List.perm_insertionSort (· ≤ ·) times)
  intro a b far
  rwa [abs_sub_comm]

end Separation

section Collected
variable {setup : ScheduleSetup} {now : Int} {force : Bool}

private theorem denotes_cons {text : String} {rest : List String} {times : List ParsedTime} :
    Denotes setup (text :: rest) times ↔
      ∃ time later, times = time :: later ∧ setup.parse text = some time ∧ Denotes setup rest later := by
  cases times with
  | nil => simp [Denotes]
  | cons time later => simp [Denotes,and_assoc]

private theorem zonesReached_cons {text : String} (zoned : ¬Zoneless setup text)
    (goes : ¬Stops setup now force text) (rest : List String) :
    ZonesReached setup now force (text :: rest) ↔ ZonesReached setup now force rest := by
  constructor
  · intro reached before other after shape zoneless
    obtain ⟨stop,member,stops⟩ := reached (text :: before) other after (by rw [shape]; rfl) zoneless
    rcases List.mem_cons.mp member with rfl | member
    · exact absurd stops goes
    · exact ⟨stop,member,stops⟩
  · intro reached before other after shape zoneless
    rcases List.cons_eq_append_iff.mp shape with ⟨rfl,rest⟩ | ⟨before,rfl,tail⟩
    · obtain ⟨rfl,-⟩ := List.cons.inj rest
      exact absurd zoneless zoned
    · obtain ⟨stop,member,stops⟩ := reached before other after tail zoneless
      exact ⟨stop,List.mem_cons_of_mem _ member,stops⟩

private theorem zonesReached_stop {text : String} {rest : List String} (zoned : ¬Zoneless setup text)
    (stops : Stops setup now force text) : ZonesReached setup now force (text :: rest) := by
  intro before other after shape zoneless
  rcases List.cons_eq_append_iff.mp shape with ⟨rfl,rest⟩ | ⟨before,rfl,-⟩
  · obtain ⟨rfl,-⟩ := List.cons.inj rest
    exact absurd zoneless zoned
  · exact ⟨text,List.mem_cons_self,stops⟩

variable (setup now force) in
/-- The texts parse, and unless forced to times in the future. -/
def Admits (texts : List String) (times : List ParsedTime) : Prop :=
  Denotes setup texts times ∧ (force = false → ∀ time ∈ times, now < time.instant)

variable (setup now force) in
/-- How the loop ends. -/
inductive Collected (times : List Int) (texts : List String) : Except Raised (String ⊕ List Int) → Prop where
  | raises (unreached : ¬ZonesReached setup now force texts) : Collected times texts (.error .typeError)
  | stops (reason : String) (reached : ZonesReached setup now force texts)
      (refused : ∀ parsed, ¬Admits setup now force texts parsed) : Collected times texts (.ok (.inl reason))
  | passes (parsed : List ParsedTime) (reached : ZonesReached setup now force texts)
      (admits : Admits setup now force texts parsed) :
      Collected times texts (.ok (.inr (times ++ parsed.map ParsedTime.instant)))

private theorem zonesReached_zoneless {text : String} {rest : List String} (zoneless : Zoneless setup text) :
    ¬ZonesReached setup now force (text :: rest) := by
  intro reached
  obtain ⟨stop,member,-⟩ := reached [] text rest rfl zoneless
  cases member

private theorem Collected.behind {times : List Int} {text : String} {rest : List String} {time : ParsedTime}
    {outcome : Except Raised (String ⊕ List Int)} (reads : setup.parse text = some time)
    (zoned : ¬Zoneless setup text) (goes : ¬Stops setup now force text)
    (future : force = false → now < time.instant)
    (collected : Collected setup now force (times ++ [time.instant]) rest outcome) :
    Collected setup now force times (text :: rest) outcome := by
  have same := zonesReached_cons zoned goes rest
  cases collected with
  | raises unreached => exact .raises (mt same.mp unreached)
  | stops reason reached refused =>
    refine .stops reason (same.mpr reached) fun all admits => ?_
    obtain ⟨other,later,rfl,-,denotes⟩ := denotes_cons.mp admits.1
    exact refused later ⟨denotes,fun unforced => (List.forall_mem_cons.mp (admits.2 unforced)).2⟩
  | passes parsed reached admits =>
    have ends : Collected setup now force times (text :: rest)
        (.ok (.inr (times ++ (time :: parsed).map ParsedTime.instant))) := by
      refine .passes (time :: parsed) (same.mpr reached) ⟨?_,fun unforced => ?_⟩
      · exact denotes_cons.mpr ⟨time,parsed,rfl,reads,admits.1⟩
      · exact List.forall_mem_cons.mpr ⟨future unforced,admits.2 unforced⟩
    rwa [List.map_cons,List.append_cons] at ends

private theorem zoneless_parsed {text : String} {time : ParsedTime} (reads : setup.parse text = some time) :
    Zoneless setup text ↔ time.zoned = false := by
  simp [Zoneless,reads]

private theorem stops_parsed {text : String} {time : ParsedTime} (reads : setup.parse text = some time) :
    Stops setup now force text ↔ force = false ∧ time.zoned = true ∧ time.instant ≤ now := by
  simp [Stops,reads]

variable (setup now force) in
private theorem collectTimes_collected (texts : List String) (times : List Int) :
    Collected setup now force times texts (collectTimes setup now force times texts) := by
  induction texts generalizing times with
  | nil =>
    have ends : Collected setup now force times [] (.ok (.inr (times ++ [].map ParsedTime.instant))) :=
      .passes [] (by simp [ZonesReached]) ⟨rfl,by simp⟩
    rwa [List.map_nil,List.append_nil] at ends
  | cons text rest ih =>
    rw [collectTimes]
    cases parsed : setup.parse text with
    | none =>
      refine .stops _ (zonesReached_stop (by simp [Zoneless,parsed]) (.inl parsed)) fun all admits => ?_
      obtain ⟨time,later,-,found,-⟩ := denotes_cons.mp admits.1
      rw [parsed] at found
      cases found
    | some time =>
      cases zoned : time.zoned with
      | false =>
        simp only [ParsedTime.notAfter,zoned,Bool.false_eq_true,if_false,error_bind]
        exact .raises (zonesReached_zoneless ((zoneless_parsed parsed).mpr zoned))
      | true =>
        have fine : ¬Zoneless setup text := by simp [zoneless_parsed parsed,zoned]
        simp only [ParsedTime.notAfter,zoned,if_true,ok_bind]
        by_cases past : force = false ∧ time.instant ≤ now
        · have stops : Stops setup now force text := (stops_parsed parsed).mpr ⟨past.1,zoned,past.2⟩
          rw [if_pos (by simp [past.1,past.2])]
          refine .stops _ (zonesReached_stop fine stops) fun all admits => ?_
          obtain ⟨other,later,rfl,found,-⟩ := denotes_cons.mp admits.1
          obtain rfl := Option.some.inj (parsed.symm.trans found)
          exact absurd (admits.2 past.1 _ List.mem_cons_self) (not_lt.mpr past.2)
        · have goes : ¬Stops setup now force text := by
            rw [stops_parsed parsed]
            exact fun early => past ⟨early.1,early.2.2⟩
          rw [if_neg (by simpa [and_comm] using past)]
          apply Collected.behind parsed fine goes ?_ (ih _)
          exact fun unforced => not_le.mp fun early => past ⟨unforced,early⟩

end Collected

section Verdicts
variable (setup : ScheduleSetup) (now : Int) (force : Bool) (schedule : List (String × String))
  (nodeSrvs : List (String × List String))

private theorem ids_iff : (schedule.map Prod.fst).toFinset = nonDemotedNodes nodeSrvs ↔ IdsRight schedule nodeSrvs := by
  rw [Finset.ext_iff]
  refine forall_congr' fun id => ?_
  simp [nonDemotedNodes,and_comm]

variable {setup now force}

private theorem Denotes.unique {texts : List String} {times others : List ParsedTime} (one : Denotes setup texts times)
    (two : Denotes setup texts others) : times = others :=
  List.map_injective_iff.mpr (Option.some_injective _) (one.symm.trans two)

private theorem Admits.right {texts : List String} {parsed : List ParsedTime}
    (admits : Admits setup now false texts parsed) :
    (∃ times, Denotes setup texts times ∧ (∀ time ∈ times, now < time.instant) ∧
      times.Pairwise fun a b => setup.minSep * 1000000 ≤ |a.instant - b.instant|) ↔
      closeNeighbours (setup.minSep * 1000000) ((parsed.map ParsedTime.instant).insertionSort (· ≤ ·)) = none := by
  rw [closeNeighbours_sorted,List.pairwise_map]
  constructor
  · rintro ⟨times,denotes,-,apart⟩
    rwa [admits.1.unique denotes]
  · exact fun apart => ⟨parsed,admits.1,admits.2 rfl,apart⟩

theorem schedule_verdict_iff (setup : ScheduleSetup) (now : Int) (force : Bool) (schedule : List (String × String))
    (nodeSrvs : List (String × List String)) : Decided setup now force schedule nodeSrvs ↔
      (force = false ∧ ¬IdsRight schedule nodeSrvs) ∨ ZonesReached setup now force (schedule.map Prod.snd) := by
  unfold Decided isScheduleValid
  by_cases mismatch : force = false ∧ ¬IdsRight schedule nodeSrvs
  · obtain ⟨rfl,wrong⟩ := mismatch
    rw [if_pos ⟨rfl,mt (ids_iff schedule nodeSrvs).mp wrong⟩]
    refine iff_of_true ⟨false,_,rfl,iff_of_false (by simp) fun right => ?_⟩ (.inl ⟨rfl,wrong⟩)
    rw [ScheduleRight,if_neg Bool.false_ne_true] at right
    exact wrong right.1
  · rw [if_neg (by rwa [ne_eq,ids_iff]),or_iff_right mismatch]
    have collected := collectTimes_collected setup now force (schedule.map Prod.snd) []
    generalize collectTimes setup now force [] (schedule.map Prod.snd) = outcome at collected ⊢
    cases collected with
    | raises unreached =>
      refine iff_of_false ?_ unreached
      rintro ⟨valid,reason,answer,-⟩
      cases answer
    | stops reason reached refused =>
      refine iff_of_true ⟨false,reason,rfl,iff_of_false (by simp) fun right => ?_⟩ reached
      unfold ScheduleRight at right
      cases force with
      | true =>
        obtain ⟨times,denotes⟩ := right
        exact refused times ⟨denotes,fun unforced => by cases unforced⟩
      | false =>
        obtain ⟨-,times,denotes,future,-⟩ := right
        exact refused times ⟨denotes,fun _ => future⟩
    | passes parsed reached admits =>
      refine iff_of_true ?_ reached
      unfold ScheduleRight
      cases force with
      | true => exact ⟨true,"",rfl,iff_of_true rfl ⟨parsed,admits.1⟩⟩
      | false =>
        have ids : IdsRight schedule nodeSrvs := not_not.mp fun wrong => mismatch ⟨rfl,wrong⟩
        simp only [ok_bind,List.nil_append,Bool.false_eq_true,if_false,ids,true_and,admits.right]
        cases close : closeNeighbours (setup.minSep * 1000000)
            ((parsed.map ParsedTime.instant).insertionSort (· ≤ ·)) with
        | none => exact ⟨true,"",rfl,by simp⟩
        | some diff => exact ⟨false,_,rfl,by simp⟩

/-- Two nodes, with a parser that takes the two texts for the time in a day. -/
def sampleSchedule : ScheduleSetup where
  parse text := if text = "2030-01-01T00:00:00+00:00" then some ⟨true,86400000000⟩
    else if text = "2030-01-01T00:00:00" then some ⟨false,86400000000⟩ else none
  timeText time := toString time.instant
  secondsText := toString
  minSep := 300

theorem zoneless_time_raises :
    isScheduleValid sampleSchedule 0 false [("Alpha","2030-01-01T00:00:00")] [("Alpha",["VALIDATOR"])] =
        .error .typeError ∧
      isScheduleValid sampleSchedule 0 true [("Alpha","2030-01-01T00:00:00")] [("Alpha",["VALIDATOR"])] =
        .error .typeError ∧
      ¬Decided sampleSchedule 0 false [("Alpha","2030-01-01T00:00:00")] [("Alpha",["VALIDATOR"])] := by
  have raises : isScheduleValid sampleSchedule 0 false [("Alpha","2030-01-01T00:00:00")]
      [("Alpha",["VALIDATOR"])] = .error .typeError := by decide
  refine ⟨raises,by decide,?_⟩
  rintro ⟨valid,reason,answer,-⟩
  rw [raises] at answer
  cases answer

end Verdicts
end IndyNode.Upgrade

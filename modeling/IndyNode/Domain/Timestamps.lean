import IndyNode.Domain.AttributeReads

/-! Reads by a time. A client may send any integer, zero and negative ones included,
and the handlers test it by its truth where `lookup_version` tests whether it is there. -/
namespace IndyNode.Domain
open Authorize Nym

section Lookup
variable {ι α : Type} (node : Committed ι) (read : Ledger ι → Option α)

private theorem lookupVersion_time (timestamp : Int) : lookupVersion node read none (some timestamp) =
    .ok (if timestamp = 0 then read node.ledger else readAtTime node read timestamp) := by
  by_cases zero : timestamp = 0 <;> simp [lookupVersion,zero]

def mutuallyExclusive (req : Request) : Raised :=
  invalid req "seqNo and timestamp are mutually exclusive; only one should be specified"

private theorem checkVersion_both (req : Request) (seqNo : Nat) (timestamp : Int) :
    checkVersion req (some seqNo) (some timestamp) =
      if timestamp ≠ 0 ∧ seqNo ≠ 0 then .error (mutuallyExclusive req) else .ok () := by
  simp [checkVersion,raiseIf,mutuallyExclusive]

/-- With both given, the handler refuses by truth and the lookup raises by presence. -/
theorem both_given {β : Type} (req : Request) (seqNo : Nat) (timestamp : Int)
    (rest : Option α → Except Raised β) :
    (do
      checkVersion req (some seqNo) (some timestamp)
      rest (← lookupVersion node read (some seqNo) (some timestamp))) =
      .error (if timestamp ≠ 0 ∧ seqNo ≠ 0 then mutuallyExclusive req else .valueError) := by
  rw [checkVersion_both]
  split
  · rfl
  · simp [lookupVersion]

private theorem refused_iff {β : Type} (req : Request) (seqNo : Nat) (timestamp : Int) (result : Except Raised β)
    (both : result = .error (if timestamp ≠ 0 ∧ seqNo ≠ 0 then mutuallyExclusive req else .valueError)) :
    (∃ reason, result = .error (invalid req reason)) ↔ timestamp ≠ 0 ∧ seqNo ≠ 0 := by
  rw [both]
  split
  · rename_i given
    exact iff_of_true ⟨_,rfl⟩ given
  · rename_i given
    refine iff_of_false ?_ given
    simp [invalid]

/-- The reply to a request by a time, with a record. -/
def nymReplyAt (did : Did) (timestamp : Int) (found : Option NymRecord) : NymReply :=
  (NymReply.of did found).update none (some timestamp)

private theorem nymReplyAt_inj (did : Did) (timestamp : Int) (first second : Option NymRecord)
    (same : nymReplyAt did timestamp first = nymReplyAt did timestamp second) : first = second := by
  have data := congrArg NymReply.data same
  cases first <;> cases second <;> simp_all [nymReplyAt,NymReply.update,NymReply.of]

private theorem getNymResult_time (req : Request) (did : Did) (timestamp : Int) :
    getNymResult node req did none (some timestamp) = .ok (nymReplyAt did timestamp (if timestamp = 0 then
      node.ledger.nyms.nyms did else readAtTime node (fun ledger => ledger.nyms.nyms did) timestamp)) := by
  rw [getNymResult,lookupVersion_time]
  simp [checkVersion,raiseIf,nymReplyAt]

end Lookup

section Past
variable {ι : Type} [DecidableEq ι] [Revocation.PyStr ι] [PyHash ι] [LE ι] [DecidableLE ι]
  (setup : Setup)

/-- The batches that were committed no later than a time. -/
def batchesUpTo (batches : List (Batch ι)) (timestamp : Int) : List (Batch ι) :=
  batches.filter fun batch => (batch.time : Int) ≤ timestamp

/-- The transactions with a time not later than the given one, in their order. -/
def historyUpTo (batches : List (Batch ι)) (timestamp : Int) : List (Ordered ι) :=
  (batchesUpTo batches timestamp).flatMap Batch.ordered

omit [DecidableEq ι] [Revocation.PyStr ι] [PyHash ι] [LE ι] [DecidableLE ι] in
private theorem batchesUpTo_nonpos (batches : List (Batch ι)) (timestamp : Int) (early : timestamp ≤ 0) :
    batchesUpTo batches timestamp = [] := by
  apply List.filter_eq_nil_iff.mpr
  intro batch _
  have timed := batch.timed
  simp only [decide_eq_true_eq,not_le]
  omega

omit [DecidableEq ι] [Revocation.PyStr ι] [PyHash ι] [LE ι] [DecidableLE ι] in
theorem historyUpTo_times (batches : List (Batch ι)) (timestamp : Int) (ordered : Ordered ι) :
    ordered ∈ historyUpTo batches timestamp ↔
      ordered ∈ batches.flatMap Batch.ordered ∧ (ordered.time : Int) ≤ timestamp := by
  simp only [historyUpTo,batchesUpTo,List.mem_flatMap,List.mem_filter,decide_eq_true_eq]
  constructor
  · rintro ⟨batch,⟨listed,early⟩,member⟩
    obtain ⟨txn,_,rfl⟩ := List.mem_map.mp member
    exact ⟨⟨batch,listed,member⟩,early⟩
  · rintro ⟨⟨batch,listed,member⟩,early⟩
    refine ⟨batch,⟨listed,?_⟩,member⟩
    obtain ⟨txn,_,rfl⟩ := List.mem_map.mp member
    exact early

private theorem commitBatches_snoc (node next : Committed ι) (batches : List (Batch ι)) (batch : Batch ι)
    (ok : commitBatches setup node (batches ++ [batch]) = .ok next) :
    ∃ before, commitBatches setup node batches = .ok before ∧ commitBatch setup before batch = .ok next := by
  rw [commitBatches,List.foldlM_append] at ok
  obtain ⟨before,earlier,ok⟩ := bind_success _ _ _ ok
  rw [List.foldlM_cons] at ok
  obtain ⟨last,committed,ok⟩ := bind_success _ _ _ ok
  obtain rfl := Except.ok.inj ok
  exact ⟨before,earlier,committed⟩

/-- The root that a time leads to belongs to the last batch up to that time, and no root
is later than the last batch. -/
theorem roots_committed (start : Ledger ι) (batches : List (Batch ι)) (node : Committed ι)
    (sorted : batches.Pairwise fun first second => first.time ≤ second.time)
    (committed : commitBatches setup (.genesis start) batches = .ok node) :
    (∀ time, (∀ batch ∈ batches, batch.time < time) → node.tsStore time = none) ∧
    ∀ time : Nat, ∃ past, commitBatches setup (.genesis start) (batchesUpTo batches time) = .ok past ∧
      TimedRoots.equalOrPrev node.tsStore time =
        if batchesUpTo batches time = [] then none else some past.ledger := by
  induction batches using List.reverseRecOn generalizing node with
  | nil =>
    obtain rfl := Except.ok.inj committed
    refine ⟨fun _ _ => rfl,fun time => ⟨_,rfl,?_⟩⟩
    exact TimedRoots.equalOrPrev_empty time
  | append_singleton batches batch ih =>
    obtain ⟨before,earlier,last⟩ := commitBatches_snoc setup _ _ batches batch committed
    obtain ⟨ordered,_,below⟩ := List.pairwise_append.mp sorted
    obtain ⟨fresh,found⟩ := ih before ordered earlier
    obtain ⟨ledger,_,stored⟩ := bind_success _ _ _ last
    obtain rfl := Except.ok.inj stored
    have later : ∀ time, batch.time < time → before.tsStore time = none := by
      intro time after
      refine fresh time fun other member => ?_
      exact lt_of_le_of_lt (below other member batch (by simp)) after
    constructor
    · intro time above
      have after := above batch (by simp)
      exact (Function.update_of_ne after.ne' ..).trans (later time after)
    · intro time
      rw [TimedRoots.equalOrPrev_update _ _ _ later]
      by_cases early : batch.time ≤ time
      · have all : batchesUpTo (batches ++ [batch]) time = batches ++ [batch] := by
          apply List.filter_eq_self.mpr
          intro other member
          have upto : other.time ≤ batch.time := by
            rcases List.mem_append.mp member with old | new
            · exact below other old batch (by simp)
            · rw [List.mem_singleton.mp new]
          simp only [decide_eq_true_eq]
          omega
        rw [all,if_pos early]
        exact ⟨_,committed,by simp⟩
      · have none : batchesUpTo (batches ++ [batch]) time = batchesUpTo batches time := by
          simp [batchesUpTo,early]
        rw [none,if_neg early]
        exact found time

theorem readAtTime_committed {α : Type} (read : Ledger ι → Option α) (start : Ledger ι)
    (batches : List (Batch ι)) (node : Committed ι)
    (sorted : batches.Pairwise fun first second => first.time ≤ second.time)
    (committed : commitBatches setup (.genesis start) batches = .ok node) (timestamp : Int) :
    ∃ past, Run setup start (historyUpTo batches timestamp) past ∧
      readAtTime node read timestamp = if batchesUpTo batches timestamp = [] then none else read past := by
  by_cases negative : timestamp < 0
  · have nothing := batchesUpTo_nonpos batches timestamp (by omega)
    refine ⟨start,?_,by rw [readAtTime,if_pos negative,if_pos nothing]⟩
    rw [historyUpTo,nothing]
    exact .start
  · obtain ⟨time,rfl⟩ := Int.eq_ofNat_of_zero_le (Int.not_lt.mp negative)
    obtain ⟨past,reached,root⟩ := (roots_committed setup start batches node sorted committed).2 time
    have consistent := (Consistent.genesis setup start).commitBatches setup (batchesUpTo batches time)
      (by simp) (sorted.filter _) reached
    refine ⟨past.ledger,consistent.run,?_⟩
    rw [readAtTime_natural,readAt,root]
    split <;> rfl

omit [DecidableEq ι] [Revocation.PyStr ι] [PyHash ι] [LE ι] [DecidableLE ι] in
private theorem batchesUpTo_initial (batches : List (Batch ι)) (timestamp : Int)
    (sorted : batches.Pairwise fun first second => first.time ≤ second.time) :
    batchesUpTo batches timestamp <+: batches := by
  induction sorted with
  | nil => exact List.prefix_rfl
  | @cons batch batches first _ ih =>
    by_cases early : (batch.time : Int) ≤ timestamp
    · rw [batchesUpTo,List.filter_cons_of_pos (by simpa using early)]
      exact (List.prefix_cons_inj batch).mpr ih
    · have nothing : batchesUpTo (batch :: batches) timestamp = [] := by
        apply List.filter_eq_nil_iff.mpr
        intro other member
        simp only [decide_eq_true_eq]
        rcases List.mem_cons.mp member with rfl | later
        · exact early
        · have after := first other later
          omega
      rw [nothing]
      exact List.nil_prefix

end Past

section Nyms
variable {ι : Type} [DecidableEq ι] [Revocation.PyStr ι] [PyHash ι] [LE ι] [DecidableLE ι]
  (setup : Setup)

/-- What the last transaction up to a time has left of a DID. The transactions of the
genesis have no time and are none of them. -/
inductive NymLeft (start : Ledger ι) (batches : List (Batch ι)) (timestamp : Int) (did : Did) :
    Option NymRecord → Prop where
  | nothing (untouched : ∀ ordered ∈ historyUpTo batches timestamp, ¬ordered.txn.Targets setup did) :
      NymLeft start batches timestamp did none
  | written (earlier later : List (Ordered ι)) (ordered : Ordered ι) (after : Ledger ι)
      (record : NymRecord)
      (history : historyUpTo batches timestamp = earlier ++ ordered :: later)
      (target : ordered.txn.Targets setup did)
      (last : ∀ other ∈ later, ¬other.txn.Targets setup did)
      (run : Run setup start (earlier ++ [ordered]) after)
      (left : after.nyms.nyms did = some record) : NymLeft start batches timestamp did (some record)

/-- The DID is on the ledger since the genesis and has no NYM up to the time, but some batch
was committed by then: its record is part of the state after that batch. -/
def GenesisShown (start : Ledger ι) (batches : List (Batch ι)) (timestamp : Int) (did : Did) : Prop :=
  start.nyms.nyms did ≠ none ∧ batchesUpTo batches timestamp ≠ [] ∧
    ∀ ordered ∈ historyUpTo batches timestamp, ¬ordered.txn.Targets setup did

private theorem Run.last_nym {start final : Ledger ι} {history : List (Ordered ι)}
    (run : Run setup start history final) (did : Did) :
    (∀ ordered ∈ history, ¬ordered.txn.Targets setup did) ∧ final.nyms.nyms did = start.nyms.nyms did ∨
    ∃ earlier later ordered after record, history = earlier ++ ordered :: later ∧
      ordered.txn.Targets setup did ∧ (∀ other ∈ later, ¬other.txn.Targets setup did) ∧
      Run setup start (earlier ++ [ordered]) after ∧ after.nyms.nyms did = some record ∧
      final.nyms.nyms did = some record := by
  induction run with
  | start => exact .inl ⟨by simp,rfl⟩
  | step history before final ordered run ok ih =>
    have applied := applyTxn_applied setup before final ordered ok
    by_cases target : ordered.txn.Targets setup did
    · obtain ⟨record,stored,_⟩ := applied.nyms_targeted setup did target
      exact .inr ⟨history,[],ordered,final,record,rfl,target,by simp,.step _ _ _ _ run ok,stored,stored⟩
    · have kept := applied.nyms_untargeted setup did target
      rcases ih with ⟨none,same⟩ | ⟨earlier,later,other,after,record,rfl,targets,last,reached,left,found⟩
      · refine .inl ⟨List.forall_mem_append.mpr ⟨none,List.forall_mem_singleton.mpr target⟩,kept.trans same⟩
      · refine .inr ⟨earlier,later ++ [ordered],other,after,record,by simp,targets,?_,reached,left,
          kept.trans found⟩
        exact List.forall_mem_append.mpr ⟨last,List.forall_mem_singleton.mpr target⟩

variable {start : Ledger ι} {batches : List (Batch ι)} {node : Committed ι}
  (sorted : batches.Pairwise fun first second => first.time ≤ second.time)
  (committed : commitBatches setup (.genesis start) batches = .ok node)

include sorted committed in
private theorem readAtTime_nym (timestamp : Int) (did : Did) : NymLeft setup start batches timestamp did
      (readAtTime node (fun ledger => ledger.nyms.nyms did) timestamp) ↔
    ¬GenesisShown setup start batches timestamp did := by
  obtain ⟨past,run,found⟩ := readAtTime_committed setup (fun ledger => ledger.nyms.nyms did) start batches node
    sorted committed timestamp
  rw [found]
  split
  · rename_i early
    refine iff_of_true (.nothing ?_) fun shown => shown.2.1 early
    simp [historyUpTo,early]
  · rename_i begun
    rcases run.last_nym setup did with ⟨none,same⟩ |
      ⟨earlier,later,ordered,after,record,history,target,last,reached,left,stored⟩
    · rw [same]
      constructor
      · intro left shown
        cases known : start.nyms.nyms did with
        | none => exact shown.1 known
        | some record =>
          rw [known] at left
          obtain _ | ⟨earlier,later,ordered,_,_,history,target⟩ := left
          exact none ordered (by simp [history]) target
      · intro hidden
        have fresh : start.nyms.nyms did = Option.none := Classical.byContradiction fun known =>
          hidden ⟨known,begun,none⟩
        rw [fresh]
        exact .nothing none
    · rw [stored]
      refine iff_of_true (.written earlier later ordered after record history target last reached left) ?_
      intro shown
      exact shown.2.2 ordered (by simp [history]) target

omit [DecidableEq ι] [Revocation.PyStr ι] [PyHash ι] [LE ι] [DecidableLE ι] in
private theorem historyUpTo_zero (batches : List (Batch ι)) : historyUpTo batches 0 = [] := by
  rw [historyUpTo,batchesUpTo_nonpos batches 0 (le_refl 0)]
  rfl

private theorem NymLeft.at_zero {did : Did} {found : Option NymRecord}
    (left : NymLeft setup start batches 0 did found) : found = none := by
  cases left with
  | nothing => rfl
  | written earlier later ordered after record history =>
    rw [historyUpTo_zero] at history
    simp at history

include sorted committed in
private theorem getNym_time_iff (req : Request) (did : Did) (timestamp : Int) :
    (∃ found, NymLeft setup start batches timestamp did found ∧
      getNymResult node req did none (some timestamp) = .ok (nymReplyAt did timestamp found)) ↔
    (timestamp = 0 → node.ledger.nyms.nyms did = none) ∧ ¬GenesisShown setup start batches timestamp did := by
  rw [getNymResult_time]
  by_cases zero : timestamp = 0
  · subst zero
    have unshown : ¬GenesisShown setup start batches 0 did := fun shown =>
      shown.2.1 (batchesUpTo_nonpos batches 0 (le_refl 0))
    simp only [if_true,Except.ok.injEq,unshown,not_false_eq_true,and_true,forall_const]
    constructor
    · rintro ⟨found,left,same⟩
      rw [nymReplyAt_inj did 0 _ _ same]
      exact left.at_zero setup
    · intro absent
      exact ⟨none,.nothing (by simp [historyUpTo_zero]),by rw [absent]⟩
  · rw [if_neg zero,← readAtTime_nym setup sorted committed timestamp did]
    constructor
    · rintro ⟨found,left,same⟩
      rw [nymReplyAt_inj did timestamp _ _ (Except.ok.inj same)]
      exact ⟨fun now => absurd now zero,left⟩
    · rintro ⟨_,left⟩
      exact ⟨_,left,rfl⟩

end Nyms

section Attributes
variable {ι : Type} (setup : Setup)

/-- The attribute that was last under the path of a query at a time. -/
def attrLeft (index : Nat) (batches : List (Batch ι)) (timestamp : Int) (did : Did) (field : AttrType)
    (name : String) : Option Attribute :=
  latest (fun item => item.path setup = queryPath setup did field name)
    (attributesOf setup index (historyUpTo batches timestamp))

/-- The reply with the value that an attribute was written with. -/
def replyLeft (field : AttrType) (name : String) : Option Attribute → AttrReply
  | none => ⟨none,none,none⟩
  | some item => ⟨if field = .hash then some name else item.value,some item.seqNo,some item.time⟩

/-- No attribute is an empty text: the message schema refuses one, and JSON has none. -/
def DomainTxn.Worded (txn : DomainTxn ι) : Prop :=
  ∀ req op field key, txn = .attrib req op → parseAttrTxn setup op ≠ .ok (field,key,some "")

theorem attributesOf_append (index : Nat) (earlier later : List (Ordered ι)) :
    attributesOf setup index (earlier ++ later) =
      attributesOf setup index earlier ++ attributesOf setup (index + earlier.length) later := by
  rw [attributesOf,List.zipIdx_append,List.filterMap_append]
  rfl

private theorem getAttrResult_query (node : Committed ι) (req : Request) (did : Did) (field : AttrType)
    (name : String) (seqNo : Option Nat) (timestamp : Option Int) :
    getAttrResult setup node req (attrQuery did field name) seqNo timestamp = (do
      checkVersion req seqNo timestamp
      attrResult node field name (← lookupVersion node
        (fun ledger => ledger.state (queryPath setup did field name)) seqNo timestamp)) := by
  cases field <;> rfl

private theorem getAttrResult_time (node : Committed ι) (req : Request) (did : Did) (field : AttrType)
    (name : String) (timestamp : Int) :
    getAttrResult setup node req (attrQuery did field name) none (some timestamp) =
      attrResult node field name (if timestamp = 0 then node.ledger.state (queryPath setup did field name)
        else readAtTime node (fun ledger => ledger.state (queryPath setup did field name)) timestamp) := by
  rw [getAttrResult_query,lookupVersion_time]
  simp [checkVersion,raiseIf]

variable [DecidableEq ι] [Revocation.PyStr ι] [PyHash ι] [LE ι] [DecidableLE ι]
  (collisionFree : Function.Injective setup.sha256) (digest : ∀ text, setup.sha256 text ≠ "")

include digest in
/-- Nothing is stored under the empty hash. -/
theorem Run.blank {start final : Ledger ι} {history : List (Ordered ι)}
    (run : Run setup start history final) (worded : ∀ ordered ∈ history, ordered.txn.Worded setup)
    (blank : start.attributes "" = none) : final.attributes "" = none := by
  induction run with
  | start => exact blank
  | step history before after ordered earlier ok ih =>
    have kept := ih fun other member => worded other (List.mem_append_left _ member)
    have applied := applyTxn_applied setup before after ordered ok
    have now := worded ordered (by simp)
    obtain ⟨txn,time,timed⟩ := ordered
    cases applied with
    | attrib req op field key value _ _ parsed =>
      by_cases hash : field = .hash
      · simpa [hash] using kept
      · obtain ⟨text,rfl⟩ := (parseAttrTxn_valued setup op field key value parsed 0 0).text hash
        have worded : text ≠ "" := fun empty => now req op field key rfl (empty ▸ parsed)
        have apart : "" ≠ hashedValue setup (some text) := by
          simp only [hashedValue,truthy]
          simpa [worded] using (digest text).symm
        simp only [if_neg hash]
        rw [Function.update_of_ne apart]
        exact kept
    | _ => exact kept

variable {start : Ledger ι} {batches : List (Batch ι)} {node : Committed ι}
  (empty : ∀ path, start.state path = none) (blank : start.attributes "" = none)
  (sorted : batches.Pairwise fun first second => first.time ≤ second.time)
  (committed : commitBatches setup (.genesis start) batches = .ok node)
  (identified : ∀ ordered ∈ batches.flatMap Batch.ordered, ordered.txn.Identified)
  (worded : ∀ ordered ∈ batches.flatMap Batch.ordered, ordered.txn.Worded setup)

omit [DecidableEq ι] [Revocation.PyStr ι] [PyHash ι] [LE ι] [DecidableLE ι] in
private theorem attrLeft_nothing (index : Nat) (did : Did) (field : AttrType) (name : String) (timestamp : Int)
    (early : batchesUpTo batches timestamp = []) :
    attrLeft setup index batches timestamp did field name = none := by
  rw [attrLeft,historyUpTo,early]
  rfl

include collisionFree digest empty sorted committed identified in
private theorem readAtTime_attr (timestamp : Int) (did : Did) (shaped : IsIdentifier did) (field : AttrType)
    (name : String) :
    readAtTime node (fun ledger => ledger.state (queryPath setup did field name)) timestamp =
      (attrLeft setup start.txnTypes.length batches timestamp did field name).map (Attribute.leaf setup) := by
  obtain ⟨past,run,found⟩ := readAtTime_committed setup
    (fun ledger => ledger.state (queryPath setup did field name)) start batches node sorted committed timestamp
  rw [found]
  split
  · rename_i early
    rw [attrLeft_nothing setup _ did field name timestamp early]
    rfl
  · have holds := run.holds setup collisionFree digest
      (fun ordered member => identified ordered ((historyUpTo_times _ _ _).mp member).1) empty
    exact holds.state _ ⟨did.val,shaped.plain,attrPath_under _ _⟩

include collisionFree digest empty blank sorted committed identified worded in
private theorem replyFor_left (timestamp : Int) (did : Did) (field : AttrType) (name : String) :
    replyFor setup node field name (attrLeft setup start.txnTypes.length batches timestamp did field name) =
      replyLeft field name (attrLeft setup start.txnTypes.length batches timestamp did field name) := by
  have run := ((Consistent.genesis setup start).commitBatches setup batches (by simp) sorted committed).run
  rw [List.nil_append] at run
  have holds := run.holds setup collisionFree digest identified empty
  cases found : attrLeft setup start.txnTypes.length batches timestamp did field name with
  | none => rfl
  | some item =>
    have member : item ∈ attributesOf setup start.txnTypes.length (batches.flatMap Batch.ordered) := by
      obtain ⟨rest,whole⟩ := batchesUpTo_initial batches timestamp sorted
      rw [← whole,List.flatMap_append,attributesOf_append]
      exact List.mem_append_left _ (latest_some _ _ _ found).1
    have stored : node.ledger.attributes (hashedValue setup item.value) = item.value := by
      cases value : item.value with
      | none => exact run.blank setup digest worded blank
      | some text => exact holds.store item member text value
    simp only [replyFor,replyLeft,stored]

include collisionFree digest empty blank sorted committed identified worded in
private theorem getAttr_time_iff (req : Request) (did : Did) (shaped : IsIdentifier did) (field : AttrType)
    (name : String) (timestamp : Int) :
    getAttrResult setup node req (attrQuery did field name) none (some timestamp) =
        .ok (replyLeft field name (attrLeft setup start.txnTypes.length batches timestamp did field name)) ↔
      timestamp ≠ 0 ∨ node.ledger.state (queryPath setup did field name) = none := by
  rw [getAttrResult_time]
  by_cases zero : timestamp = 0
  · subst zero
    rw [attrLeft_nothing setup _ did field name 0 (batchesUpTo_nonpos batches 0 (le_refl 0)),if_pos rfl]
    simp only [ne_eq,not_true_eq_false,false_or]
    cases node.ledger.state (queryPath setup did field name) with
    | none => exact iff_of_true rfl rfl
    | some leaf =>
      refine iff_of_false ?_ (by simp)
      rw [attrResult]
      split
      · simp [replyLeft]
      · split <;> simp [replyLeft]
  · rw [if_neg zero,readAtTime_attr setup collisionFree digest empty sorted committed identified timestamp did
      shaped,attrResult_leaf,replyFor_left setup collisionFree digest empty blank sorted committed identified worded]
    exact iff_of_true rfl (.inl zero)

include collisionFree digest empty blank sorted committed identified worded in
/-- Reads by a time, for every integer, and requests that give a time and a number. Zero
alone is taken for no time at all; what the genesis wrote has no time and is shown all the same. -/
theorem reads_by_time_iff (req : Request) (did : Did) (shaped : IsIdentifier did) (timestamp : Int) :
    ((∃ found, NymLeft setup start batches timestamp did found ∧
        getNymResult node req did none (some timestamp) = .ok (nymReplyAt did timestamp found)) ↔
      (timestamp = 0 → node.ledger.nyms.nyms did = none) ∧ ¬GenesisShown setup start batches timestamp did) ∧
    (∀ field name, getAttrResult setup node req (attrQuery did field name) none (some timestamp) =
        .ok (replyLeft field name (attrLeft setup start.txnTypes.length batches timestamp did field name)) ↔
      timestamp ≠ 0 ∨ node.ledger.state (queryPath setup did field name) = none) ∧
    ∀ seqNo, ((∃ reason, getNymResult node req did (some seqNo) (some timestamp) =
        .error (invalid req reason)) ↔ timestamp ≠ 0 ∧ seqNo ≠ 0) ∧
      ∀ field name, (∃ reason, getAttrResult setup node req (attrQuery did field name) (some seqNo)
        (some timestamp) = .error (invalid req reason)) ↔ timestamp ≠ 0 ∧ seqNo ≠ 0 := by
  refine ⟨getNym_time_iff setup sorted committed req did timestamp,fun field name => ?_,fun seqNo => ⟨?_,?_⟩⟩
  · exact getAttr_time_iff setup collisionFree digest empty blank sorted committed identified worded req did
      shaped field name timestamp
  · exact refused_iff req seqNo timestamp _ (both_given node
      (fun ledger => ledger.nyms.nyms did) req seqNo timestamp fun found =>
        pure ((NymReply.of did found).update (some seqNo) (some timestamp)))
  · intro field name
    refine refused_iff req seqNo timestamp _ ?_
    rw [getAttrResult_query]
    exact both_given node _ req seqNo timestamp (attrResult node field name)

end Attributes

private theorem name_timed : 0 < 10 := by decide

private theorem hash_timed : 0 < 20 := by decide

private theorem guest_timed : 0 < 30 := by decide

def guestDid : Did := ⟨"VsKV7grR1BUE29mG2Fm2kX",by decide⟩

def guestRequest : ClientRequest :=
  ⟨signedByOwner,nymType,some guestDid.val,none,some (some "guestKey"),none,none⟩

def guestOperation : NymOperation := ⟨guestDid,none,some (some "guestKey"),none,none⟩

def guestRecord : NymRecord := ⟨some ownerDid,.identityOwner,some "guestKey",none,none,4,some 30⟩

def withGuest : Ledger Nat :=
  {withHash with nyms := withHash.nyms.update (some ownerDid) guestOperation 4 (some 30),
                 txnTypes := withHash.txnTypes ++ [nymType]}

private theorem guest_added : applyTxn markSetup withHash ⟨.nym guestRequest,30,guest_timed⟩ = .ok withGuest := by
  have parsed : staticValidation markSetup.nym.loads guestRequest = .ok guestOperation := by decide
  have known : additionalDynamicValidation markSetup.nym withHash.nyms.cache signedByOwner guestOperation =
      validate markSetup.nym.config withHash.nyms.cache signedByOwner [addNewIdentityOwner] := rfl
  have allowed : validate markSetup.nym.config withHash.nyms.cache signedByOwner [addNewIdentityOwner] = .ok () :=
    validate_rule .configLedger (fun _ => "") _ _ (addNewIdentityOwner,endorserOrStewardOrTrusteeConstraint)
      (List.mem_of_getElem? (i := 4) rfl) addNewIdentityOwner rfl (by decide)
  have applied : applyNym markSetup.nym withHash.nyms ⟨guestRequest,4,some 30⟩ =
      .ok (withHash.nyms.update (some ownerDid) guestOperation 4 (some 30)) := by
    rw [applyNym,parsed,ok_bind,guestRequest,known,allowed]
    rfl
  have fourth : nextSeqNo withHash = 4 := rfl
  simp only [applyTxn,fourth,applied,ok_bind]
  rfl

/-- An attribute, a hash under its name, and a DID that was not there before. -/
def nameBatches : List (Batch Nat) :=
  [⟨10,[.attrib signedByOwner (nameOperation "x")],name_timed⟩,
    ⟨20,[.attrib signedByOwner hashOperation],hash_timed⟩,⟨30,[.nym guestRequest],guest_timed⟩]

def afterNames : Committed Nat :=
  ⟨withGuest,Function.update (Function.update (Function.update (fun _ => none) 10 (some withName)) 20 (some withHash))
    30 (some withGuest),[none,some 10,some 20,some 30]⟩

private theorem nameBatches_committed :
    commitBatches markSetup (.genesis (ownerLedger .trustee)) nameBatches = .ok afterNames := by
  simp only [commitBatches,nameBatches,List.foldlM_cons,List.foldlM_nil,commitBatch,Batch.ordered,List.map_cons,
    List.map_nil,Committed.genesis,name_added,ok_bind,pure_bind,hash_added,guest_added]
  rfl

def guestOrdered : Ordered Nat := ⟨.nym guestRequest,30,guest_timed⟩

private theorem nameBatches_history : nameBatches.flatMap Batch.ordered = nameHistory ++ [guestOrdered] := rfl

theorem nameHistory_worded : ∀ ordered ∈ nameHistory, ordered.txn.Worded markSetup := by
  intro ordered member req op field key shape parsed
  simp only [nameHistory,List.mem_cons,List.not_mem_nil,or_false] at member
  rcases member with rfl | rfl
  · obtain ⟨rfl,rfl⟩ := DomainTxn.attrib.inj shape
    have known : parseAttrTxn markSetup (nameOperation "x") = .ok (.raw,"name",some (rawName "x")) := by decide
    rw [known] at parsed
    have empty : some (rawName "x") = some "" := congrArg (fun found => found.2.2) (Except.ok.inj parsed)
    exact absurd empty (by decide)
  · obtain ⟨rfl,rfl⟩ := DomainTxn.attrib.inj shape
    have known : parseAttrTxn markSetup hashOperation = .ok (.hash,"#name",none) := by decide
    rw [known] at parsed
    exact absurd (congrArg (fun found => found.2.2) (Except.ok.inj parsed)) (by simp)

private theorem guest_identified : guestOrdered.txn.Identified := by
  refine ⟨fun author authored => ?_,fun req op same => by cases same⟩
  rw [← Option.some.inj authored]
  decide

private theorem guest_worded : guestOrdered.txn.Worded markSetup := fun _ _ _ _ same => by cases same

/-- Between the first two batches the attribute is read with its value and the DID of the third
is not found; after it the DID is. -/
theorem name_read_between : getAttrResult markSetup afterNames signedByOwner
      (attrQuery ownerDid .raw "name") none (some 15) = .ok ⟨some (rawName "x"),some 2,some 10⟩ ∧
    getNymResult afterNames signedByOwner guestDid none (some 15) = .ok (nymReplyAt guestDid 15 none) ∧
    ∃ found, NymLeft markSetup (ownerLedger .trustee) nameBatches 35 guestDid found ∧
      getNymResult afterNames signedByOwner guestDid none (some 35) = .ok (nymReplyAt guestDid 35 found) := by
  have identified : ∀ ordered ∈ nameBatches.flatMap Batch.ordered, ordered.txn.Identified :=
    nameBatches_history ▸ List.forall_mem_append.mpr
      ⟨nameHistory_identified,List.forall_mem_singleton.mpr guest_identified⟩
  have worded : ∀ ordered ∈ nameBatches.flatMap Batch.ordered, ordered.txn.Worded markSetup :=
    nameBatches_history ▸ List.forall_mem_append.mpr
      ⟨nameHistory_worded,List.forall_mem_singleton.mpr guest_worded⟩
  have reads := fun did shaped => reads_by_time_iff markSetup markSetup_collisionFree markSetup_digest (fun _ => rfl)
    rfl (by simp [nameBatches]) nameBatches_committed identified worded signedByOwner did shaped
  have unknown : ∀ timestamp, ¬GenesisShown markSetup (ownerLedger .trustee) nameBatches timestamp guestDid :=
    fun _ shown => shown.1 rfl
  refine ⟨?_,?_,?_⟩
  · have left : attrLeft markSetup 1 nameBatches 15 ownerDid .raw "name" =
        some ⟨ownerDid,.raw,"name",some (rawName "x"),2,10⟩ := by decide
    have answer := ((reads ownerDid (by decide) 15).2.1 .raw "name").mpr (.inl (by decide))
    rw [show (ownerLedger .trustee).txnTypes.length = 1 from rfl,left] at answer
    exact answer
  · obtain ⟨found,left,answer⟩ := (reads guestDid (by decide) 15).1.mpr ⟨by decide,unknown 15⟩
    rw [answer]
    cases left with
    | nothing => rfl
    | written earlier later ordered after record history target =>
      have untouched : ∀ other ∈ historyUpTo nameBatches 15, ¬other.txn.Targets markSetup guestDid := by
        have one : historyUpTo nameBatches 15 =
          [⟨.attrib signedByOwner (nameOperation "x"),10,name_timed⟩] := rfl
        rw [one,List.forall_mem_singleton]
        rintro ⟨_,_,same,_⟩
        cases same
      exact absurd target (untouched ordered (by simp [history]))
  · exact (reads guestDid (by decide) 35).1.mpr ⟨by decide,unknown 35⟩

/-- At the time zero nothing had been written, and yet the current values are returned;
with a number besides, the exception is that for a wrong call. -/
theorem time_zero_reads_present :
    commitBatches markSetup (.genesis (ownerLedger .trustee)) nameBatches = .ok afterNames ∧
    historyUpTo nameBatches 0 = [] ∧ (ownerLedger .trustee).nyms.nyms guestDid = none ∧
    getNymResult afterNames signedByOwner guestDid none (some 0) = .ok (nymReplyAt guestDid 0 (some guestRecord)) ∧
    getAttrResult markSetup afterNames signedByOwner (attrQuery ownerDid .hash "#name") none (some 0) =
      .ok ⟨some "#name",some 3,some 20⟩ ∧
    getNymResult afterNames signedByOwner guestDid (some 2) (some 0) = .error .valueError ∧
    getAttrResult markSetup afterNames signedByOwner (attrQuery ownerDid .hash "#name") (some 2) (some 0) =
      .error .valueError :=
  ⟨nameBatches_committed,rfl,rfl,rfl,rfl,rfl,rfl⟩

end IndyNode.Domain

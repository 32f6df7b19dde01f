import IndyNode.Authorize.ConstraintPrint
import IndyNode.Authorize.Signatures
import IndyNode.Config.AuthRules

/-! `auth_rule_handler_1_9_1.py`: the handler of old AUTH_RULE transactions, which marks every
ROLE constraint with the missing `off_ledger_signature` in the dictionary that it stores. -/
namespace IndyNode.Config
open Authorize Exec

section Programs

/-- `off_ledger_signature` is false where it is not true. -/
def markRole (address : Nat) (fields : List (String × PyWord)) : Py Unit := do
  let accepts ← wordTruth ((fields.lookup "off_ledger_signature").getD (.scalar (.bool false)))
  if !accepts then setItem address "off_ledger_signature" (.scalar (.bool false))

/-- `_set_off_ledger_to_constraint`. -/
def setOffLedgerToConstraint : Nat → PyWord → Py Unit
  | 0, _ => raise .diverges
  | _ + 1, .scalar _ => raise .typeError
  | fuel + 1, .address address => do
    let fields ← loadDict (.address address)
    let constraintId ← getItem fields "constraint_id"
    if constraintId = strWord "ROLE" then markRole address fields
    match (← loadDict (.address address)).lookup "auth_constraints" with
    | none => return
    | some list =>
      let items ← loadList list
      let _ ← each (setOffLedgerToConstraint fuel) items
      return

/-- The dictionary that `AuthRuleHandler191._update_auth_constraint` stores. -/
def constraintDict191 (fuel : Nat) (constraint : PyWord) : Py PyWord := do
  let dict ← objectAsDict fuel constraint
  setOffLedgerToConstraint fuel dict
  return dict

end Programs

section Marked

/-- A ROLE constraint with its `off_ledger_signature` written out. -/
def marked (constraint : AuthConstraint) : AuthConstraint where
  role := constraint.role
  sigCount := constraint.sigCount
  needToBeOwner := constraint.needToBeOwner
  offLedgerSignature := some constraint.acceptsOffLedger
  metadata := constraint.metadata
  validated := by
    intro accepts
    apply constraint.validated
    unfold AuthConstraint.acceptsOffLedger at accepts
    cases off : constraint.offLedgerSignature with
    | none => simp [off] at accepts
    | some value => simpa [off] using accepts

mutual
/-- What the marks make of a dictionary. -/
def setOffLedger : ConstraintDict → ConstraintDict
  | .role role sigCount needToBeOwner offLedgerSignature metadata =>
    .role role sigCount needToBeOwner (some (offLedgerSignature.getD false)) metadata
  | .and parts => .and (setOffLedgers parts)
  | .or parts => .or (setOffLedgers parts)
  | .forbidden => .forbidden

def setOffLedgers : List ConstraintDict → List ConstraintDict
  | [] => []
  | part::parts => setOffLedger part :: setOffLedgers parts
end

private theorem setOffLedger_asDict (tree : Constraint) :
    setOffLedger (Constraint.asDict tree) = Constraint.asDict (tree.map marked) := by
  have list (parts : List Constraint)
      (each : ∀ part ∈ parts, setOffLedger (Constraint.asDict part) = Constraint.asDict (part.map marked)) :
      setOffLedgers (Constraint.asDicts parts) = Constraint.asDicts (AndOrTree.mapParts marked parts) := by
    induction parts with
    | nil => rw [Constraint.asDicts,setOffLedgers,AndOrTree.mapParts,Constraint.asDicts]
    | cons part parts ih =>
      rw [Constraint.asDicts,setOffLedgers,AndOrTree.mapParts,Constraint.asDicts,each part List.mem_cons_self,
        ih fun other listed => each other (.tail _ listed)]
  induction tree using AndOrTree.induct with
  | leaf constraint =>
    rw [Constraint.asDict,AuthConstraint.asDict,setOffLedger,AndOrTree.map,Constraint.asDict]
    rfl
  | all parts ih => rw [Constraint.asDict,setOffLedger,list parts ih,AndOrTree.map,Constraint.asDict]
  | any parts ih => rw [Constraint.asDict,setOffLedger,list parts ih,AndOrTree.map,Constraint.asDict]
  | never => rw [Constraint.asDict,setOffLedger,AndOrTree.map,Constraint.asDict]

private theorem texts_marked {parts : List Constraint}
    (each : ∀ part ∈ parts, Constraint.text (part.map marked) = Constraint.text part) :
    Constraint.texts (AndOrTree.mapParts marked parts) = Constraint.texts parts := by
  induction parts with
  | nil => rw [AndOrTree.mapParts]
  | cons part parts ih =>
    rw [AndOrTree.mapParts,Constraint.texts,Constraint.texts,each part List.mem_cons_self,
      ih fun other listed => each other (.tail _ listed)]

private theorem text_marked (tree : Constraint) : Constraint.text (tree.map marked) = Constraint.text tree := by
  induction tree using AndOrTree.induct with
  | leaf constraint =>
    rw [AndOrTree.map,Constraint.text,Constraint.text]
    rfl
  | all parts ih => rw [AndOrTree.map,Constraint.text,Constraint.text,texts_marked ih]
  | any parts ih => rw [AndOrTree.map,Constraint.text,Constraint.text,texts_marked ih]
  | never => rw [AndOrTree.map]

/-- The marks change neither a verdict nor its reason. -/
theorem composite_marked (cache : IdrCache) (req : Request) (action : AuthAction) (tree : Constraint) :
    composite cache req action (tree.map marked) = composite cache req action tree := by
  have allParts (parts : List Constraint) (each : ∀ part ∈ parts,
      composite cache req action (part.map marked) = composite cache req action part) :
      andAuthorize cache req action (AndOrTree.mapParts marked parts) = andAuthorize cache req action parts := by
    induction parts with
    | nil => rw [AndOrTree.mapParts]
    | cons part parts ih =>
      rw [AndOrTree.mapParts,andAuthorize,andAuthorize,each part List.mem_cons_self,
        ih fun other listed => each other (.tail _ listed)]
  have anyPart (parts : List Constraint) (each : ∀ part ∈ parts,
      composite cache req action (part.map marked) = composite cache req action part) :
      orLoop cache req action (AndOrTree.mapParts marked parts) = orLoop cache req action parts := by
    induction parts with
    | nil => rw [AndOrTree.mapParts]
    | cons part parts ih =>
      rw [AndOrTree.mapParts,orLoop,orLoop,each part List.mem_cons_self,text_marked,
        ih fun other listed => each other (.tail _ listed)]
  induction tree using AndOrTree.induct with
  | leaf constraint =>
    rw [AndOrTree.map,composite,composite]
    rfl
  | all parts ih => rw [AndOrTree.map,composite,composite,allParts parts ih]
  | any parts ih =>
    rw [AndOrTree.map,composite,composite,orAuthorize,orAuthorize,anyPart parts ih,
      texts_marked fun part _ => text_marked part]
  | never => rw [AndOrTree.map]

end Marked

section State

/-- `AuthRuleHandler191._update_auth_constraint`. -/
def updateAuthConstraint191 (state : RuleState) (authKey : String) (constraint : Constraint) : RuleState :=
  Function.update state (makeStatePathForAuthRule authKey) (some (setOffLedger (Constraint.asDict constraint)))

private theorem read_stored (tree : Constraint) : deserialize (Constraint.asDict tree) = .ok tree := by
  rw [deserialize,create_asDict]

private theorem rules_marked (setup : Setup) (state : RuleState) (authKey : String) (tree : Constraint)
    (path : String) :
    (setup.validator (updateAuthConstraint191 state authKey tree)).rules path =
        (setup.validator (updateAuthConstraint state authKey tree)).rules path ∨
      (setup.validator (updateAuthConstraint191 state authKey tree)).rules path = some (tree.map marked) ∧
        (setup.validator (updateAuthConstraint state authKey tree)).rules path = some tree := by
  by_cases same : path = makeStatePathForAuthRule authKey
  · right
    simp [Setup.validator,updateAuthConstraint191,updateAuthConstraint,same,setOffLedger_asDict,read_stored,
      Except.toOption]
  · left
    simp [Setup.validator,updateAuthConstraint191,updateAuthConstraint,same]

private theorem getAuthConstraint_marked (setup : Setup) (state : RuleState) (authKey : String) (tree : Constraint)
    (actionId : String) :
    getAuthConstraint (setup.validator (updateAuthConstraint191 state authKey tree)) actionId =
        getAuthConstraint (setup.validator (updateAuthConstraint state authKey tree)) actionId ∨
      getAuthConstraint (setup.validator (updateAuthConstraint191 state authKey tree)) actionId =
          .ok (some (tree.map marked)) ∧
        getAuthConstraint (setup.validator (updateAuthConstraint state authKey tree)) actionId = .ok (some tree) := by
  simp only [getAuthConstraint,Setup.validator]
  cases findAuthConstraintKey actionId setup.authMap with
  | error raised => exact .inl rfl
  | ok found =>
    cases found with
    | none => exact .inl rfl
    | some key =>
      rcases rules_marked setup state authKey tree (makeStatePathForAuthRule key) with same | ⟨old,new⟩
      · left
        simp only [Setup.validator] at same
        simp only [ok_bind,same]
      · right
        simp only [Setup.validator] at old new
        simp only [ok_bind,old,new,Option.some_or]
        exact ⟨rfl,rfl⟩

private theorem validate_marked (setup : Setup) (state : RuleState) (authKey : String) (tree : Constraint)
    (cache : IdrCache)
    (req : Request) (actions : List AuthAction) :
    validate (setup.validator (updateAuthConstraint191 state authKey tree)) cache req actions =
      validate (setup.validator (updateAuthConstraint state authKey tree)) cache req actions := by
  cases actions with
  | nil => rfl
  | cons action rest =>
    rw [validate,validate]
    rcases getAuthConstraint_marked setup state authKey tree action.actionId with same | ⟨old,new⟩
    · rw [same]
      rfl
    · rw [old,new]
      simp only [ok_bind,composite_marked]

end State
section Marks
variable {shown : PyJson → String} {base : Nat}

/-- The dictionaries of the tree are marked in place, and no other cell is written. -/
def Marks (shown : PyJson → String) (base : Nat) (tree : Constraint) : Prop :=
  ∀ store low word high, base ≤ low → Shows shown base store low word tree high → ∃ after,
    (∀ fuel, (Constraint.asDict tree).depth < fuel → setOffLedgerToConstraint fuel word store = (.ok (),after)) ∧
      (∀ address, address < low ∨ high ≤ address → after[address]? = store[address]?) ∧
      Shows shown base after low word (tree.map marked) high

private theorem kept_outside {store after : List PyCell} {low high : Nat} (above : base ≤ low)
    (same : ∀ address, address < low ∨ high ≤ address → after[address]? = store[address]?) :
    Kept (· < base) (· < base) store after := by
  intro address cell below there
  rw [same address (.inl (lt_of_lt_of_le below above))]
  exact ⟨below,there⟩

private theorem each_marks {parts : List Constraint} (step : ∀ part ∈ parts, Marks shown base part)
    {store : List PyCell}
    {low high : Nat} {words : List PyWord} (above : base ≤ low)
    (shows : ShowsAll shown base store low words parts high) : ∃ after results,
      (∀ fuel, ConstraintDict.depths (Constraint.asDicts parts) < fuel →
        each (setOffLedgerToConstraint fuel) words store = (.ok results,after)) ∧
      (∀ address, address < low ∨ high ≤ address → after[address]? = store[address]?) ∧
      ShowsAll shown base after low words (AndOrTree.mapParts marked parts) high := by
  induction parts generalizing store low words with
  | nil =>
    obtain ⟨rfl,rfl⟩ := showsAll_nil.mp shows
    rw [AndOrTree.mapParts]
    exact ⟨store,[],fun _ _ => rfl,fun _ _ => rfl,showsAll_nil.mpr ⟨rfl,rfl⟩⟩
  | cons part parts ih =>
    obtain ⟨word,words,middle,rfl,first,rest⟩ := showsAll_cons.mp shows
    obtain ⟨between,run,outside,marked⟩ := step part List.mem_cons_self store low word middle above first
    have lowMiddle := ((shows_keep (kept_outside above outside)).1 first).1
    have stillShown := (shows_keep (kept_outside above outside)).2 rest
    obtain ⟨after,results,runs,others,all⟩ := ih (fun other listed => step other (.tail _ listed))
      (above.trans lowMiddle.le) (stillShown.2 fun address within _ => outside address (.inr within))
    have kept := (shows_keep (kept_outside (above.trans lowMiddle.le) others)).1 marked
    refine ⟨after,() :: results,fun fuel enough => ?_,fun address apart => ?_,?_⟩
    · rw [Constraint.asDicts,ConstraintDict.depths] at enough
      rw [each,bind_run (run fuel ((le_max_left _ _).trans_lt enough)),
        bind_run (runs fuel ((le_max_right _ _).trans_lt enough))]
      rfl
    · rw [others address (apart.imp_left fun below => below.trans lowMiddle),
        outside address (apart.imp_right stillShown.1.trans)]
    · rw [AndOrTree.mapParts]
      exact showsAll_cons.mpr ⟨word,words,middle,rfl,kept.2 fun address _ below => others address (.inl below),all⟩

private theorem setKey_roleFields (role count owner metadata : PyWord) {off : Option Bool} (unset : off ≠ some true) :
    setKey "off_ledger_signature" (.scalar (.bool false)) (roleFields role count owner metadata (.scalar (offScalar off))) =
      roleFields role count owner metadata (.scalar (offScalar (some (off.getD false)))) := by
  cases off with
  | none => rfl
  | some value =>
    cases value with
    | false => rfl
    | true => exact absurd rfl unset

private theorem roleFields_off (role count owner metadata : PyWord) (off : Option Bool) (store : List PyCell) :
    wordTruth (((roleFields role count owner metadata (.scalar (offScalar off))).lookup "off_ledger_signature").getD
      (.scalar (.bool false))) store = (.ok (off.getD false),store) := by
  cases off with
  | none => rfl
  | some value => cases value <;> rfl

private theorem roleFields_parts (role count owner metadata off : PyWord) :
    (roleFields role count owner metadata off).lookup "auth_constraints" = none := by
  rw [roleFields]
  split <;> rfl

private theorem getElem_written {store : List PyCell} {address : Nat} {cell : PyCell}
    (there : store[address]? = some cell)
    (written : PyCell) : (store.set address written)[address]? = some written :=
  List.getElem?_set_self (List.getElem?_eq_some_iff.mp there).1

private theorem set_same {store : List PyCell} {address : Nat} {cell : PyCell} (there : store[address]? = some cell) :
    store.set address cell = store := by
  obtain ⟨within,rfl⟩ := List.getElem?_eq_some_iff.mp there
  exact List.set_getElem_self within

private theorem markRole_run {store : List PyCell} {low : Nat} {role count owner metadata : PyWord} {off : Option Bool}
    (there : store[low]? = some (.dict (roleFields role count owner metadata (.scalar (offScalar off))))) :
    markRole low (roleFields role count owner metadata (.scalar (offScalar off))) store = (.ok (),store.set low
      (.dict (roleFields role count owner metadata (.scalar (offScalar (some (off.getD false))))))) := by
  rw [markRole,bind_run (roleFields_off role count owner metadata off store)]
  by_cases unset : off = some true
  · subst unset
    rw [Option.getD_some,set_same there]
    rfl
  · have no : off.getD false = false := by
      rcases off with _ | _ | _
      · rfl
      · rfl
      · exact absurd rfl unset
    rw [← setKey_roleFields role count owner metadata unset,← setItem_run there,no]
    rfl

private theorem setOffLedger_role {store : List PyCell} {low : Nat} {role count owner metadata : PyWord}
    {off : Option Bool}
    (there : store[low]? = some (.dict (roleFields role count owner metadata (.scalar (offScalar off))))) (fuel : Nat) :
    setOffLedgerToConstraint (fuel + 1) (.address low) store = (.ok (),store.set low
      (.dict (roleFields role count owner metadata (.scalar (offScalar (some (off.getD false))))))) := by
  have named : (roleFields role count owner metadata (.scalar (offScalar off))).lookup "constraint_id" =
      some (strWord "ROLE") := rfl
  rw [setOffLedgerToConstraint,bind_run (loadDict_run there),bind_run (getItem_run named store)]
  simp only [if_true]
  rw [bind_run (markRole_run there),bind_run (loadDict_run (getElem_written there _)),roleFields_parts]
  rfl

private theorem marks_leaf (constraint : AuthConstraint) : Marks shown base (.leaf constraint) := by
  intro store low word high above shows
  obtain ⟨rfl,rfl,count,metadata,there,counts,has⟩ := shows_leaf.mp shows
  have outside : ∀ address, address < low ∨ low + 1 ≤ address → (store.set low (.dict (roleFields
      (.scalar (roleScalar constraint.role.value)) (.scalar count) (.scalar (.bool constraint.needToBeOwner)) metadata
      (.scalar (offScalar (some (constraint.offLedgerSignature.getD false)))))))[address]? = store[address]? :=
    fun address apart => List.getElem?_set_ne (by omega)
  refine ⟨_,fun fuel enough => ?_,outside,?_⟩
  · obtain _ | fuel := fuel
    · cases enough
    exact setOffLedger_role there fuel
  · rw [AndOrTree.map]
    exact shows_leaf.mpr ⟨rfl,rfl,count,metadata,getElem_written there _,counts,has.keep (kept_outside above outside)⟩

private theorem marks_list (connective : Connective) {parts : List Constraint}
    (step : ∀ part ∈ parts, Marks shown base part) :
    Marks shown base (connective.tree parts) := by
  intro store low word high above shows
  obtain ⟨middle,words,rfl,rfl,items,fields,all⟩ := shows_list.mp shows
  obtain ⟨after,results,runs,outside,marked⟩ := each_marks step above all
  have lowMiddle := ((shows_keep (kept_outside above outside)).2 all).1
  have notRole : strWord connective.constraintId ≠ strWord "ROLE" := by cases connective <;> decide
  refine ⟨after,fun fuel enough => ?_,fun address apart => outside address (by omega),?_⟩
  · obtain _ | fuel := fuel
    · cases enough
    rw [asDict_list,depth_list] at enough
    have named : (listFields connective (.address middle)).lookup "constraint_id" =
        some (strWord connective.constraintId) := rfl
    have listed : (listFields connective (.address middle)).lookup "auth_constraints" = some (.address middle) := rfl
    rw [setOffLedgerToConstraint,bind_run (loadDict_run fields),bind_run (getItem_run named store)]
    simp only [notRole,if_false]
    rw [bind_run (loadDict_run fields),listed]
    exact (bind_run (loadList_run items) _).trans (bind_run (runs fuel (Nat.lt_of_succ_lt_succ enough)) _)
  · rw [map_list]
    refine shows_list.mpr ⟨middle,words,rfl,rfl,?_,?_,marked⟩
    · rw [outside middle (.inr le_rfl)]
      exact items
    · rw [outside (middle + 1) (.inr (Nat.le_succ middle))]
      exact fields

private theorem marks (tree : Constraint) : Marks shown base tree := by
  induction tree using AndOrTree.induct with
  | leaf constraint => exact marks_leaf constraint
  | all parts ih => exact marks_list .and ih
  | any parts ih => exact marks_list .or ih
  | never =>
    intro store low word high above shows
    obtain ⟨rfl,rfl,there⟩ := shows_never.mp shows
    refine ⟨store,fun fuel enough => ?_,fun _ _ => rfl,?_⟩
    · obtain _ | fuel := fuel
      · cases enough
      have named : [("constraint_id",strWord "FORBIDDEN")].lookup "constraint_id" = some (strWord "FORBIDDEN") := rfl
      rw [setOffLedgerToConstraint,bind_run (loadDict_run there),bind_run (getItem_run named store)]
      exact bind_run (loadDict_run there) _
    · rw [AndOrTree.map]
      exact shows

end Marks
private theorem constraintDict191_run {shown : PyJson → String} {inside : Nat → Prop} {store : List PyCell}
    {word : PyWord}
    {tree : Constraint} (holds : Holds shown inside store word tree) : ∃ enough, ∀ fuel, enough < fuel →
      ∃ dict after document, constraintDict191 fuel word store = (.ok dict,after) ∧ store <+: after ∧
        Reads (fun _ => True) after dict document ∧
        Dictionary shown document (setOffLedger (Constraint.asDict tree)) := by
  obtain ⟨dict,middle,run,longer,shows⟩ := prints tree word store le_rfl (holds.keep (kept_within store inside))
  obtain ⟨after,runs,outside,markedShows⟩ := marks tree middle store.length dict middle.length le_rfl shows
  obtain ⟨document,reads,isDict⟩ := shows_document.1 markedShows
  refine ⟨(Constraint.asDict tree).depth,fun fuel enough => ⟨dict,after,document,?_,?_,reads,?_⟩⟩
  · rw [constraintDict191,bind_run (run fuel enough),bind_run (runs fuel enough)]
    rfl
  · rw [List.prefix_iff_getElem?]
    intro address within
    rw [outside address (.inl within)]
    exact List.prefix_iff_getElem?.mp longer address within
  · rw [setOffLedger_asDict]
    exact isDict

/-- A rule written by the handler of version 1.9.1 is enforced like one written by the current
handler, with the same verdicts and reasons; the constraint that it is written from, like every
other object there was, stays as it is. -/
theorem rule191_enforced_alike (setup : Setup) (state : RuleState) (authKey : String) (tree : Constraint)
    (shown : PyJson → String) (inside : Nat → Prop) (store : List PyCell) (word : PyWord)
    (holds : Holds shown inside store word tree) :
    (∀ cache req actions,
      validate (setup.validator (updateAuthConstraint191 state authKey tree)) cache req actions =
        validate (setup.validator (updateAuthConstraint state authKey tree)) cache req actions) ∧
    ∃ enough, ∀ fuel, enough < fuel → ∃ dict after document,
      constraintDict191 fuel word store = (.ok dict,after) ∧ store <+: after ∧
        Holds shown inside after word tree ∧ Reads (fun _ => True) after dict document ∧
        Dictionary shown document (setOffLedger (Constraint.asDict tree)) := by
  refine ⟨validate_marked setup state authKey tree,?_⟩
  obtain ⟨enough,runs⟩ := constraintDict191_run holds
  refine ⟨enough,fun fuel more => ?_⟩
  obtain ⟨dict,after,document,run,longer,reads,isDict⟩ := runs fuel more
  exact ⟨dict,after,document,run,longer,holds.keep (kept_of_longer longer fun _ => id),reads,isDict⟩

def trusteeLedger : IdrCache := fun did =>
  if did = didA then some ⟨1,none,none,.trustee,some "keyA"⟩ else none

/-- The dictionary of the nested constraint with `off_ledger_signature` in every ROLE. -/
def nestedMarked : ConstraintDict :=
  .and [.role (some "*") 1 (some true) (some false) (some []),
    .or [.role (some "0") 1 (some false) (some false) (some []),.role (some "2") 2 (some false) (some false) (some [])]]

/-- A schema may be added by a trustee who signs, and not by an identity owner, whichever handler
wrote the rule; the old handler stores its dictionary with three marks. -/
theorem nested_rule_enforced_alike :
    let rules := (⟨authMap,fun _ => ""⟩ : Setup).validator
      (updateAuthConstraint191 (fun _ => none) addSchema.actionId nestedTree)
    validate rules trusteeLedger signedByAAndB [addSchema] = .ok () ∧
    validate rules ledgerOfA signedByAAndB [addSchema] ≠ .ok () ∧
    ∃ enough, ∀ fuel, enough < fuel → ∃ dict after document,
      constraintDict191 fuel (.address 7) nestedStore = (.ok dict,after) ∧ nestedStore <+: after ∧
        Holds (fun _ => "") (fun _ => True) after (.address 7) nestedTree ∧
        Reads (fun _ => True) after dict document ∧ Dictionary (fun _ => "") document nestedMarked := by
  obtain ⟨alike,stored⟩ := rule191_enforced_alike ⟨authMap,fun _ => ""⟩ (fun _ => none) addSchema.actionId nestedTree
    (fun _ => "") (fun _ => True) nestedStore (.address 7) nested_held
  have found : getAuthConstraint ((⟨authMap,fun _ => ""⟩ : Setup).validator
      (updateAuthConstraint (fun _ => none) addSchema.actionId nestedTree)) addSchema.actionId =
      .ok (some nestedTree) := by
    have key := findAuthConstraintKey_split authRules authRules_clean addSchema.actionDef addSchema.actionId
      (splitActionId_compile _ (by decide))
    rw [getAuthConstraint,Setup.validator,authMap,key,ok_bind]
    have first : (authRules.find? fun entry => entry.1.actionDef.accepts addSchema.actionDef) =
      some (addSchema,endorserOrStewardOrTrusteeConstraint) := rfl
    simp only [first,Option.map_some,updateAuthConstraint,Function.update_self,Option.bind_some,read_stored]
    rfl
  refine ⟨?_,?_,?_⟩
  · rw [alike]
    exact (validate_iff _ _ _ _ _).mpr ⟨nestedTree,found,by decide⟩
  · rw [alike]
    intro valid
    obtain ⟨constraint,search,holds⟩ := (validate_iff _ _ _ _ _).mp valid
    rw [found] at search
    obtain rfl := Option.some.inj (Except.ok.inj search)
    exact absurd holds (by decide)
  · have marked : setOffLedger (Constraint.asDict nestedTree) = nestedMarked := by
      simp [nestedTree,nestedMarked,Constraint.asDict,Constraint.asDicts,AuthConstraint.asDict,setOffLedger,
        setOffLedgers,anyRoleConstraint,roleConstraint,RoleSpec.value,Role.code]
    rwa [marked] at stored

end IndyNode.Config

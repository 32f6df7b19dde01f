import IndyNode.Pool.NodeHandler

/-! The records of the nodes over whole runs. Under the default rules a node's addresses and keys
are changed by its own steward, its services by a trustee too, and only between two values; and
no steward comes to have two nodes. -/
namespace IndyNode.Pool
open Authorize

section Rules

/-- The leaf asks for a steward and for the owner. -/
def StewardOwner (constraint : AuthConstraint) : Prop :=
  constraint.role = .role .steward ∧ constraint.needToBeOwner = true ∧ 1 ≤ constraint.sigCount ∧
    constraint.acceptsOffLedger = false

instance : DecidablePred StewardOwner := fun _ => inferInstanceAs (Decidable (_ ∧ _ ∧ _ ∧ _))

def OneTrustee (constraint : AuthConstraint) : Prop :=
  constraint.role = .role .trustee ∧ 1 ≤ constraint.sigCount ∧ constraint.acceptsOffLedger = false

instance : DecidablePred OneTrustee := fun _ => inferInstanceAs (Decidable (_ ∧ _ ∧ _))

instance : DecidablePred fun constraint => StewardOwner constraint ∨ OneTrustee constraint :=
  fun _ => inferInstanceAs (Decidable (_ ∨ _))

def stewardFields : List String := ["node_ip","node_port","client_ip","client_port","blskey"]

private theorem nodeEdit_rules :
    ∀ rule ∈ authRules, rule.1.actionDef.txnType = "0" → rule.1.actionDef.prefixName = "EDIT" →
    rule.1.actionDef.field ∈ stewardFields ∧ rule.2.Guarded StewardOwner ∨
      rule.1.actionDef.field = "services" ∧ rule.1.actionDef.newValue ∈ ["[]","['VALIDATOR']"] ∧
        rule.2.Guarded fun constraint => StewardOwner constraint ∨ OneTrustee constraint := by
  decide +kernel

private theorem nodeAdd_rules :
    ∀ rule ∈ authRules, rule.1.actionDef.txnType = "0" → rule.1.actionDef.prefixName = "ADD" →
    rule.1.actionDef.newValue ∈ ["[]","['VALIDATOR']"] ∧ rule.2.Guarded StewardOwner := by
  decide +kernel

def SignedByRole (cache : IdrCache) (req : Request) (role : Role) : Prop :=
  ∃ did, req.SignedBy did ∧ getRoleOf cache did = some role

variable {cache : IdrCache} {req : Request} {action : AuthAction}

private theorem stewardOwner_met (constraint : AuthConstraint) (asks : StewardOwner constraint)
    (holds : leafHolds cache req action constraint = true) :
    action.isOwner = true ∧ SignedByRole cache req .steward := by
  obtain ⟨named,owner,counts,onLedger⟩ := asks
  rw [leafHolds,Bool.and_eq_true] at holds
  refine ⟨?_,named_role_signed cache req constraint action counts onLedger _ named holds.1⟩
  have accepted := ((rolesPass_iff cache req action constraint).mp holds.1).1
  simpa [RolesAuthorizer.isOwnerAccepted,owner] using accepted

private theorem oneTrustee_met (constraint : AuthConstraint) (asks : OneTrustee constraint)
    (holds : leafHolds cache req action constraint = true) : SignedByRole cache req .trustee := by
  obtain ⟨named,counts,onLedger⟩ := asks
  rw [leafHolds,Bool.and_eq_true] at holds
  exact named_role_signed cache req constraint action counts onLedger _ named holds.1

variable (policy : AuthPolicy) (describe : Request → String)

private theorem edit_permitted (field old new : String) (owner : Bool) (plain : '-' ∉ field.toList)
    (valid : validate (defaultConfig policy describe) cache req [.edit "0" field old new owner] = .ok ()) :
    (field ∈ stewardFields ∨ field = "services") ∧ owner = true ∧ SignedByRole cache req .steward ∨
      field = "services" ∧ SignedByRole cache req .trustee := by
  obtain ⟨constraint,found,holds⟩ := (validate_iff _ _ _ _ _).mp valid
  have head : (AuthAction.edit "0" field old new owner).actionDef.HeadClean :=
    ⟨(by decide : '-' ∉ "0".toList),(by decide : '-' ∉ "EDIT".toList),plain⟩
  obtain ⟨rule,member,rfl,sameType,samePrefix,sameField⟩ := found_rule policy describe _ head constraint found
  rcases nodeEdit_rules rule member sameType samePrefix with ⟨listed,guarded⟩ | ⟨services,_,guarded⟩
  · have same : rule.1.actionDef.field = field := by
      refine sameField.resolve_right fun wildcard => ?_
      rw [wildcard] at listed
      exact absurd listed (by decide)
    exact .inl ⟨.inl (same ▸ listed),AndOrTree.Guarded.eval_implies stewardOwner_met rule.2 guarded holds⟩
  · have same : field = "services" := by
      rw [services] at sameField
      exact (sameField.resolve_right (by decide)).symm
    refine AndOrTree.Guarded.eval_implies (fun leaf asks met => ?_) rule.2 guarded holds
    rcases asks with asks | asks
    · exact .inl ⟨.inr same,stewardOwner_met leaf asks met⟩
    · exact .inr ⟨same,oneTrustee_met leaf asks met⟩

private theorem new_value_ruled (clean : action.actionDef.Clean)
    (valid : validate (defaultConfig policy describe) cache req [action] = .ok ()) :
    ∃ rule ∈ authRules, rule.1.actionDef.Targets action.actionDef.txnType action.actionDef.prefixName
        action.actionDef.field ∧
      (rule.1.actionDef.newValue = action.actionDef.newValue ∨ rule.1.actionDef.newValue = "*") ∧
      rule.2.eval (leafHolds cache req action) = true := by
  obtain ⟨constraint,found,holds⟩ := (validate_iff _ _ _ _ _).mp valid
  rw [getAuthConstraint_default policy describe action clean] at found
  obtain ⟨rule,first,rfl⟩ := Option.map_eq_some_iff.mp (Except.ok.inj found)
  have accepted := List.find?_some first
  refine ⟨rule,List.mem_of_find?_eq_some first,accepts_targets _ _ accepted,?_,holds⟩
  simp only [ActionDef.accepts,Bool.and_eq_true,Bool.or_eq_true,decide_eq_true_eq] at accepted
  exact accepted.2.imp Eq.symm id

end Rules

section Texts

/-- The quoted name, as characters. -/
def quotedName (name : Service) : List Char := '\'' :: (name.val.toList ++ ['\''])

private theorem services_str (names : List Service) : (NodeValue.services names).str.toList =
    '[' :: ([',',' '].intercalate (names.map quotedName) ++ [']']) := by
  simp [NodeValue.str,Function.comp_def,quotedName]

private theorem quotedName_undashed (name : Service) : '-' ∉ quotedName name := by
  intro dashed
  simp only [quotedName,List.mem_cons,List.mem_append,List.not_mem_nil,or_false] at dashed
  rcases dashed with impossible | member | impossible
  · exact absurd impossible (by decide)
  · exact absurd (List.all_eq_true.mp name.property '-' member) (by decide)
  · exact absurd impossible (by decide)

private theorem services_undashed (names : List Service) : '-' ∉ (NodeValue.services names).str.toList := by
  have inner : '-' ∉ [',',' '].intercalate (names.map quotedName) := by
    induction names with
    | nil => simp
    | cons name names ih =>
      cases names with
      | nil => simpa using quotedName_undashed name
      | cons second names =>
        rw [List.map_cons,List.map_cons,List.intercalate_cons_cons,List.mem_append,List.mem_append]
        rintro ((first | separator) | later)
        · exact quotedName_undashed name first
        · exact absurd separator (by decide)
        · exact ih later
  rw [services_str]
  simp only [List.mem_cons,List.mem_append,List.not_mem_nil,or_false,not_or]
  exact ⟨by decide,inner,by decide⟩

private theorem services_of_str (names : List Service)
    (ruled : (NodeValue.services names).str ∈ ["[]","['VALIDATOR']"]) :
    names = [] ∨ names = [validator] := by
  have shape : (NodeValue.services names).str.toList = "[]".toList ∨
      (NodeValue.services names).str.toList = "['VALIDATOR']".toList := by
    rw [String.toList_inj,String.toList_inj]
    simpa using ruled
  rw [services_str] at shape
  match names,shape with
  | [],_ => exact .inl rfl
  | [name],shape =>
    rcases shape with empty | single
    · simp [quotedName] at empty
    · have framed : name.val.toList ++ ['\'',']'] = validator.val.toList ++ ['\'',']'] := by
        simp only [quotedName,List.map_cons,List.map_nil,List.intercalate_singleton,List.cons_append,List.append_assoc,
          List.nil_append] at single
        exact (List.cons.inj (List.cons.inj single).2).2
      exact .inr (by rw [Subtype.ext (String.toList_inj.mp (List.append_cancel_right framed))])
  | first::second::names,shape =>
    have comma : ',' ∈ '[' :: ([',',' '].intercalate ((first::second::names).map quotedName) ++ [']']) := by
      simp [List.intercalate_cons_cons]
    rcases shape with empty | single
    · rw [empty] at comma
      exact absurd comma (by decide)
    · rw [single] at comma
      exact absurd comma (by decide)

private theorem services_of_rule {text : String} (ruled : text ∈ ["[]","['VALIDATOR']"]) (names : List Service)
    (matched : text = (NodeValue.services names).str ∨ text = "*") : names = [] ∨ names = [validator] := by
  rcases matched with rfl | rfl
  · exact services_of_str names ruled
  · exact absurd ruled (by decide)

end Texts

section Updates

private theorem lookup_missing {α : Type} (entries : List (String × α)) (test : String → Bool) (key : String) :
    (entries.filter fun entry => test entry.1).lookup key = if test key then entries.lookup key else none := by
  induction entries with
  | nil => simp
  | cons entry entries ih =>
    obtain ⟨name,value⟩ := entry
    by_cases same : key = name
    · subst same
      cases kept : test key with
      | true => simp [kept]
      | false => simpa [kept] using ih
    · cases kept : test name with
      | true => simpa [kept,List.lookup_cons,beq_false_of_ne same] using ih
      | false => simpa [kept,List.lookup_cons,beq_false_of_ne same] using ih

private theorem updateData_lookup (existing data : List (String × NodeValue)) (field : String) :
    (updateData existing data).lookup field = (data.lookup field).or (existing.lookup field) := by
  rw [updateData,List.lookup_append,lookup_missing existing fun key => (data.lookup key).isNone]
  cases data.lookup field with
  | none => rfl
  | some value => rfl

private theorem updateState_dest (state : PoolState) (req : Request) (op : NodeOperation) :
    (updateState state req op).lookup op.dest =
      some ⟨((state.lookup op.dest).getD ⟨req.identifier,[]⟩).steward,
        updateData ((state.lookup op.dest).getD ⟨req.identifier,[]⟩).data op.data⟩ := by
  simp [updateState]

private theorem updateState_other (state : PoolState) (req : Request) (op : NodeOperation) (nym : String)
    (other : nym ≠ op.dest) : (updateState state req op).lookup nym = state.lookup nym := by
  rw [updateState,List.lookup_cons,beq_false_of_ne other,lookup_missing state fun key => key ≠ op.dest]
  simp [other]

end Updates

/-- The value of a field, services without a value being none. -/
def NodeRecord.read (record : NodeRecord) (field : String) : NodeValue :=
  compared field ((record.data.lookup field).getD .null)

/-- The services are one of the two lists the rules name. -/
def NodeRecord.ServicesNamed (record : NodeRecord) : Prop :=
  ∃ names, record.read "services" = .services names ∧ (names = [] ∨ names = [validator])

/-- The request was signed as a change of the field asks for. Another name of the node and another
proof of possession are not looked at here. -/
def Sanctioned (cache : IdrCache) (req : Request) (steward : Option Did) (field : String) : Prop :=
  (field ∈ stewardFields ∨ field = "services") ∧ req.identifier = steward ∧ SignedByRole cache req .steward ∨
    field = "services" ∧ SignedByRole cache req .trustee ∨ field = "alias" ∨ field = "blskey_pop"

section Steps
variable (policy : AuthPolicy) (describe : Request → String) (checks : InheritedChecks) {cache : IdrCache}
  {state next : PoolState} {req : Request} {op : NodeOperation}

omit policy describe checks in
private theorem unreported {condition : Prop} [Decidable condition] {message result : Option String}
    {rest : Except Raised (Option String)} (tells : condition → truthy message = true)
    (quiet : truthy result = false) (checked : (if condition then pure message else rest) = .ok result) :
    ¬condition ∧ rest = .ok result := by
  by_cases reported : condition
  · rw [if_pos reported] at checked
    have told := tells reported
    rw [Except.ok.inj checked,quiet] at told
    exact absurd told Bool.false_ne_true
  · rw [if_neg reported] at checked
    exact ⟨reported,checked⟩

private theorem updating_passed {config : ValidatorConfig} {error : Option String} (quiet : truthy error = false)
    (checked : authErrorWhileUpdatingNode config checks cache state req op = .ok error) :
    ∀ entry ∈ op.data, entry.1 ≠ "alias" → validateField config checks cache state req op.dest entry = .ok () := by
  rw [authErrorWhileUpdatingNode] at checked
  obtain ⟨isTrustee,_,checked⟩ := bind_success _ _ _ checked
  obtain ⟨_,checked⟩ := unreported id quiet checked
  obtain ⟨_,checked⟩ := unreported id quiet checked
  obtain ⟨_,fields,_⟩ := bind_success _ _ _ checked
  rw [forM_ok_iff] at fields
  intro entry member named
  exact fields entry (List.mem_filter.mpr ⟨member,by simpa using named⟩)

private theorem adding_passed {config : ValidatorConfig} {error : Option String} (quiet : truthy error = false)
    (checked : authErrorWhileAddingNode config checks cache state req op = .ok error) :
    checks.stewardHasNode state req.identifier = false ∧ validate config cache req
      [.add "0" "services" ((op.data.lookup "services").getD (.services [validator])).str true] = .ok () := by
  rw [authErrorWhileAddingNode] at checked
  obtain ⟨_,checked⟩ := unreported id quiet checked
  obtain ⟨fresh,checked⟩ := unreported (fun _ => by simp [truthy]) quiet checked
  obtain ⟨_,checked⟩ := unreported (fun _ => by simp [truthy]) quiet checked
  obtain ⟨_,valid,_⟩ := bind_success _ _ _ checked
  exact ⟨Bool.not_eq_true _ ▸ fresh,valid⟩

private theorem applyNode_ok {config : ValidatorConfig}
    (applied : applyNode config checks cache state req op = .ok next) :
    next = updateState state req op ∧
      ((∃ record, state.lookup op.dest = some record) ∧
          (∀ entry ∈ op.data, entry.1 ≠ "alias" → validateField config checks cache state req op.dest entry = .ok ()) ∨
        state.lookup op.dest = none ∧ checks.stewardHasNode state req.identifier = false ∧
          validate config cache req
            [.add "0" "services" ((op.data.lookup "services").getD (.services [validator])).str true] = .ok ()) := by
  obtain ⟨_,valid,stored⟩ := bind_success _ _ _ applied
  refine ⟨(Except.ok.inj stored).symm,?_⟩
  have quiet : ∀ error : Option String,
      (if truthy error = true then throw (unauthorized req (error.getD "")) else pure () : Except Raised Unit) = .ok () →
      truthy error = false := by
    intro error unraised
    cases raised : truthy error with
    | false => rfl
    | true => simp [raised,throw_eq] at unraised
  rw [additionalDynamicValidation] at valid
  cases known : state.lookup op.dest with
  | some record =>
    rw [known,Option.isSome_some,if_pos rfl] at valid
    obtain ⟨error,checked,unraised⟩ := bind_success _ _ _ valid
    exact .inl ⟨⟨record,rfl⟩,updating_passed checks (quiet error unraised) checked⟩
  | none =>
    rw [known,Option.isSome_none,if_neg Bool.false_ne_true] at valid
    obtain ⟨error,checked,unraised⟩ := bind_success _ _ _ valid
    exact .inr ⟨rfl,adding_passed checks (quiet error unraised) checked⟩

private theorem validateField_sanctioned (record : NodeRecord) (known : state.lookup op.dest = some record)
    (field : String) (value : NodeValue) (named : '-' ∉ field.toList) (looked : field ≠ "blskey_pop")
    (passed : validateField (defaultConfig policy describe) checks cache state req op.dest (field,value) = .ok ()) :
    compared field value = record.read field ∨ Sanctioned cache req record.steward field := by
  have stored : compared field (storedValue state op.dest field) = record.read field := by
    rw [storedValue,known]
    rfl
  rw [validateField,if_neg looked,stored] at passed
  dsimp only at passed
  split at passed
  · rcases edit_permitted policy describe _ _ _ _ named passed with ⟨kind,owner,signed⟩ | trustee
    · obtain ⟨same,found,steward⟩ := (checks.isStewardOfNode_iff state req.identifier op.dest).mp owner
      rw [known] at found
      obtain rfl := Option.some.inj found
      exact .inr (.inl ⟨kind,steward.symm,signed⟩)
    · exact .inr (.inr (.inl trustee))
  · rename_i unchanged
    exact .inl (not_not.mp unchanged).symm

private theorem read_updated (existing : NodeRecord) (data : List (String × NodeValue)) (field : String) :
    NodeRecord.read ⟨existing.steward,updateData existing.data data⟩ field =
      match data.lookup field with
      | none => existing.read field
      | some value => compared field value := by
  rw [NodeRecord.read,updateData_lookup]
  cases data.lookup field with
  | none => rfl
  | some value => rfl

private theorem mem_of_lookup {data : List (String × NodeValue)} {field : String} {value : NodeValue}
    (found : data.lookup field = some value) : (field,value) ∈ data := by
  obtain ⟨before,after,rfl,_⟩ := List.lookup_eq_some_iff.mp found
  simp

/-- An accepted transaction leaves each field of a node as it was, or it brings a sanctioned value. -/
theorem applyNode_known (applied : applyNode (defaultConfig policy describe) checks cache state req op = .ok next)
    (nym : String) (record : NodeRecord) (known : state.lookup nym = some record) :
    ∃ later, next.lookup nym = some later ∧ later.steward = record.steward ∧
      ∀ field, later.read field = record.read field ∨ op.dest = nym ∧
        (∃ value, (field,value) ∈ op.data ∧ compared field value = later.read field) ∧
        Sanctioned cache req record.steward field := by
  obtain ⟨rfl,passed⟩ := applyNode_ok checks applied
  by_cases other : nym = op.dest
  · subst other
    rcases passed with ⟨_,fields⟩ | ⟨fresh,_⟩
    · refine ⟨_,updateState_dest state req op,by rw [known]; rfl,fun field => ?_⟩
      rw [known,Option.getD_some,read_updated]
      cases carried : op.data.lookup field with
      | none => exact .inl rfl
      | some value =>
        have member := mem_of_lookup carried
        have sanctioned : compared field value = record.read field ∨ Sanctioned cache req record.steward field := by
          by_cases renames : field = "alias"
          · exact .inr (.inr (.inr (.inl renames)))
          by_cases proves : field = "blskey_pop"
          · exact .inr (.inr (.inr (.inr proves)))
          exact validateField_sanctioned policy describe checks record known field value (op.named _ member) proves
            (fields _ member renames)
        exact sanctioned.imp_right fun signed => ⟨rfl,⟨value,member,rfl⟩,signed⟩
    · rw [known] at fresh
      cases fresh
  · exact ⟨record,by rw [updateState_other state req op nym other,known],rfl,fun _ => .inl rfl⟩

private theorem applyNode_added
    (applied : applyNode (defaultConfig policy describe) checks cache state req op = .ok next)
    (nym : String) (fresh : state.lookup nym = none) (later : NodeRecord) (found : next.lookup nym = some later) :
    op.dest = nym ∧ later.steward = req.identifier ∧ SignedByRole cache req .steward ∧
      checks.stewardHasNode state req.identifier = false ∧ later.ServicesNamed := by
  obtain ⟨rfl,passed⟩ := applyNode_ok checks applied
  have dest : nym = op.dest := by
    refine Classical.byContradiction fun other => ?_
    rw [updateState_other state req op nym other,fresh] at found
    cases found
  subst dest
  rcases passed with ⟨⟨record,known⟩,_⟩ | ⟨_,first,valid⟩
  · rw [fresh] at known
    cases known
  rw [updateState_dest,fresh,Option.getD_none] at found
  obtain rfl := Option.some.inj found
  obtain ⟨names,shape⟩ : ∃ names, (op.data.lookup "services").getD (.services [validator]) = .services names := by
    cases carried : op.data.lookup "services" with
    | none => exact ⟨_,rfl⟩
    | some value => exact op.listed value (mem_of_lookup carried)
  rw [shape] at valid
  have clean : (AuthAction.add "0" "services" (NodeValue.services names).str true).actionDef.Clean :=
    ⟨(by decide : '-' ∉ "0".toList),(by decide : '-' ∉ "ADD".toList),(by decide : '-' ∉ "services".toList),
      (by decide : '-' ∉ "*".toList),services_undashed names⟩
  obtain ⟨rule,member,⟨sameType,samePrefix,_⟩,newValue,holds⟩ := new_value_ruled policy describe clean valid
  obtain ⟨values,guarded⟩ := nodeAdd_rules rule member sameType samePrefix
  refine ⟨rfl,rfl,(AndOrTree.Guarded.eval_implies stewardOwner_met rule.2 guarded holds).2,first,?_⟩
  rw [NodeRecord.ServicesNamed,read_updated ⟨req.identifier,[]⟩]
  cases carried : op.data.lookup "services" with
  | none => exact ⟨[],rfl,.inl rfl⟩
  | some value =>
    rw [carried,Option.getD_some] at shape
    subst shape
    exact ⟨names,rfl,services_of_rule values names newValue⟩

omit checks in
private theorem services_edit_ruled (old new : List Service) (owner : Bool)
    (valid : validate (defaultConfig policy describe) cache req
      [.edit "0" "services" (NodeValue.services old).str (NodeValue.services new).str owner] = .ok ()) :
    new = [] ∨ new = [validator] := by
  have clean : (AuthAction.edit "0" "services" (NodeValue.services old).str (NodeValue.services new).str
      owner).actionDef.Clean :=
    ⟨(by decide : '-' ∉ "0".toList),(by decide : '-' ∉ "EDIT".toList),(by decide : '-' ∉ "services".toList),
      services_undashed old,services_undashed new⟩
  obtain ⟨rule,member,⟨sameType,samePrefix,sameField⟩,newValue,_⟩ := new_value_ruled policy describe clean valid
  rcases nodeEdit_rules rule member sameType samePrefix with ⟨addressed,_⟩ | ⟨_,values,_⟩
  · rcases sameField with same | same
    · rw [same] at addressed
      exact absurd addressed (by decide : "services" ∉ stewardFields)
    · rw [same] at addressed
      exact absurd addressed (by decide)
  · exact services_of_rule values new newValue

private theorem applyNode_services
    (applied : applyNode (defaultConfig policy describe) checks cache state req op = .ok next)
    (record later : NodeRecord) (known : state.lookup op.dest = some record)
    (found : next.lookup op.dest = some later) (kept : record.ServicesNamed) : later.ServicesNamed := by
  obtain ⟨rfl,passed⟩ := applyNode_ok checks applied
  rw [updateState_dest,known,Option.getD_some] at found
  obtain rfl := Option.some.inj found
  obtain ⟨old,before,listed⟩ := kept
  cases carried : op.data.lookup "services" with
  | none =>
    rw [NodeRecord.ServicesNamed,read_updated,carried]
    exact ⟨old,before,listed⟩
  | some value =>
    have member := mem_of_lookup carried
    obtain ⟨names,rfl⟩ := op.listed value member
    rw [NodeRecord.ServicesNamed,read_updated,carried]
    refine ⟨names,rfl,?_⟩
    rcases passed with ⟨_,fields⟩ | ⟨fresh,_⟩
    · have passed := fields _ member (by simp)
      have stored : compared "services" (storedValue state op.dest "services") = .services old := by
        rw [← before,storedValue,known]
        rfl
      rw [validateField,if_neg (by simp),stored] at passed
      dsimp only at passed
      split at passed
      · exact services_edit_ruled policy describe old names _ passed
      · rename_i unchanged
        obtain rfl : old = names := NodeValue.services.inj (not_not.mp unchanged)
        exact listed
    · rw [known] at fresh
      cases fresh

end Steps

/-- A NODE request and the ledger's DIDs when it is handled. -/
structure Submission where
  cache : IdrCache
  req : Request
  op : NodeOperation

/-- A refused transaction leaves the state. -/
def submit (config : ValidatorConfig) (checks : InheritedChecks) (state : PoolState) (submission : Submission) :
    PoolState :=
  match applyNode config checks submission.cache state submission.req submission.op with
  | .ok next => next
  | .error _ => state

def OneNodeEach (state : PoolState) : Prop :=
  ∀ nym other record further, state.lookup nym = some record → state.lookup other = some further →
    record.steward = further.steward → nym = other

def AllServicesNamed (state : PoolState) : Prop :=
  ∀ nym record, state.lookup nym = some record → record.ServicesNamed

/-- The submission brings the value of the node's field and is signed for it. -/
def Submission.Changes (submission : Submission) (nym : String) (steward : Option Did) (field : String)
    (value : NodeValue) : Prop :=
  submission.op.dest = nym ∧
    (∃ sent, (field,sent) ∈ submission.op.data ∧ compared field sent = value) ∧
    Sanctioned submission.cache submission.req steward field

section Runs
variable (policy : AuthPolicy) (describe : Request → String) (checks : InheritedChecks)

private theorem submit_cases (config : ValidatorConfig) (state : PoolState) (submission : Submission) :
    submit config checks state submission = state ∨
      applyNode config checks submission.cache state submission.req submission.op =
        .ok (submit config checks state submission) := by
  unfold submit
  cases applyNode config checks submission.cache state submission.req submission.op with
  | ok next => exact .inr rfl
  | error raised => exact .inl rfl

private theorem submit_known (state : PoolState) (submission : Submission) (nym : String) (record : NodeRecord)
    (known : state.lookup nym = some record) :
    ∃ later, (submit (defaultConfig policy describe) checks state submission).lookup nym = some later ∧
      later.steward = record.steward ∧ ∀ field, later.read field = record.read field ∨
        submission.Changes nym record.steward field (later.read field) := by
  rcases submit_cases checks (defaultConfig policy describe) state submission with same | applied
  · exact ⟨record,by rw [same,known],rfl,fun _ => .inl rfl⟩
  · exact applyNode_known policy describe checks applied nym record known

private theorem submit_added (state : PoolState) (submission : Submission) (nym : String)
    (fresh : state.lookup nym = none)
    (later : NodeRecord)
    (found : (submit (defaultConfig policy describe) checks state submission).lookup nym = some later) :
    submission.op.dest = nym ∧ later.steward = submission.req.identifier ∧
      SignedByRole submission.cache submission.req .steward ∧
      checks.stewardHasNode state submission.req.identifier = false ∧ later.ServicesNamed := by
  rcases submit_cases checks (defaultConfig policy describe) state submission with same | applied
  · rw [same,fresh] at found
    cases found
  · exact applyNode_added policy describe checks applied nym fresh later found

private theorem submit_fresh_steward (state : PoolState) (submission : Submission) (nym other : String)
    (record further : NodeRecord) (fresh : state.lookup nym = none) (known : state.lookup other = some further)
    (found : (submit (defaultConfig policy describe) checks state submission).lookup nym = some record) :
    record.steward ≠ further.steward := by
  intro same
  obtain ⟨_,author,_,first,_⟩ := submit_added policy describe checks state submission nym fresh record found
  have again := (checks.stewardHasNode_iff state submission.req.identifier).mpr
    ⟨other,further,known,same.symm.trans author⟩
  rw [first] at again
  exact Bool.false_ne_true again

private theorem submit_oneNodeEach (state : PoolState) (submission : Submission) (apart : OneNodeEach state) :
    OneNodeEach (submit (defaultConfig policy describe) checks state submission) := by
  intro nym other record further first second same
  cases known : state.lookup nym with
  | some earlier =>
    obtain ⟨_,found,steward,_⟩ := submit_known policy describe checks state submission nym earlier known
    rw [first] at found
    obtain rfl := Option.some.inj found
    cases present : state.lookup other with
    | some before =>
      obtain ⟨_,found,kept,_⟩ := submit_known policy describe checks state submission other before present
      rw [second] at found
      obtain rfl := Option.some.inj found
      exact apart nym other earlier before known present (steward.symm.trans (same.trans kept))
    | none =>
      exact absurd (same.symm.trans steward)
        (submit_fresh_steward policy describe checks state submission other nym further earlier present known second)
  | none =>
    obtain ⟨dest,_⟩ := submit_added policy describe checks state submission nym known record first
    cases present : state.lookup other with
    | some before =>
      obtain ⟨_,found,kept,_⟩ := submit_known policy describe checks state submission other before present
      rw [second] at found
      obtain rfl := Option.some.inj found
      exact absurd (same.trans kept)
        (submit_fresh_steward policy describe checks state submission nym other record before known present first)
    | none =>
      obtain ⟨target,_⟩ := submit_added policy describe checks state submission other present further second
      exact dest.symm.trans target

private theorem submit_servicesNamed (state : PoolState) (submission : Submission) (named : AllServicesNamed state) :
    AllServicesNamed (submit (defaultConfig policy describe) checks state submission) := by
  intro nym later found
  cases known : state.lookup nym with
  | none => exact (submit_added policy describe checks state submission nym known later found).2.2.2.2
  | some record =>
    rcases submit_cases checks (defaultConfig policy describe) state submission with same | applied
    · rw [same] at found
      exact named nym later found
    by_cases dest : nym = submission.op.dest
    · subst dest
      exact applyNode_services policy describe checks applied record later known found (named _ record known)
    · rw [(applyNode_ok checks applied).1,updateState_other _ _ _ nym dest] at found
      exact named nym later found

/-- The nodes at the end of a run, against those at its start. -/
structure Accounted (start : PoolState) (submissions : List Submission) (final : PoolState) : Prop where
  stewards : OneNodeEach start → OneNodeEach final
  services : AllServicesNamed start → AllServicesNamed final
  kept : ∀ nym record, start.lookup nym = some record → ∃ later, final.lookup nym = some later ∧
    later.steward = record.steward ∧ ∀ field, later.read field = record.read field ∨
      ∃ submission ∈ submissions, submission.Changes nym record.steward field (later.read field)
  added : ∀ nym later, start.lookup nym = none → final.lookup nym = some later →
    ∃ submission ∈ submissions, submission.op.dest = nym ∧ later.steward = submission.req.identifier ∧
      SignedByRole submission.cache submission.req .steward

omit policy describe in
private theorem trustee_update_iff {cache : IdrCache} {state : PoolState} {req : Request} {op : NodeOperation}
    (rules : ValidatorConfig) {trustee : Did} (author : req.identifier = some trustee)
    (role : getRoleOf cache trustee = some .trustee) {record : NodeRecord} (known : state.lookup op.dest = some record)
    (quiet : truthy (checks.dataErrorWhileValidatingUpdate state op.data op.dest) = false) :
    additionalDynamicValidation rules checks cache state req op = .ok () ↔
      ∀ entry ∈ op.data, entry.1 ≠ "alias" → validateField rules checks cache state req op.dest entry = .ok () := by
  have loop : authErrorWhileUpdatingNode rules checks cache state req op = (do
      (op.data.filter fun entry => entry.1 ≠ "alias").forM (validateField rules checks cache state req op.dest)
      return none) := by
    have absent : truthy none = false := rfl
    rw [authErrorWhileUpdatingNode,author,hasTrustee,ok_bind]
    simp only [role,decide_true,if_true,absent,quiet,Bool.false_eq_true,if_false]
  rw [additionalDynamicValidation,known,Option.isSome_some,if_pos rfl,loop]
  refine ⟨fun accepted entry member named => ?_,fun passed => ?_⟩
  · obtain ⟨_,looped,_⟩ := bind_success _ _ _ accepted
    obtain ⟨_,fields,_⟩ := bind_success _ _ _ looped
    exact (forM_ok_iff _ _).mp fields entry (List.mem_filter.mpr ⟨member,by simpa using named⟩)
  · have fields : (op.data.filter fun entry => entry.1 ≠ "alias").forM
        (validateField rules checks cache state req op.dest) = .ok () := by
      refine (forM_ok_iff _ _).mpr fun entry member => ?_
      obtain ⟨sent,named⟩ := List.mem_filter.mp member
      exact passed entry sent (by simpa using named)
    rw [fields]
    rfl

end Runs

section Samples

def heldBy (state : PoolState) (origin : Option Did) (nym : String) : Bool :=
  match state.lookup nym with
  | some record => record.steward = origin
  | none => false

private theorem heldBy_iff (state : PoolState) (origin : Option Did) (nym : String) :
    heldBy state origin nym = true ↔ ∃ record, state.lookup nym = some record ∧ record.steward = origin := by
  unfold heldBy
  cases state.lookup nym with
  | none => simp
  | some record => simp

private theorem holds_node_iff (state : PoolState) (origin : Option Did) :
    (state.any fun entry => heldBy state origin entry.1) = true ↔
      ∃ nym record, state.lookup nym = some record ∧ record.steward = origin := by
  rw [List.any_eq_true]
  constructor
  · rintro ⟨entry,_,held⟩
    exact ⟨entry.1,(heldBy_iff state origin entry.1).mp held⟩
  · rintro ⟨nym,record,found,same⟩
    obtain ⟨before,after,shape,_⟩ := List.lookup_eq_some_iff.mp found
    exact ⟨(nym,record),by simp [shape],(heldBy_iff state origin nym).mpr ⟨record,found,same⟩⟩

/-- Nothing is found wrong with the data. -/
def plainChecks : InheritedChecks where
  dataErrorWhileValidating _ := none
  stewardHasNode state origin := state.any fun entry => heldBy state origin entry.1
  isNodeDataConflicting _ _ := none
  authErrorWhileUpdatingNode _ _ _ _ := none
  dataErrorWhileValidatingUpdate _ _ _ := none
  isStewardOfNode := heldBy
  describe _ := ""
  stewardHasNode_iff := holds_node_iff
  isStewardOfNode_iff := heldBy_iff

def stewardDid : Did := ⟨"S",by decide⟩

def trusteeDid : Did := ⟨"T",by decide⟩

def poolCache : IdrCache := fun did =>
  if did = stewardDid then some ⟨1,none,none,.steward,some "keyS"⟩
  else if did = trusteeDid then some ⟨2,none,none,.trustee,some "keyT"⟩
  else none

def signedAlone (did : Did) : Request where
  identifier := some did
  reqId := 1
  signature := some "sig"
  signatures := []
  endorser := none
  distinct := List.nodup_nil
  identified := by simp

def addressOnly : NodeOperation where
  dest := "node"
  data := [("node_ip",.text "10.0.0.1")]
  distinct := by decide
  named := by decide
  listed := by simp

def noServices : NodeOperation where
  dest := "node"
  data := [("services",.services [])]
  distinct := by decide
  named := by decide
  listed := by simp

/-- No rule at all allows the demotion. -/
def noRules : ValidatorConfig := ⟨.localAuth,[],fun _ => none,fun _ => ""⟩

end Samples

end IndyNode.Pool

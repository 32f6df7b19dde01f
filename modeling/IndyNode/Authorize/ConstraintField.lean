import IndyNode.Authorize.ConstraintSerializer

/-! `ConstraintField`, the validator of constraints in messages, and what becomes of the
dictionaries that it lets through. -/
namespace IndyNode.Authorize
open Exec

def PyJson.isText (text : String) : PyJson → Bool
  | .scalar (.str other) => other = text
  | _ => false

section Schema

/-- A field of a message schema. -/
structure SchemaField where
  name : String
  accepts : PyJson → Bool
  optional : Bool

def chooseField (values : List String) : PyJson → Bool
  | .scalar (.str text) => text ∈ values
  | _ => false

def roleField : PyJson → Bool
  | .scalar .none => true
  | .scalar (.str _) => true
  | _ => false

/-- A boolean is an integer. -/
def nonNegativeNumberField : PyJson → Bool
  | .scalar (.int value) => 0 ≤ value
  | .scalar (.bool _) => true
  | _ => false

def booleanField : PyJson → Bool
  | .scalar (.bool _) => true
  | _ => false

def anyMapField : PyJson → Bool
  | .object _ => true
  | _ => false

/-- `IterableField(AnyField())`. -/
def iterableField : PyJson → Bool
  | .list _ => true
  | _ => false

def constraintIds : List String := ["ROLE","AND","OR","FORBIDDEN"]

/-- `ConstraintEntityField`. -/
def entitySchema : List SchemaField :=
  [⟨"constraint_id",chooseField constraintIds,false⟩,⟨"role",roleField,false⟩,
    ⟨"sig_count",nonNegativeNumberField,false⟩,⟨"need_to_be_owner",booleanField,true⟩,
    ⟨"off_ledger_signature",booleanField,true⟩,⟨"metadata",anyMapField,true⟩]

/-- `ConstraintListField`. -/
def listSchema : List SchemaField :=
  [⟨"constraint_id",chooseField constraintIds,false⟩,⟨"auth_constraints",iterableField,false⟩]

def schemaAccepts (schema : List SchemaField) (entry : String × PyJson) : Bool :=
  match schema.find? fun field => field.name = entry.1 with
  | none => false
  | some field => field.accepts entry.2

/-- A strict `MessageValidator`; a missing, an unknown and a wrong field are each a `TypeError`. -/
def validateSchema (schema : List SchemaField) (fields : List (String × PyJson)) : Except Raised Unit :=
  if schema.any fun field => !field.optional && (fields.lookup field.name).isNone then .error .typeError
  else if fields.all (schemaAccepts schema) then .ok ()
  else .error .typeError

private theorem isText_iff {text : String} {value : PyJson} :
    PyJson.isText text value = true ↔ value = .scalar (.str text) := by
  unfold PyJson.isText
  split
  · simp
  next other => simpa using fun same => other text same

private theorem chooseField_shape {values : List String} {value : PyJson} (accepted : chooseField values value = true) :
    ∃ text ∈ values, value = .scalar (.str text) := by
  unfold chooseField at accepted
  split at accepted
  next text => exact ⟨text,by simpa using accepted,rfl⟩
  next => cases accepted

private theorem roleField_shape {value : PyJson} (accepted : roleField value = true) :
    ∃ role, value = .scalar (roleScalar role) := by
  unfold roleField at accepted
  split at accepted
  next => exact ⟨none,rfl⟩
  next text => exact ⟨some text,rfl⟩
  next => cases accepted

private theorem nonNegativeNumberField_shape {value : PyJson} (accepted : nonNegativeNumberField value = true) :
    ∃ count number, value = .scalar count ∧ count.count? = some number := by
  unfold nonNegativeNumberField at accepted
  split at accepted
  next number => exact ⟨.int number,number.toNat,rfl,if_pos (by simpa using accepted)⟩
  next truth => exact ⟨.bool truth,truth.toNat,rfl,rfl⟩
  next => cases accepted

private theorem booleanField_shape {value : PyJson} (accepted : booleanField value = true) :
    ∃ truth, value = .scalar (.bool truth) := by
  unfold booleanField at accepted
  split at accepted
  next truth => exact ⟨truth,rfl⟩
  next => cases accepted

private theorem anyMapField_shape {value : PyJson} (accepted : anyMapField value = true) :
    ∃ entries, value = .object entries := by
  unfold anyMapField at accepted
  split at accepted
  next entries => exact ⟨entries,rfl⟩
  next => cases accepted

variable {schema : List SchemaField} {fields : List (String × PyJson)}

private theorem validateSchema_ok (valid : validateSchema schema fields = .ok ()) :
    (∀ field ∈ schema, field.optional = false → (fields.lookup field.name).isSome) ∧
      ∀ entry ∈ fields, schemaAccepts schema entry = true := by
  unfold validateSchema at valid
  split at valid
  next => cases valid
  next complete =>
    split at valid
    next each =>
      refine ⟨fun field listed required => ?_,List.all_eq_true.mp each⟩
      by_contra absent
      refine complete (List.any_eq_true.mpr ⟨field,listed,?_⟩)
      rw [required,Bool.not_false,Bool.true_and,← Option.not_isSome,Bool.not_eq_true']
      exact (Bool.not_eq_true _).mp absent
    next => cases valid

private theorem field_accepted (valid : validateSchema schema fields = .ok ()) (field : SchemaField) {value : PyJson}
    (found : schema.find? (fun other => other.name = field.name) = some field)
    (there : fields.lookup field.name = some value) : field.accepts value = true := by
  have accepted := (validateSchema_ok valid).2 _ (JsonTree.lookup_mem there)
  rw [schemaAccepts] at accepted
  simpa only [found] using accepted

private theorem required_field (valid : validateSchema schema fields = .ok ()) (field : SchemaField)
    (found : schema.find? (fun other => other.name = field.name) = some field) (required : field.optional = false) :
    ∃ value, fields.lookup field.name = some value ∧ field.accepts value = true := by
  obtain ⟨value,there⟩ := Option.isSome_iff_exists.mp
    ((validateSchema_ok valid).1 field (List.mem_of_find?_eq_some found) required)
  exact ⟨value,there,field_accepted valid field found there⟩

end Schema

section Validate

def requiredText : String := "Fields auth_constraints and constraint are required and should not be an empty list."

def missingIdText : String := "Field constraint_id is required"

mutual
/-- `ConstraintField.validate`: nothing is returned for a value that is accepted, a text for
one that is not. A refusal deeper down is raised. -/
def validateConstraint : PyJson → Except Raised (Option String)
  | .scalar value =>
    if !value.truth then .ok (some requiredText)
    else
      match value with
      | .str text =>
        if "constraint_id".toList <:+: text.toList then .error .typeError else .ok (some missingIdText)
      | _ => .error .typeError
  | .list items =>
    if items.isEmpty then .ok (some requiredText)
    else if items.any (PyJson.isText "constraint_id") then .error .typeError
    else .ok (some missingIdText)
  | .object fields =>
    if fields.isEmpty then .ok (some requiredText)
    else
      match fields.lookup "constraint_id" with
      | none => .ok (some missingIdText)
      | some constraintId =>
        if PyJson.isText "FORBIDDEN" constraintId then .ok none
        else if PyJson.isText "ROLE" constraintId then do
          validateSchema entitySchema fields
          return none
        else do
          validateSchema listSchema fields
          validateAuthConstraints fields
          return none

def validateAuthConstraints : List (String × PyJson) → Except Raised Unit
  | [] => .error .typeError
  | (key,value)::fields =>
    if key = "auth_constraints" then validateParts value else validateAuthConstraints fields

def validateParts : PyJson → Except Raised Unit
  | .list [] => .error .typeError
  | .list items => validateItems items
  | _ => .error .typeError

def validateItems : List PyJson → Except Raised Unit
  | [] => .ok ()
  | item::items => do
    if (← validateConstraint item).isSome then throw .typeError
    validateItems items
end

variable {shown : PyJson → String} {fields : List (String × PyJson)}

private theorem optional_boolean (valid : validateSchema entitySchema fields = .ok ()) (name : String)
    (found : entitySchema.find? (fun other => other.name = name) = some ⟨name,booleanField,true⟩) :
    ∃ held : Option Bool, fields.lookup name = (held.map PyScalar.bool).map .scalar := by
  cases there : fields.lookup name with
  | none => exact ⟨none,rfl⟩
  | some value =>
    obtain ⟨truth,rfl⟩ := booleanField_shape (field_accepted valid ⟨name,booleanField,true⟩ found there)
    exact ⟨some truth,rfl⟩

private theorem entity_dictionary (valid : validateSchema entitySchema fields = .ok ())
    (named : fields.lookup "constraint_id" = some (.scalar (.str "ROLE"))) :
    ∃ dict, Dictionary shown (.object fields) dict := by
  obtain ⟨_,roleListed,accepted⟩ := required_field valid ⟨"role",roleField,false⟩ rfl rfl
  obtain ⟨role,rfl⟩ := roleField_shape accepted
  obtain ⟨_,countListed,accepted⟩ := required_field valid ⟨"sig_count",nonNegativeNumberField,false⟩ rfl rfl
  obtain ⟨count,sigCount,rfl,counts⟩ := nonNegativeNumberField_shape accepted
  obtain ⟨owner,ownerListed⟩ := optional_boolean valid "need_to_be_owner" rfl
  obtain ⟨off,offListed⟩ := optional_boolean valid "off_ledger_signature" rfl
  obtain ⟨held,heldListed⟩ : ∃ held : Option (List (String × PyJson)), fields.lookup "metadata" = held.map .object := by
    cases there : fields.lookup "metadata" with
    | none => exact ⟨none,rfl⟩
    | some value =>
      obtain ⟨entries,rfl⟩ := anyMapField_shape (field_accepted valid ⟨"metadata",anyMapField,true⟩ rfl there)
      exact ⟨some entries,rfl⟩
  refine ⟨.role role sigCount owner off (held.map fun entries => entries.map fun entry => (entry.1,shown entry.2)),?_⟩
  simp only [Dictionary]
  exact ⟨fields,rfl,named,roleListed,⟨count,countListed,counts⟩,ownerListed,offListed,held,heldListed,rfl⟩

private theorem validateItems_ok {items : List PyJson} (valid : validateItems items = .ok ()) :
    ∀ item ∈ items, validateConstraint item = .ok none := by
  induction items with
  | nil => simp
  | cons first items ih =>
    rw [validateItems] at valid
    obtain ⟨result,ran,valid⟩ := bind_success _ _ _ valid
    cases result with
    | some text => cases valid
    | none => exact List.forall_mem_cons.mpr ⟨ran,ih valid⟩

private theorem validateAuthConstraints_ok (valid : validateAuthConstraints fields = .ok ()) :
    ∃ items, fields.lookup "auth_constraints" = some (.list items) ∧
      ∀ item ∈ items, validateConstraint item = .ok none := by
  induction fields with
  | nil =>
    rw [validateAuthConstraints] at valid
    cases valid
  | cons entry fields ih =>
    obtain ⟨key,value⟩ := entry
    rw [validateAuthConstraints] at valid
    rw [List.lookup_cons]
    split at valid
    next here =>
      subst here
      unfold validateParts at valid
      split at valid
      next => cases valid
      next items _ => exact ⟨items,rfl,validateItems_ok valid⟩
      next => cases valid
    next other =>
      rw [beq_false_of_ne (Ne.symm other)]
      exact ih valid

private theorem list_document (valid : validateSchema listSchema fields = .ok ())
    (parts : validateAuthConstraints fields = .ok ()) {constraintId : PyJson}
    (named : fields.lookup "constraint_id" = some constraintId)
    (notForbidden : ¬PyJson.isText "FORBIDDEN" constraintId) (notRole : ¬PyJson.isText "ROLE" constraintId) :
    ∃ connective items, ListDocument connective fields items ∧ ∀ item ∈ items, validateConstraint item = .ok none := by
  obtain ⟨items,listed,each⟩ := validateAuthConstraints_ok parts
  have strict : ∀ entry ∈ fields, entry.1 = "constraint_id" ∨ entry.1 = "auth_constraints" := by
    intro entry member
    have accepted := (validateSchema_ok valid).2 entry member
    rw [schemaAccepts] at accepted
    split at accepted
    next => cases accepted
    next field found =>
      have known := List.mem_of_find?_eq_some found
      have same : field.name = entry.1 := by simpa using List.find?_some found
      rw [listSchema,List.mem_cons,List.mem_singleton] at known
      rcases known with rfl | rfl
      · exact .inl same.symm
      · exact .inr same.symm
  obtain ⟨text,known,rfl⟩ := chooseField_shape
    (field_accepted valid ⟨"constraint_id",chooseField constraintIds,false⟩ rfl named)
  rw [isText_iff] at notForbidden notRole
  simp only [constraintIds,List.mem_cons,List.not_mem_nil,or_false] at known
  rcases known with rfl | rfl | rfl | rfl
  · exact absurd rfl notRole
  · exact ⟨.and,items,⟨named,listed,strict⟩,each⟩
  · exact ⟨.or,items,⟨named,listed,strict⟩,each⟩
  · exact absurd rfl notForbidden

private theorem dictionaries {items : List PyJson} (each : ∀ item ∈ items, ∃ dict, Dictionary shown item dict) :
    ∃ parts, List.Forall₂ (Dictionary shown) items parts := by
  induction items with
  | nil => exact ⟨[],.nil⟩
  | cons item items ih =>
    obtain ⟨dict,first⟩ := each item List.mem_cons_self
    obtain ⟨parts,rest⟩ := ih fun other listed => each other (.tail _ listed)
    exact ⟨dict :: parts,.cons first rest⟩

private theorem accepted_dictionary {document : PyJson} (accepted : validateConstraint document = .ok none) :
    ∃ dict, Dictionary shown document dict := by
  induction document using JsonTree.induct with
  | scalar value =>
    unfold validateConstraint at accepted
    split at accepted
    next => cases accepted
    next =>
      split at accepted
      next => split at accepted <;> cases accepted
      next => cases accepted
  | list items ih =>
    rw [validateConstraint] at accepted
    split at accepted
    next => cases accepted
    next => split at accepted <;> cases accepted
  | object fields ih =>
    rw [validateConstraint] at accepted
    split at accepted
    next => cases accepted
    next =>
    split at accepted
    next => cases accepted
    next constraintId named =>
    split at accepted
    next forbidden =>
      refine ⟨.forbidden,?_⟩
      simp only [Dictionary]
      exact ⟨fields,rfl,isText_iff.mp forbidden ▸ named⟩
    next notForbidden =>
    split at accepted
    next isRole =>
      obtain ⟨_,valid,_⟩ := bind_success _ _ _ accepted
      exact entity_dictionary valid (isText_iff.mp isRole ▸ named)
    next notRole =>
      obtain ⟨_,valid,accepted⟩ := bind_success _ _ _ accepted
      obtain ⟨_,parts,_⟩ := bind_success _ _ _ accepted
      obtain ⟨connective,items,document,each⟩ := list_document valid parts named notForbidden notRole
      obtain ⟨dicts,documents⟩ := dictionaries fun item listed =>
        (ih _ (JsonTree.lookup_mem document.authConstraints)).2 items rfl item listed (each item listed)
      exact ⟨connective.dict dicts,dictionary_list.mpr ⟨fields,items,rfl,document,documents⟩⟩

end Validate

private theorem accepted_created (shown : PyJson → String) {inside : Nat → Prop} {store : List PyCell} {word : PyWord}
    {document : PyJson} (accepted : validateConstraint document = .ok none) (reads : Reads inside store word document) :
    ∃ enough, ∀ fuel, enough < fuel → ∃ result after, createObject fuel word store = (result,after) ∧ store <+: after ∧
      (result = .error .valueError ∨ ∃ address tree, result = .ok address ∧
        Holds shown (fun _ => True) after (.address address) tree) := by
  obtain ⟨dict,isDict⟩ := accepted_dictionary accepted
  refine ⟨dict.depth,fun fuel enough => ?_⟩
  obtain ⟨longer,ends⟩ := createObject_refines isDict reads enough
  refine ⟨_,_,rfl,longer,?_⟩
  cases created : createConstraint dict with
  | error text =>
    rw [created] at ends
    exact .inl ends
  | ok tree =>
    rw [created] at ends
    obtain ⟨address,run,holds⟩ := ends
    exact .inr ⟨address,tree,run,holds⟩

/-- Rebuilding a constraint, from its dictionary or from its text, restores it and changes
nothing that was there; and what the validator accepts is created or refused by a `ValueError` or
a `KeyError`. -/
theorem constraint_rebuilt {β : Type} (dumps : PyJson → β) (loads : β → Option PyJson)
    (roundTrip : ∀ document, ∃ again, loads (dumps document) = some again ∧ JsonTree.Same document again)
    (shown : PyJson → String) (inside : Nat → Prop) (store : List PyCell) (word : PyWord) :
    (∀ tree, Holds shown inside store word tree → ∃ enough, ∀ fuel, enough < fuel →
      (∃ dict middle address after, objectAsDict fuel word store = (.ok dict,middle) ∧ store <+: middle ∧
        createObject fuel dict middle = (.ok address,after) ∧ middle <+: after ∧
        Holds shown (fun _ => True) after (.address address) tree) ∧
      ∃ text middle address after restored, serialize dumps fuel word store = (.ok text,middle) ∧ store <+: middle ∧
        deserializeObject loads fuel text middle = (.ok address,after) ∧ middle <+: after ∧
        Holds shown (fun _ => True) after (.address address) restored ∧
        restored.map AuthConstraint.bare = tree.map AuthConstraint.bare ∧
        ∀ cache req action, composite cache req action restored = .ok (true,"") ↔
          composite cache req action tree = .ok (true,"")) ∧
    ∀ document, validateConstraint document = .ok none → Reads inside store word document →
      ∃ enough, ∀ fuel, enough < fuel → ∃ result after, createObject fuel word store = (result,after) ∧
        store <+: after ∧ (result = .error .valueError ∨ result = .error .keyError ∨ ∃ address tree,
          result = .ok address ∧ Holds shown (fun _ => True) after (.address address) tree) := by
  refine ⟨fun tree holds => ?_,fun document accepted reads => ?_⟩
  · obtain ⟨one,direct⟩ := rebuilt_directly holds
    obtain ⟨two,throughText⟩ := rebuilt_from_text dumps loads roundTrip holds
    refine ⟨max one two,fun fuel enough => ⟨direct fuel ((le_max_left _ _).trans_lt enough),?_⟩⟩
    obtain ⟨text,middle,address,after,restored,serialized,longer,created,further,holds,bare⟩ :=
      throughText fuel ((le_max_right _ _).trans_lt enough)
    exact ⟨text,middle,address,after,restored,serialized,longer,created,further,holds,bare,accepts_bare bare⟩
  · obtain ⟨enough,creates⟩ := accepted_created shown accepted reads
    refine ⟨enough,fun fuel more => ?_⟩
    obtain ⟨result,after,run,longer,ends⟩ := creates fuel more
    exact ⟨result,after,run,longer,ends.imp_right .inr⟩

def roleFieldsOf (role : String) (sigCount : Int) : List (String × PyWord) :=
  [("constraint_id",strWord "ROLE"),("role",strWord role),("sig_count",.scalar (.int sigCount)),
    ("need_to_be_owner",.scalar (.bool false)),("metadata",.address 0)]

def roleDocumentOf (role : String) (sigCount : Int) : PyJson :=
  .object [("constraint_id",.scalar (.str "ROLE")),("role",.scalar (.str role)),("sig_count",.scalar (.int sigCount)),
    ("need_to_be_owner",.scalar (.bool false)),("metadata",.object [])]

/-- A trustee or nobody, and two signatures. -/
def nestedDictStore : List PyCell :=
  [.dict [],.dict (roleFieldsOf "0" 1),.dict [("constraint_id",strWord "FORBIDDEN")],.list [.address 1,.address 2],
    .dict [("constraint_id",strWord "OR"),("auth_constraints",.address 3)],.dict (roleFieldsOf "*" 2),
    .list [.address 4,.address 5],.dict [("constraint_id",strWord "AND"),("auth_constraints",.address 6)]]

def nestedDocument : PyJson :=
  .object [("constraint_id",.scalar (.str "AND")),("auth_constraints",.list
    [.object [("constraint_id",.scalar (.str "OR")),("auth_constraints",.list
      [roleDocumentOf "0" 1,.object [("constraint_id",.scalar (.str "FORBIDDEN"))]])],roleDocumentOf "*" 2])]

private theorem nestedDocument_read : Reads (fun _ => True) nestedDictStore (.address 7) nestedDocument := by
  have text : ∀ key value, (fun (held : String × PyWord) (field : String × PyJson) => held.1 = field.1 ∧
      Reads (fun _ => True) nestedDictStore held.2 field.2) (key,strWord value) (key,.scalar (.str value)) :=
    fun _ _ => ⟨rfl,reads_scalar.mpr rfl⟩
  have role : ∀ address value count, nestedDictStore[address]? = some (.dict (roleFieldsOf value count)) →
      Reads (fun _ => True) nestedDictStore (.address address) (roleDocumentOf value count) := by
    intro address value count there
    have metadata : Reads (fun _ => True) nestedDictStore (.address 0) (.object []) :=
      reads_object.mpr ⟨0,[],rfl,trivial,rfl,.nil⟩
    exact reads_object.mpr ⟨address,_,rfl,trivial,there,.cons (text _ _) (.cons (text _ _) (.cons
      ⟨rfl,reads_scalar.mpr rfl⟩ (.cons ⟨rfl,reads_scalar.mpr rfl⟩ (.cons ⟨rfl,metadata⟩ .nil))))⟩
  have forbidden : Reads (fun _ => True) nestedDictStore (.address 2)
      (.object [("constraint_id",.scalar (.str "FORBIDDEN"))]) :=
    reads_object.mpr ⟨2,_,rfl,trivial,rfl,.cons (text _ _) .nil⟩
  have either : Reads (fun _ => True) nestedDictStore (.address 4)
      (.object [("constraint_id",.scalar (.str "OR")),("auth_constraints",.list
        [roleDocumentOf "0" 1,.object [("constraint_id",.scalar (.str "FORBIDDEN"))]])]) :=
    reads_object.mpr ⟨4,_,rfl,trivial,rfl,.cons (text _ _) (.cons ⟨rfl,reads_list.mpr ⟨3,_,rfl,trivial,rfl,
      .cons (role 1 "0" 1 rfl) (.cons forbidden .nil)⟩⟩ .nil)⟩
  exact reads_object.mpr ⟨7,_,rfl,trivial,rfl,.cons (text _ _) (.cons ⟨rfl,reads_list.mpr ⟨6,_,rfl,trivial,rfl,
    .cons either (.cons (role 5 "*" 2 rfl) .nil)⟩⟩ .nil)⟩

theorem sample_rebuilt :
    (∃ enough, ∀ fuel, enough < fuel → ∃ dict middle address after,
      objectAsDict fuel (.address 7) nestedStore = (.ok dict,middle) ∧
        createObject fuel dict middle = (.ok address,after) ∧ nestedStore <+: after ∧
        Holds (fun _ => "") (fun _ => True) after (.address address) nestedTree) ∧
    ∃ enough, ∀ fuel, enough < fuel → ∃ result after,
      createObject fuel (.address 7) nestedDictStore = (result,after) ∧ nestedDictStore <+: after ∧
        (result = .error .valueError ∨ result = .error .keyError ∨ ∃ address tree, result = .ok address ∧
          Holds (fun _ => "") (fun _ => True) after (.address address) tree) := by
  have results := constraint_rebuilt (fun document => document) some
    (fun document => ⟨document,rfl,JsonTree.Same.refl document⟩) (fun _ => "") (fun _ => True)
  obtain ⟨enough,first⟩ := (results nestedStore (.address 7)).1 _ nested_held
  refine ⟨⟨enough,fun fuel more => ?_⟩,(results nestedDictStore (.address 7)).2 _ rfl nestedDocument_read⟩
  obtain ⟨dict,middle,address,after,printed,longer,created,further,same⟩ := (first fuel more).1
  exact ⟨dict,middle,address,after,printed,created,longer.trans further,same⟩

end IndyNode.Authorize

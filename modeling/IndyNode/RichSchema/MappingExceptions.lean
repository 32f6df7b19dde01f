import IndyNode.RichSchema.Mapping

/-! What the validation of a mapping can end in, whatever its content: the exceptions that
leave it, and the attributes that an accepted mapping leaves without a pair. -/
namespace IndyNode.RichSchema
open Authorize

section Attributes

/-- An attribute is a key of `attributes`, or of an object with further attributes in it, and
has no such object as its value. -/
inductive AttributeIn : List (String × Document) → String → Document → Prop where
  | field (fields : List (String × Document)) (key : String) (value : Document)
      (held : (key,value) ∈ fields) (ends : ∀ inner, value = .object inner → ¬Nested inner) :
      AttributeIn fields key value
  | nested (fields inner : List (String × Document)) (step : Step) (outer key : String) (value : Document)
      (listed : (step,outer,.object inner) ∈ children fields) (further : Nested inner)
      (deeper : AttributeIn inner key value) : AttributeIn fields key value

def parts : Document → List Document
  | .list items => items
  | value => [value]

/-- The value is a pair, or a list with one in its items. -/
def HasPair (value : Document) : Prop :=
  ∃ part ∈ parts value, ∃ position leaf, LeafAt part position leaf ∧ Paired leaf

def Full (fields : List (String × Document)) : Prop := ∀ key, ¬AttributeIn fields key (.list [])

private theorem mem_zipIdx_of_mem {α : Type} {item : α} {items : List α} (listed : item ∈ items) :
    ∃ index, (item,index) ∈ items.zipIdx := by
  obtain ⟨index,there⟩ := List.mem_iff_getElem?.mp listed
  exact ⟨index,List.mk_mem_zipIdx_iff_getElem?.mpr there⟩

private theorem part_listed {fields : List (String × Document)} {key : String} {value part : Document}
    (held : (key,value) ∈ fields) (inside : part ∈ parts value) :
    ∃ step, (step,key,part) ∈ children fields := by
  obtain ⟨index,there⟩ := mem_zipIdx_of_mem held
  suffices spreads : ∃ step, (step,key,part) ∈ spread index (key,value) by
    obtain ⟨step,found⟩ := spreads
    exact ⟨step,List.mem_flatMap.mpr ⟨_,there,found⟩⟩
  cases value with
  | list items =>
    obtain ⟨place,found⟩ := mem_zipIdx_of_mem inside
    exact ⟨(index,some place),List.mem_map.mpr ⟨_,found,rfl⟩⟩
  | scalar value =>
    obtain rfl := List.mem_singleton.mp inside
    exact ⟨(index,none),List.mem_singleton.mpr rfl⟩
  | object inner =>
    obtain rfl := List.mem_singleton.mp inside
    exact ⟨(index,none),List.mem_singleton.mpr rfl⟩

private theorem full_part {fields : List (String × Document)} {key : String} {value : Document} (full : Full fields)
    (held : (key,value) ∈ fields) : ∃ part step, part ∈ parts value ∧ (step,key,part) ∈ children fields := by
  obtain ⟨part,inside⟩ : ∃ part, part ∈ parts value := by
    cases value with
    | scalar _ => exact ⟨_,List.mem_singleton.mpr rfl⟩
    | object inner => exact ⟨_,List.mem_singleton.mpr rfl⟩
    | list items =>
      cases items with
      | nil => exact (full key (.field fields key _ held (by simp))).elim
      | cons item items => exact ⟨item,List.mem_cons_self⟩
  obtain ⟨step,listed⟩ := part_listed held inside
  exact ⟨part,step,inside,listed⟩

private theorem full_below {fields inner : List (String × Document)} {step : Step} {key : String} (full : Full fields)
    (listed : (step,key,.object inner) ∈ children fields) (further : Nested inner) : Full inner :=
  fun other deeper => full other (.nested fields inner step key other _ listed further deeper)

private theorem has_leaf (tree : Document)
    (full : ∀ fields, tree = .object fields → Nested fields → Full fields) :
    ∃ position leaf, LeafAt tree position leaf := by
  induction tree using Document.induct with
  | leaf tree ends => exact ⟨[],tree,.here tree ends⟩
  | inner fields inner each =>
    have nested := (isLeafDict_nested fields).mp inner
    have full := full fields rfl nested
    obtain ⟨⟨key,value⟩,held,_⟩ := id nested
    obtain ⟨part,step,_,listed⟩ := full_part full held
    obtain ⟨position,leaf,found⟩ := each _ listed fun deeper same further => by
      simp only at same
      subst same
      exact full_below full listed further
    exact ⟨step :: position,leaf,.inside fields nested step key part leaf position listed found⟩

private theorem attributes_paired {fields : List (String × Document)} {key : String} {value : Document}
    (listed : AttributeIn fields key value) (nested : Nested fields) (full : Full fields)
    (paired : ∀ position leaf, LeafAt (.object fields) position leaf → Paired leaf) : HasPair value := by
  induction listed with
  | nested fields below step outer key value listed further deeper ih =>
    refine ih further (full_below full listed further) fun position leaf found => ?_
    exact paired (step :: position) leaf (.inside fields nested step outer _ leaf position listed found)
  | field fields key value held ends =>
    obtain ⟨part,step,inside,listed⟩ := full_part full held
    obtain ⟨position,leaf,found⟩ := has_leaf part fun deeper same further => by
      subst same
      exact full_below full listed further
    refine ⟨part,inside,position,leaf,found,paired (step :: position) leaf ?_⟩
    exact .inside fields nested step key part leaf position listed found

end Attributes

section Stages
variable (setup : MappingSetup) (req : Request)

def isInvalid : Raised → Bool
  | .invalidClientRequest _ _ _ => true
  | _ => false

@[simp] theorem isInvalid_invalid (reason : String) : isInvalid (invalid req reason) = true := rfl

def JsonLd (op : RichSchemaOperation) (content : Document) : Prop :=
  holdsTrue (content.field? "@id") = true ∧ holdsTrue (content.field? "@type") = true ∧
    isText op.id (content.field? "@id") = true

private theorem jsonLd_ends (op : RichSchemaOperation) (content : Document) (post : Unit → Prop) :
    Ends isInvalid (doStaticValidationJsonLd req op content) post ↔
      content.isObject = true ∧ (JsonLd op content → post ()) := by
  cases content with
  | scalar value =>
    have raised : doStaticValidationJsonLd req op (.scalar value) = .error .attributeError := rfl
    simp [raised,isInvalid,JsonTree.isObject]
  | list items =>
    have raised : doStaticValidationJsonLd req op (.list items) = .error .attributeError := rfl
    simp [raised,isInvalid,JsonTree.isObject]
  | object fields =>
    rw [JsonLd]
    cases held : fields.lookup "@id" with
    | none =>
      have absent : holdsTrue none = false := rfl
      simp [doStaticValidationJsonLd,Document.get,JsonTree.isObject,JsonTree.field?,held,absent]
    | some id =>
      by_cases named : holdsTrue (some id) = true <;>
        by_cases typed : holdsTrue (fields.lookup "@type") = true <;>
        by_cases same : isText op.id (some id) = true <;>
        simp [doStaticValidationJsonLd,Document.get,Document.subscript,JsonTree.isObject,JsonTree.field?,held,
          named,typed,same]

/-- The two fields are set. -/
def Holds (first second : String) (holder : Document) : Prop :=
  holdsTrue (holder.field? first) = true ∧ holdsTrue (holder.field? second) = true

private theorem missingFields_object (fields : List (String × Document)) (first second : String) :
    missingFields (.object fields) [first,second] =
      .ok ([first,second].filter fun name => !holdsTrue (fields.lookup name)) := by
  cases here : holdsTrue (fields.lookup first) <;> cases there : holdsTrue (fields.lookup second) <;>
    simp [missingFields,List.filterM,List.filterAuxM,Document.get,here,there]

private theorem missingFields_ends (first second reason : String) (holder : Document) (next : Except Raised Unit)
    (post : Unit → Prop) :
    Ends isInvalid (do
      let missing ← missingFields holder [first,second]
      if missing ≠ [] then throw (invalid req (quoted missing ++ reason))
      next) post ↔ holder.isObject = true ∧ (Holds first second holder → Ends isInvalid next post) := by
  cases holder with
  | scalar value =>
    have raised : missingFields (.scalar value) [first,second] = .error .attributeError := rfl
    simp [raised,isInvalid,JsonTree.isObject]
  | list items =>
    have raised : missingFields (.list items) [first,second] = .error .attributeError := rfl
    simp [raised,isInvalid,JsonTree.isObject]
  | object fields =>
    by_cases here : holdsTrue (fields.lookup first) = true <;>
      by_cases there : holdsTrue (fields.lookup second) = true <;>
      simp [missingFields_object,Holds,JsonTree.isObject,JsonTree.field?,here,there]

private theorem content_ends (content : Document) (post : Unit → Prop) :
    Ends isInvalid (doStaticValidationContent req content) post ↔ content.isObject = true ∧
      (Holds "schema" "attributes" content → ∀ attributes, content.field? "attributes" = some attributes →
        attributes.isObject = true ∧ (Holds "issuer" "issuanceDate" attributes → post ())) := by
  have rest : ∀ attributes, Ends isInvalid (do
      let missing ← missingFields attributes ["issuer","issuanceDate"]
      if missing ≠ [] then throw (invalid req (quoted missing ++ " must be in content's 'attributes'"))) post ↔
        attributes.isObject = true ∧ (Holds "issuer" "issuanceDate" attributes → post ()) := by
    intro attributes
    have split := missingFields_ends req "issuer" "issuanceDate" " must be in content's 'attributes'" attributes
      (pure ()) post
    rw [ends_pure] at split
    simpa using split
  rw [doStaticValidationContent,missingFields_ends]
  refine and_congr_right fun _ => imp_congr_right fun held => ?_
  obtain ⟨attributes,there⟩ : ∃ attributes, content.field? "attributes" = some attributes := by
    refine Option.ne_none_iff_exists'.mp fun absent => ?_
    rw [Holds,absent] at held
    cases held.2
  rw [subscript_of_field there,ok_bind,rest,there]
  simp

/-- The reference can be looked up, and finds nothing or an object. -/
def Readable (reference : Document) : Prop :=
  RaisesOnly isInvalid (setup.getFromState reference) ∧
    ∀ found, setup.getFromState reference = .ok found → found.truth = true → found.isObject = true

private theorem checkReference_raises (rsType absent other : String) (reference : Document) :
    RaisesOnly isInvalid (checkReference setup req rsType absent other reference) ↔ Readable setup reference := by
  rw [checkReference,Readable,raisesOnly_bind]
  refine and_congr_right fun _ => forall_congr' fun found => imp_congr_right fun _ => ?_
  cases truth : found.truth with
  | false => simp [throw_eq]
  | true =>
    cases found with
    | scalar value => simp [Document.get,isInvalid,JsonTree.isObject]
    | list items => simp [Document.get,isInvalid,JsonTree.isObject]
    | object fields =>
      refine iff_of_true ?_ fun _ => rfl
      exact raisesOnly_throw_if isInvalid _ _ _ rfl

private theorem checkPair_raises (leaf : Document × Option String) : RaisesOnly isInvalid (checkPair req leaf) := by
  simp only [checkPair]
  split
  · split <;> simp
  · simp

/-- There is nothing to compare, or all ranks are numbers, or all are texts. -/
def Comparable (leaves : List (Document × Option String)) : Prop :=
  leaves.length ≤ 1 ∨ (∀ leaf ∈ leaves, ((leaf.1.field? "rank").bind Document.number?).isSome = true) ∨
    ∀ leaf ∈ leaves, ((leaf.1.field? "rank").bind Document.text?).isSome = true

/-- The ranks are the numbers from one on, each used once. -/
def Sequential (leaves : List (Document × Option String)) : Prop :=
  (leaves.map fun leaf => (leaf.1.field? "rank").bind Document.number?).Perm (expectedRanks leaves.length)

private theorem all_ranks {α : Type} (kind : Document → Option α) {leaves : List (Document × Option String)}
    {ranks : List Document} (read : (leaves.mapM fun leaf => leaf.1.subscript "rank") = .ok ranks) :
    ranks.all (fun rank => (kind rank).isSome) = true ↔
      ∀ leaf ∈ leaves, ((leaf.1.field? "rank").bind kind).isSome = true := by
  have same := ranks_as kind read
  calc ranks.all (fun rank => (kind rank).isSome) = true
      ↔ (ranks.map kind).all Option.isSome = true := by rw [List.all_map]; rfl
    _ ↔ ∀ leaf ∈ leaves, ((leaf.1.field? "rank").bind kind).isSome = true := by
      rw [← same,List.all_map,List.all_eq_true]
      rfl

private theorem checkRanks_raises (leaves : List (Document × Option String)) (paired : ∀ leaf ∈ leaves, Paired leaf.1) :
    RaisesOnly isInvalid (checkRanks req leaves) ↔ Comparable leaves := by
  obtain ⟨ranks,read⟩ := ranks_held fun leaf listed => by
    obtain ⟨_,rank,_,held⟩ := paired_held (paired leaf listed)
    exact ⟨rank,held⟩
  have length : ranks.length = leaves.length := by
    simpa using (congrArg List.length (ranks_read read)).symm
  rw [checkRanks,read,ok_bind,Comparable,← all_ranks _ read,← all_ranks _ read,← length,sortedRanks]
  split
  · next comparable => exact iff_of_true (raisesOnly_throw_if isInvalid _ _ _ rfl) comparable
  · next mixed => exact iff_of_false (by simp [isInvalid]) mixed

def EncodingFound (leaf : Document × Option String) : Prop :=
  ∃ enc, leaf.1.field? "enc" = some enc ∧ FoundAs setup "enc" enc

def EncodingReadable (leaf : Document × Option String) : Prop :=
  ∀ enc, leaf.1.field? "enc" = some enc → Readable setup enc

private theorem checkEncoding_ok_iff (leaf : Document × Option String) (paired : Paired leaf.1) :
    checkEncoding setup req leaf = .ok () ↔ EncodingFound setup leaf := by
  obtain ⟨enc,_,held,_⟩ := paired_held paired
  rw [checkEncoding,subscript_of_field held,ok_bind,checkReference_ok_iff,EncodingFound,held]
  simp

private theorem checkEncoding_raises (leaf : Document × Option String) (paired : Paired leaf.1) :
    RaisesOnly isInvalid (checkEncoding setup req leaf) ↔ EncodingReadable setup leaf := by
  obtain ⟨enc,_,held,_⟩ := paired_held paired
  rw [checkEncoding,subscript_of_field held,ok_bind,checkReference_raises,EncodingReadable,held]
  simp

/-- Up to the first leaf without an encoding, encodings can be looked up. -/
def EncodingsReadable (leaves : List (Document × Option String)) : Prop :=
  ∀ before leaf after, leaves = before ++ leaf :: after → (∀ earlier ∈ before, EncodingFound setup earlier) →
    EncodingReadable setup leaf

private theorem encodings_ends (leaves : List (Document × Option String)) (paired : ∀ leaf ∈ leaves, Paired leaf.1)
    (post : Unit → Prop) : Ends isInvalid (leaves.forM (checkEncoding setup req)) post ↔
      EncodingsReadable setup leaves ∧ ((∀ leaf ∈ leaves, EncodingFound setup leaf) → post ()) := by
  refine ends_unit ?_ ?_ post
  · rw [raisesOnly_forM]
    refine forall_congr' fun before => forall_congr' fun leaf => forall_congr' fun after =>
      imp_congr_right fun shape => ?_
    subst shape
    refine imp_congr (forall₂_congr fun earlier listed => ?_) ?_
    · exact checkEncoding_ok_iff setup req earlier (paired earlier (List.mem_append_left _ listed))
    · exact checkEncoding_raises setup req leaf (paired leaf (by simp))
  · rw [forM_ok_iff]
    exact forall₂_congr fun leaf listed => checkEncoding_ok_iff setup req leaf (paired leaf listed)

end Stages

section Validation
variable (setup : MappingSetup) (req : Request) (op : RichSchemaOperation)

/-- What the leaves must not do: rank with numbers and texts at once, refer to what cannot
be looked up, or all be fine and leave an attribute out. -/
def LeavesHandled (fields : List (String × Document)) : Prop :=
  let leaves := findEncodingDescDicts none (.object fields)
  (∀ leaf ∈ leaves, Paired leaf.1) → Comparable leaves ∧ (Sequential leaves →
    EncodingsReadable setup leaves ∧ ((∀ leaf ∈ leaves, EncodingFound setup leaf) →
      Nested fields ∧ Full fields))

/-- The content is an object, and as far as its checks pass: its attributes are one, and its
schema can be looked up. -/
def Handled (content : Document) : Prop :=
  content.isObject = true ∧ (JsonLd op content → Holds "schema" "attributes" content →
    ∀ attributes, content.field? "attributes" = some attributes → attributes.isObject = true ∧
      (Holds "issuer" "issuanceDate" attributes → ∀ schemaId, content.field? "schema" = some schemaId →
        Readable setup schemaId ∧ (FoundAs setup "sch" schemaId → ∀ fields, attributes = .object fields →
          LeavesHandled setup fields)))

def PairsEveryAttribute (content : Document) : Prop :=
  ∀ fields, content.field? "attributes" = some (.object fields) →
    ∀ key value, AttributeIn fields key value → HasPair value

def mappingValidation : Except Raised Unit := do
  mappingStaticValidation setup req op
  mappingDynamicValidation setup req op

private theorem scalar_unpaired (value : Scalar) : ¬HasPair (.scalar value) := by
  rintro ⟨part,inside,position,leaf,found,paired⟩
  obtain rfl := List.mem_singleton.mp inside
  cases found with
  | value => cases paired.1

private theorem pairs_iff (fields : List (String × Document)) (issued : Holds "issuer" "issuanceDate" (.object fields))
    (paired : ∀ leaf ∈ findEncodingDescDicts none (.object fields), Paired leaf.1) :
    (∀ key value, AttributeIn fields key value → HasPair value) ↔ Nested fields ∧ Full fields := by
  constructor
  · intro pairs
    constructor
    · by_contra plain
      -- The issuer is an attribute, and in a leaf it is no object.
      obtain ⟨issuer,held⟩ : ∃ issuer, fields.lookup "issuer" = some issuer := by
        refine Option.ne_none_iff_exists'.mp fun absent => ?_
        rw [Holds,JsonTree.field?,absent] at issued
        cases issued.1
      have listed : ("issuer",issuer) ∈ fields := by
        obtain ⟨before,after,shape,_⟩ := List.lookup_eq_some_iff.mp held
        simp [shape]
      cases issuer with
      | scalar value => exact scalar_unpaired value (pairs "issuer" _ (.field fields _ _ listed (by simp)))
      | list items => exact plain ⟨_,listed,.inr ⟨items,rfl⟩⟩
      | object inner => exact plain ⟨_,listed,.inl ⟨inner,rfl⟩⟩
    · intro key empty
      obtain ⟨part,inside,_⟩ := pairs key _ empty
      cases inside
  · rintro ⟨nested,full⟩ key value listed
    refine attributes_paired listed nested full fun position leaf found => ?_
    obtain ⟨located,enumerates,values⟩ := leaves_located (.object fields)
    have yielded : leaf ∈ (findEncodingDescDicts none (.object fields)).map Prod.fst := by
      rw [← values]
      exact List.mem_map_of_mem ((enumerates.complete position leaf).mpr found)
    obtain ⟨entry,inside,rfl⟩ := List.mem_map.mp yielded
    exact paired entry inside

private theorem leaves_end (fields : List (String × Document))
    (issued : Holds "issuer" "issuanceDate" (.object fields)) :
    Ends isInvalid (do
      let leaves := findEncodingDescDicts none (.object fields)
      leaves.forM (checkPair req)
      checkRanks req leaves
      leaves.forM (checkEncoding setup req))
      (fun _ => ∀ key value, AttributeIn fields key value → HasPair value) ↔ LeavesHandled setup fields := by
  simp only [ends_bind,LeavesHandled]
  rw [ends_unit (iff_true_intro ((raisesOnly_forM isInvalid (checkPair req) _).mpr
    fun _ leaf _ _ _ => checkPair_raises req leaf)) (forM_ok_iff (checkPair req) _),true_and]
  simp only [checkPair_ok_iff]
  refine imp_congr_right fun paired => ?_
  rw [ends_unit (checkRanks_raises req _ paired) (checkRanks_ok_iff req _)]
  refine and_congr_right fun _ => imp_congr_right fun _ => ?_
  rw [encodings_ends setup req _ paired]
  exact and_congr_right fun _ => imp_congr_right fun _ => pairs_iff fields issued paired

private theorem content_handled (content : Document) :
    Ends isInvalid (do
      doStaticValidationJsonLd req op content
      doStaticValidationContent req content
      checkMapping setup req content) (fun _ => PairsEveryAttribute content) ↔ Handled setup op content := by
  rw [ends_bind,jsonLd_ends,Handled]
  refine and_congr_right fun object => imp_congr_right fun _ => ?_
  rw [ends_bind,content_ends,and_iff_right object]
  refine imp_congr_right fun headed => forall_congr' fun attributes => imp_congr_right fun held =>
    and_congr_right fun isObject => imp_congr_right fun issued => ?_
  obtain ⟨schemaId,named⟩ : ∃ schemaId, content.field? "schema" = some schemaId := by
    refine Option.ne_none_iff_exists'.mp fun absent => ?_
    rw [Holds,absent] at headed
    cases headed.1
  obtain ⟨fields,rfl⟩ : ∃ fields, attributes = .object fields := by
    cases attributes with
    | object fields => exact ⟨fields,rfl⟩
    | scalar _ => cases isObject
    | list _ => cases isObject
  have pairs : PairsEveryAttribute content ↔ ∀ key value, AttributeIn fields key value → HasPair value := by
    simp [PairsEveryAttribute,held]
  rw [checkMapping,subscript_of_field named,ok_bind,ends_bind,checkSchema,
    ends_unit (checkReference_raises setup req _ _ _ _) (checkReference_ok_iff setup req _ _ _ _),
    subscript_of_field held,ok_bind,pairs,leaves_end setup req fields issued,named]
  simp

/-- Validation ends in a verdict with a pair for every attribute, except for the shapes of
content that are not handled. -/
theorem mapping_validation_iff :
    ((mappingValidation setup req op = .ok () → ∀ content, setup.loads op.content = some content →
        PairsEveryAttribute content) ∧ RaisesOnly isInvalid (mappingValidation setup req op)) ↔
      (setup.enabled = true → ∀ content, setup.loads op.content = some content → Handled setup op content) := by
  rw [mappingValidation,mappingStaticValidation,mappingDynamicValidation]
  cases setup.enabled with
  | false => simp
  | true =>
    cases setup.loads op.content with
    | none => simp
    | some content =>
      have handled := content_handled setup req op content
      rw [ends_unit Iff.rfl Iff.rfl,and_comm] at handled
      simpa [bind_assoc] using handled

/-- `degree` has an empty list: it has no pair, and that is accepted. -/
def emptyListContent : Document :=
  contentOf (.object [("issuer",pairOf 1),("issuanceDate",pairOf 2),("degree",.list [])])

/-- The rank of `degree` is a text among numbers. -/
def mixedRanksContent : Document :=
  contentOf (.object [("issuer",pairOf 1),("issuanceDate",pairOf 2),
    ("degree",.object [("enc",textOf "enc1"),("rank",textOf "3")])])

theorem mapping_accepted_without_pair :
    (mappingValidation (parsing emptyListContent) mappingRequest mappingOperation = .ok () ∧
      ¬PairsEveryAttribute emptyListContent) ∧
    mappingValidation (parsing mixedRanksContent) mappingRequest mappingOperation = .error .typeError := by
  refine ⟨⟨rfl,fun pairs => ?_⟩,rfl⟩
  obtain ⟨part,inside,_⟩ := pairs _ rfl "degree" (.list []) (.field _ _ _ (by simp) (by simp))
  cases inside

end Validation
end IndyNode.RichSchema

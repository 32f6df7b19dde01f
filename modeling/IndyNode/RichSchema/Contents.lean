import IndyNode.RichSchema.Mapping
import Mathlib.Data.List.Infix

/-! The six handlers of rich schema objects: what each asks of the content of its objects. -/
namespace IndyNode.RichSchema
open Authorize

inductive RichKind where
  | context
  | schema
  | encoding
  | mapping
  | credDef
  | presDef
deriving DecidableEq, Repr

namespace RichKind

def txnType : RichKind → String
  | .context => "200"
  | .schema => "201"
  | .encoding => "202"
  | .mapping => "203"
  | .credDef => "204"
  | .presDef => "205"

def rsType : RichKind → String
  | .context => "ctx"
  | .schema => "sch"
  | .encoding => "enc"
  | .mapping => "map"
  | .credDef => "cdf"
  | .presDef => "pdf"

def isJsonLdContent : RichKind → Bool
  | .schema => true
  | .mapping => true
  | .presDef => true
  | _ => false

end RichKind

/-- `badUri` is the search for `URI_REGEX`. -/
structure ContentSetup extends MappingSetup where
  badUri : String → Bool

section Static
variable (setup : ContentSetup) (req : Request)

def checkUri (uri : Document) : Except Raised Unit :=
  match uri with
  | .scalar (.text uri) =>
    if setup.badUri uri then .error (invalid req ("@context URI " ++ uri ++ " badly formed")) else .ok ()
  | _ => .error .typeError

def validateContext : Document → Except Raised Unit
  | .list items => items.forM fun item => if item.isObject then .ok () else checkUri setup req item
  | .object _ => .ok ()
  | .scalar (.text uri) => checkUri setup req (textOf uri)
  | .scalar _ => .error (invalid req "'@context' value must be url, array, or object")

/-- `key in document`: a key of an object, an item of a list, or a part of a text. -/
def contains (key : String) : Document → Except Raised Bool
  | .object fields => .ok (fields.lookup key).isSome
  | .list items => .ok (items.any fun item => Document.text? item = some key)
  | .scalar (.text text) => .ok (decide (key.toList <:+: text.toList))
  | .scalar _ => .error .typeError

def contextStaticValidation (content : Document) : Except Raised Unit := do
  if !(← contains "@context" content) then throw (invalid req "'content' must contain a @context field")
  validateContext setup req (← content.subscript "@context")

/-- The fields are set; otherwise those that are not are named. -/
def checkSet (holder : Document) (names : List String) (separator place : String) : Except Raised Unit := do
  let missing ← missingFields holder names
  if missing ≠ [] then throw (invalid req (quotedBy separator missing ++ " must be set in '" ++ place ++ "'"))

def encodingStaticValidation (content : Document) : Except Raised Unit := do
  checkSet req content ["input","output","algorithm","testVectors"] ", " "content"
  ["input","output"].forM fun field => do checkSet req (← content.subscript field) ["id","type"] " and " field
  checkSet req (← content.subscript "algorithm") ["description","documentation","implementation"] ", " "algorithm"

def credDefStaticValidation (content : Document) : Except Raised Unit :=
  checkSet req content ["signatureType","mapping","schema","publicKey"] ", " "content"

/-- `do_static_validation_content` of the handlers. -/
def staticValidationContent (kind : RichKind) (content : Document) : Except Raised Unit :=
  match kind with
  | .context => contextStaticValidation setup req content
  | .encoding => encodingStaticValidation req content
  | .mapping => doStaticValidationContent req content
  | .credDef => credDefStaticValidation req content
  | .schema => .ok ()
  | .presDef => .ok ()

def richStaticValidation (kind : RichKind) (op : RichSchemaOperation) : Except Raised Unit :=
  if !setup.enabled then .error (invalid req "RichSchema transactions are disabled")
  else
    match setup.loads op.content with
    | none => .error (invalid req "'content' must be a JSON serialized string")
    | some content => do
      if kind.isJsonLdContent then doStaticValidationJsonLd req op content
      staticValidationContent setup req kind content

end Static

section Dynamic
variable (setup : MappingSetup) (req : Request)

def referencedMissing (field : String) (id : Document) : String :=
  "Can not find a referenced '" ++ field ++ "' with id=" ++ setup.format id ++
    "; please make sure that it has been added to the ledger"

/-- Both objects have to be there before the type of either is looked at. -/
def checkCredDef (content : Document) : Except Raised Unit := do
  let schemaId ← content.subscript "schema"
  let mappingId ← content.subscript "mapping"
  let schema ← setup.getFromState schemaId
  if !schema.truth then throw (invalid req (referencedMissing setup "schema" schemaId))
  let mapping ← setup.getFromState mappingId
  if !mapping.truth then throw (invalid req (referencedMissing setup "mapping" mappingId))
  if !isText "sch" (← schema.get "rsType") then
    throw (invalid req "'schema' field must reference a schema with rsType=sch")
  if !isText "map" (← mapping.get "rsType") then
    throw (invalid req "'mapping' field must reference a mapping with rsType=map")

/-- `do_dynamic_validation_content` of the handlers. -/
def dynamicValidationContent (kind : RichKind) (op : RichSchemaOperation) : Except Raised Unit :=
  match kind with
  | .mapping => mappingDynamicValidation setup req op
  | .credDef =>
    match setup.loads op.content with
    | none => .error .valueError
    | some content => checkCredDef setup req content
  | _ => .ok ()

private theorem isText_found {rsType : String} {reference found : Document} {held : Option Document}
    (read : setup.getFromState reference = .ok found) (typed : found.get "rsType" = .ok held)
    (same : isText rsType held = true) : FoundAs setup rsType reference := by
  refine ⟨found,read,?_⟩
  rw [get_ok typed]
  simpa [isText] using same

private theorem checkCredDef_ok {content : Document} (passed : checkCredDef setup req content = .ok ()) :
    (∃ schemaId, content.field? "schema" = some schemaId ∧ FoundAs setup "sch" schemaId) ∧
      ∃ mappingId, content.field? "mapping" = some mappingId ∧ FoundAs setup "map" mappingId := by
  obtain ⟨schemaId,schemaHeld,passed⟩ := bind_success _ _ _ passed
  obtain ⟨mappingId,mappingHeld,passed⟩ := bind_success _ _ _ passed
  obtain ⟨schema,schemaRead,passed⟩ := bind_success _ _ _ passed
  split at passed
  · cases passed
  obtain ⟨mapping,mappingRead,passed⟩ := bind_success _ _ _ passed
  split at passed
  · cases passed
  obtain ⟨schemaType,schemaTyped,passed⟩ := bind_success _ _ _ passed
  split at passed
  · cases passed
  next schemaSame =>
    obtain ⟨mappingType,mappingTyped,passed⟩ := bind_success _ _ _ passed
    split at passed
    · cases passed
    next mappingSame =>
      exact ⟨⟨schemaId,subscript_ok schemaHeld,isText_found setup schemaRead schemaTyped (by simpa using schemaSame)⟩,
        mappingId,subscript_ok mappingHeld,isText_found setup mappingRead mappingTyped (by simpa using mappingSame)⟩

end Dynamic

section References

/-- The references in the content of an object: the type each has to lead to, and what stands
there. -/
def referencesIn (rsType : String) (content : Document) : List (String × Option Document) :=
  if rsType = "map" then
    let attributes := (content.field? "attributes").getD (.scalar .null)
    ("sch",content.field? "schema") ::
      (findEncodingDescDicts none attributes).map fun leaf => ("enc",leaf.1.field? "enc")
  else if rsType = "cdf" then [("sch",content.field? "schema"),("map",content.field? "mapping")]
  else []

variable (setup : MappingSetup) (req : Request)

/-- Where a content passes, all its references find objects of their types. -/
theorem references_found {kind : RichKind} {op : RichSchemaOperation}
    (passed : dynamicValidationContent setup req kind op = .ok ()) (expected : String × Option Document)
    (listed : expected ∈ referencesIn kind.rsType ((setup.loads op.content).getD (.scalar .null))) :
    ∃ reference, expected.2 = some reference ∧ FoundAs setup expected.1 reference := by
  cases kind with
  | mapping =>
    cases parsed : setup.loads op.content with
    | none => simp [dynamicValidationContent,mappingDynamicValidation,parsed] at passed
    | some content =>
      simp only [dynamicValidationContent,mappingDynamicValidation,parsed] at passed
      obtain ⟨schemaId,attributes,named,found,held,pairs,_⟩ := checkMapping_ok setup req passed
      simp only [referencesIn,RichKind.rsType,parsed,Option.getD_some,held,named,if_true,List.mem_cons,
        List.mem_map] at listed
      rcases listed with rfl | ⟨leaf,inside,rfl⟩
      · exact ⟨schemaId,rfl,found⟩
      · obtain ⟨enc,_,encHeld,_,encoded⟩ := pairs leaf inside
        exact ⟨enc,encHeld,encoded⟩
  | credDef =>
    cases parsed : setup.loads op.content with
    | none => simp [dynamicValidationContent,parsed] at passed
    | some content =>
      simp only [dynamicValidationContent,parsed] at passed
      obtain ⟨⟨schemaId,named,found⟩,mappingId,mapped,mapping⟩ := checkCredDef_ok setup req passed
      simp only [referencesIn,RichKind.rsType,parsed,Option.getD_some,named,mapped] at listed
      have cases : expected = ("sch",some schemaId) ∨ expected = ("map",some mappingId) := by simpa using listed
      rcases cases with rfl | rfl
      · exact ⟨schemaId,rfl,found⟩
      · exact ⟨mappingId,rfl,mapping⟩
  | context => simp [referencesIn,RichKind.rsType] at listed
  | schema => simp [referencesIn,RichKind.rsType] at listed
  | encoding => simp [referencesIn,RichKind.rsType] at listed
  | presDef => simp [referencesIn,RichKind.rsType] at listed

end References
end IndyNode.RichSchema

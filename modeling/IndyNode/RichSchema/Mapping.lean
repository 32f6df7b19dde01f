import IndyNode.Foundation.JsonTree
import IndyNode.Foundation.Loop
import IndyNode.RichSchema.Objects
import Mathlib.Data.List.Sort
import Mathlib.Data.Rat.Defs

/-! `RichSchemaMappingHandler`: the content of a mapping, a tree of attributes with pairs of
an encoding and a rank at its leaves, and what is asked of it. -/
namespace IndyNode.RichSchema
open Authorize

/-- Integers and finite floats are compared as the numbers they are. -/
inductive Number where
  | rational (value : ℚ)
  | infinite (negative : Bool)
  | nan
deriving DecidableEq, Repr

inductive Scalar where
  | null
  | bool (value : Bool)
  | number (value : Number)
  | text (value : String)
deriving DecidableEq, Repr

abbrev Document := JsonTree Scalar

def textOf (text : String) : Document := .scalar (.text text)

namespace Document

def truth : Document → Bool
  | .scalar .null => false
  | .scalar (.bool value) => value
  | .scalar (.number value) => value ≠ .rational 0
  | .scalar (.text value) => value ≠ ""
  | .list items => !items.isEmpty
  | .object fields => !fields.isEmpty

/-- `True` and `False` are numbers. -/
def number? : Document → Option Number
  | .scalar (.bool value) => some (.rational (if value then 1 else 0))
  | .scalar (.number value) => some value
  | _ => none

def text? : Document → Option String
  | .scalar (.text value) => some value
  | _ => none

/-- `document[key]`. -/
def subscript (key : String) : Document → Except Raised Document
  | .object fields =>
    match fields.lookup key with
    | none => .error .keyError
    | some value => .ok value
  | _ => .error .typeError

/-- `document.get(key)`. -/
def get (key : String) : Document → Except Raised (Option Document)
  | .object fields => .ok (fields.lookup key)
  | _ => .error .attributeError

end Document

def holdsTrue (value : Option Document) : Bool := (value.map Document.truth).getD false

/-- `value == text`. -/
def isText (text : String) (value : Option Document) : Bool := value.bind Document.text? = some text

/-- `not v and v != 0`. -/
def unset (value : Option Document) : Bool :=
  !holdsTrue value && value.bind Document.number? ≠ some (.rational 0)

/-- The JSON parser, which may raise a ValueError; the lookup in the domain state, which
gives null where nothing is stored; and `str.format`. -/
structure MappingSetup where
  enabled : Bool
  loads : String → Option Document
  getFromState : Document → Except Raised Document
  format : Document → String

section Traversal

/-- An object without objects and lists in it, and whatever is not an object. -/
def isLeafDict : Document → Bool
  | .object fields => fields.all fun field => field.2.isScalar
  | _ => true

mutual
def findEncodingDescDicts (lastAttr : Option String) : Document → List (Document × Option String)
  | .object fields => if isLeafDict (.object fields) then [(.object fields,lastAttr)] else findInFields fields
  | content => [(content,lastAttr)]

/-- The loop over `content.items()`. -/
def findInFields : List (String × Document) → List (Document × Option String)
  | [] => []
  | (key,.list items)::rest => findInItems key items ++ findInFields rest
  | (key,.scalar value)::rest => findEncodingDescDicts (some key) (.scalar value) ++ findInFields rest
  | (key,.object fields)::rest => findEncodingDescDicts (some key) (.object fields) ++ findInFields rest

def findInItems (key : String) : List Document → List (Document × Option String)
  | [] => []
  | item::rest => findEncodingDescDicts (some key) item ++ findInItems key rest
end

end Traversal

section Validation
variable (setup : MappingSetup) (req : Request)

def doStaticValidationJsonLd (op : RichSchemaOperation) (content : Document) : Except Raised Unit := do
  if !holdsTrue (← content.get "@id") then
    throw (invalid req "'content' must be a valid JSON-LD and have non-empty '@id' field")
  if !holdsTrue (← content.get "@type") then
    throw (invalid req "'content' must be a valid JSON-LD and have non-empty '@type' field")
  if !isText op.id (some (← content.subscript "@id")) then
    throw (invalid req ("content's @id must be equal to id=" ++ op.id))

def missingFields (holder : Document) (names : List String) : Except Raised (List String) :=
  names.filterM fun name => do return !holdsTrue (← holder.get name)

def quotedBy (separator : String) (names : List String) : String :=
  separator.intercalate (names.map fun name => "'" ++ name ++ "'")

def quoted : List String → String := quotedBy " and "

def doStaticValidationContent (content : Document) : Except Raised Unit := do
  let missing ← missingFields content ["schema","attributes"]
  if missing ≠ [] then throw (invalid req (quoted missing ++ " must be set in 'content'"))
  let attributes ← content.subscript "attributes"
  let missing ← missingFields attributes ["issuer","issuanceDate"]
  if missing ≠ [] then throw (invalid req (quoted missing ++ " must be in content's 'attributes'"))

def mappingStaticValidation (op : RichSchemaOperation) : Except Raised Unit :=
  if !setup.enabled then .error (invalid req "RichSchema transactions are disabled")
  else
    match setup.loads op.content with
    | none => .error (invalid req "'content' must be a JSON serialized string")
    | some content => do
      doStaticValidationJsonLd req op content
      doStaticValidationContent req content

/-- A reference finds an object of its type; the texts are those for an object that is
missing and for one of another type. -/
def checkReference (rsType absent other : String) (reference : Document) : Except Raised Unit := do
  let found ← setup.getFromState reference
  if !found.truth then throw (invalid req absent)
  if !isText rsType (← found.get "rsType") then throw (invalid req other)

def checkSchema (schemaId : Document) : Except Raised Unit :=
  checkReference setup req "sch" ("Can not find a schema with id=" ++ setup.format schemaId ++
      "; please make sure that it has been added to the ledger")
    "'schema' field must reference a schema with rsType=sch" schemaId

def attrText (attr : Option String) : String := attr.getD "None"

/-- Every leaf has an encoding and a rank. -/
def checkPair (leaf : Document × Option String) : Except Raised Unit :=
  match leaf.1 with
  | .object fields =>
    let missing := ["enc","rank"].filter fun name => unset (fields.lookup name)
    if missing ≠ [] then .error (invalid req (" and ".intercalate missing ++
      " must be set for the attribute '" ++ attrText leaf.2 ++ "'"))
    else .ok ()
  | _ => .error (invalid req ("enc and rank must be set for the attribute '" ++ attrText leaf.2 ++ "'"))

/-- `first < second`; no comparison with `nan` holds. -/
def less (first second : Document) : Bool :=
  match first.number?, second.number? with
  | some (.rational left), some (.rational right) => left < right
  | some (.infinite negative), some (.rational _) => negative
  | some (.rational _), some (.infinite negative) => !negative
  | some (.infinite left), some (.infinite right) => left && !right
  | some _, some _ => false
  | _, _ =>
    match first.text?, second.text? with
    | some left, some right => left < right
    | _, _ => false

/-- `sorted`: a number and a text cannot be compared. Ranks of other kinds do not come here.
The order of a list with `nan` in it depends on the algorithm; it never passes. -/
def sortedRanks (ranks : List Document) : Except Raised (List Document) :=
  if ranks.length ≤ 1 ∨ ranks.all (fun rank => rank.number?.isSome) ∨
      ranks.all (fun rank => rank.text?.isSome) then
    .ok (ranks.insertionSort fun first second => less second first = false)
  else .error .typeError

def expectedRanks (count : Nat) : List (Option Number) :=
  (List.range' 1 count).map fun rank : Nat => some (.rational rank)

def checkRanks (leaves : List (Document × Option String)) : Except Raised Unit := do
  let ranks ← leaves.mapM fun leaf => leaf.1.subscript "rank"
  let ranks ← sortedRanks ranks
  if ranks.map Document.number? ≠ expectedRanks leaves.length then
    throw (invalid req ("the attribute's ranks are not sequential: expected ranks are all values from 1 to " ++
      toString leaves.length))

def checkEncoding (leaf : Document × Option String) : Except Raised Unit := do
  let encodingId ← leaf.1.subscript "enc"
  checkReference setup req "enc" ("Can not find a referenced 'enc' with id=" ++ setup.format encodingId ++
      " in the '" ++ attrText leaf.2 ++ "' attribute; please make sure that it has been added to the ledger")
    ("'enc' field in the '" ++ attrText leaf.2 ++ "' attribute must reference an encoding with rsType=enc")
    encodingId

def checkMapping (content : Document) : Except Raised Unit := do
  checkSchema setup req (← content.subscript "schema")
  let leaves := findEncodingDescDicts none (← content.subscript "attributes")
  leaves.forM (checkPair req)
  checkRanks req leaves
  leaves.forM (checkEncoding setup req)

/-- The static validation of the handler precedes it, and has parsed the content before. -/
def mappingDynamicValidation (op : RichSchemaOperation) : Except Raised Unit :=
  match setup.loads op.content with
  | none => .error .valueError
  | some content => checkMapping setup req content

end Validation

section Leaves

/-- Where a value stands in an object: the place of its field, and its place in the list if
the field is one. -/
abbrev Step := Nat × Option Nat

def spread (index : Nat) : String × Document → List (Step × String × Document)
  | (key,.list items) => items.zipIdx.map fun entry => ((index,some entry.2),key,entry.1)
  | (key,value) => [((index,none),key,value)]

def childrenFrom (start : Nat) (fields : List (String × Document)) : List (Step × String × Document) :=
  (fields.zipIdx start).flatMap fun entry => spread entry.2 entry.1

/-- The values of an object, those of a list one by one. -/
abbrev children : List (String × Document) → List (Step × String × Document) := childrenFrom 0

/-- An object or a list stands in the object. -/
def Nested (fields : List (String × Document)) : Prop :=
  ∃ entry ∈ fields, (∃ inner, entry.2 = .object inner) ∨ ∃ items, entry.2 = .list items

/-- A leaf of the tree and its position: whatever is no object, and an object without objects
and lists in it. -/
inductive LeafAt : Document → List Step → Document → Prop where
  | value (tree : Document) (other : ∀ fields, tree ≠ .object fields) : LeafAt tree [] tree
  | flat (fields : List (String × Document)) (plain : ¬Nested fields) : LeafAt (.object fields) [] (.object fields)
  | inside (fields : List (String × Document)) (nested : Nested fields) (step : Step)
      (key : String) (child leaf : Document) (position : List Step)
      (listed : (step,key,child) ∈ children fields) (deeper : LeafAt child position leaf) :
      LeafAt (.object fields) (step :: position) leaf

/-- The code's test for a leaf. -/
theorem isLeafDict_object (fields : List (String × Document)) :
    isLeafDict (.object fields) = true ↔ ¬Nested fields := by
  rw [isLeafDict,List.all_eq_true,Nested]
  constructor
  · rintro scalars ⟨entry,member,⟨inner,same⟩ | ⟨items,same⟩⟩
    · simpa [same,JsonTree.isScalar] using scalars entry member
    · simpa [same,JsonTree.isScalar] using scalars entry member
  · intro plain entry member
    cases value : entry.2 with
    | scalar value => rfl
    | object inner => exact absurd ⟨entry,member,.inl ⟨inner,value⟩⟩ plain
    | list items => exact absurd ⟨entry,member,.inr ⟨items,value⟩⟩ plain

theorem isLeafDict_nested (fields : List (String × Document)) :
    isLeafDict (.object fields) = false ↔ Nested fields := by
  rw [← Bool.not_eq_true,isLeafDict_object,not_not]

theorem LeafAt.here (tree : Document) (leaf : isLeafDict tree = true) : LeafAt tree [] tree := by
  cases tree with
  | object fields => exact .flat fields ((isLeafDict_object fields).mp leaf)
  | scalar value => exact .value _ (by simp)
  | list items => exact .value _ (by simp)

/-- The list holds each leaf of the tree once. -/
structure Enumerates (tree : Document) (located : List (List Step × Document)) : Prop where
  nodup : (located.map Prod.fst).Nodup
  complete : ∀ position leaf, (position,leaf) ∈ located ↔ LeafAt tree position leaf

private theorem childrenFrom_cons (start : Nat) (field : String × Document) (fields : List (String × Document)) :
    childrenFrom start (field :: fields) = spread start field ++ childrenFrom (start + 1) fields := rfl

private theorem spread_index (index : Nat) (field : String × Document) (child : Step × String × Document)
    (listed : child ∈ spread index field) : child.1.1 = index := by
  obtain ⟨key,value⟩ := field
  cases value with
  | list items =>
    obtain ⟨entry,_,rfl⟩ := List.mem_map.mp listed
    rfl
  | scalar value => rw [List.mem_singleton.mp listed]
  | object fields => rw [List.mem_singleton.mp listed]

private theorem spread_nodup (index : Nat) (field : String × Document) :
    ((spread index field).map Prod.fst).Nodup := by
  obtain ⟨key,value⟩ := field
  cases value with
  | list items =>
    have labels : (spread index (key,.list items)).map Prod.fst =
        (items.zipIdx.map Prod.snd).map fun place => (index,some place) := by
      rw [spread,List.map_map,List.map_map]
      rfl
    rw [labels,List.zipIdx_map_snd]
    refine List.Nodup.map ?_ List.nodup_range'
    intro first second same
    simpa using same
  | scalar value => exact List.nodup_singleton _
  | object fields => exact List.nodup_singleton _

private theorem childrenFrom_index (start : Nat) (fields : List (String × Document)) (child : Step × String × Document)
    (listed : child ∈ childrenFrom start fields) : start ≤ child.1.1 := by
  obtain ⟨⟨field,index⟩,member,inside⟩ := List.mem_flatMap.mp listed
  rw [spread_index index field child inside]
  exact (List.mem_zipIdx member).1

private theorem childrenFrom_nodup (start : Nat) (fields : List (String × Document)) :
    ((childrenFrom start fields).map Prod.fst).Nodup := by
  induction fields generalizing start with
  | nil => exact List.nodup_nil
  | cons field fields ih =>
    rw [childrenFrom_cons,List.map_append,List.nodup_append']
    refine ⟨spread_nodup start field,ih (start + 1),?_⟩
    intro step first later
    obtain ⟨child,inside,rfl⟩ := List.mem_map.mp first
    obtain ⟨other,beyond,same⟩ := List.mem_map.mp later
    have here := spread_index start field child inside
    have there := childrenFrom_index (start + 1) fields other beyond
    rw [same,here] at there
    omega

private theorem findInItems_eq (key : String) (items : List Document) :
    findInItems key items = items.flatMap (findEncodingDescDicts (some key)) := by
  induction items with
  | nil => rw [findInItems,List.flatMap_nil]
  | cons item items ih => rw [findInItems,ih,List.flatMap_cons]

private theorem findInFields_eq (start : Nat) (fields : List (String × Document)) : findInFields fields =
    (childrenFrom start fields).flatMap fun child => findEncodingDescDicts (some child.2.1) child.2.2 := by
  induction fields generalizing start with
  | nil =>
    rw [findInFields]
    rfl
  | cons field fields ih =>
    obtain ⟨key,value⟩ := field
    rw [childrenFrom_cons,List.flatMap_append,← ih]
    cases value with
    | list items =>
      have values : items = items.zipIdx.map Prod.fst := by simp
      rw [findInFields,findInItems_eq,spread,List.flatMap_map]
      conv_lhs => rw [values,List.flatMap_map]
    | scalar value => simp [findInFields,spread]
    | object inner => simp [findInFields,spread]

private theorem child_part {start : Nat} {fields : List (String × Document)} {child : Step × String × Document}
    (listed : child ∈ childrenFrom start fields) : ∃ entry ∈ fields, child.2.2 = entry.2 ∨
      ∃ items, entry.2 = .list items ∧ child.2.2 ∈ items := by
  obtain ⟨⟨⟨key,value⟩,index⟩,member,inside⟩ := List.mem_flatMap.mp listed
  refine ⟨(key,value),List.fst_mem_of_mem_zipIdx member,?_⟩
  cases value with
  | list items =>
    obtain ⟨⟨item,place⟩,found,rfl⟩ := List.mem_map.mp inside
    exact .inr ⟨items,rfl,List.fst_mem_of_mem_zipIdx found⟩
  | scalar value =>
    rw [List.mem_singleton.mp inside]
    exact .inl rfl
  | object fields =>
    rw [List.mem_singleton.mp inside]
    exact .inl rfl

/-- Induction along the steps of positions. -/
theorem Document.induct {motive : Document → Prop} (leaf : ∀ tree, isLeafDict tree = true → motive tree)
    (inner : ∀ fields, isLeafDict (.object fields) = false →
      (∀ child ∈ children fields, motive child.2.2) → motive (.object fields))
    (tree : Document) : motive tree := by
  induction tree using JsonTree.induct with
  | scalar value => exact leaf _ rfl
  | list items each => exact leaf _ rfl
  | object fields each =>
    cases shape : isLeafDict (.object fields) with
    | true => exact leaf _ shape
    | false =>
      refine inner fields shape fun child listed => ?_
      obtain ⟨entry,member,same | ⟨items,list,inside⟩⟩ := child_part listed
      · rw [same]
        exact (each entry member).1
      · exact (each entry member).2 items list _ inside

private theorem find_leaf (tree : Document) (leaf : isLeafDict tree = true) (lastAttr : Option String) :
    findEncodingDescDicts lastAttr tree = [(tree,lastAttr)] := by
  cases tree with
  | object fields => rw [findEncodingDescDicts,if_pos leaf]
  | scalar value => rw [findEncodingDescDicts]; simp
  | list items => rw [findEncodingDescDicts]; simp

private theorem find_inner (fields : List (String × Document)) (inner : isLeafDict (.object fields) = false)
    (lastAttr : Option String) : findEncodingDescDicts lastAttr (.object fields) =
      (children fields).flatMap fun child => findEncodingDescDicts (some child.2.1) child.2.2 := by
  rw [findEncodingDescDicts,if_neg (by simp [inner]),findInFields_eq 0]

/-- The generator yields every leaf, and none twice. -/
theorem leaves_located (tree : Document) : ∃ located, Enumerates tree located ∧
    ∀ lastAttr, located.map Prod.snd = (findEncodingDescDicts lastAttr tree).map Prod.fst := by
  induction tree using Document.induct with
  | leaf tree leaf =>
    refine ⟨[([],tree)],⟨List.nodup_singleton _,?_⟩,fun lastAttr => by simp [find_leaf tree leaf]⟩
    intro position found
    rw [List.mem_singleton,Prod.mk.injEq]
    constructor
    · rintro ⟨rfl,rfl⟩
      exact .here _ leaf
    · intro located
      cases located with
      | value => exact ⟨rfl,rfl⟩
      | flat => exact ⟨rfl,rfl⟩
      | inside fields nested => exact absurd nested ((isLeafDict_object fields).mp leaf)
  | inner fields inner each =>
    choose! located found values using each
    -- The children carry their keys, which positions do not mention.
    let parts := (children fields).map fun child => (child.1,child)
    refine ⟨below parts located,⟨?_,?_⟩,?_⟩
    · refine below_nodup parts located ?_ ?_
      · simpa [parts,Function.comp_def] using childrenFrom_nodup 0 fields
      · intro part listed
        obtain ⟨child,member,rfl⟩ := List.mem_map.mp listed
        exact (found child member).nodup
    · intro position leaf
      rw [mem_below]
      constructor
      · rintro ⟨step,child,rest,listed,rfl,inside⟩
        obtain ⟨child,member,same⟩ := List.mem_map.mp listed
        obtain ⟨rfl,rfl⟩ := Prod.mk.inj same
        exact .inside fields ((isLeafDict_nested fields).mp inner) child.1 child.2.1 child.2.2 leaf rest member
          (((found child member).complete rest leaf).mp inside)
      · intro leafAt
        cases leafAt with
        | value _ other => exact absurd rfl (other fields)
        | flat _ plain => exact absurd ((isLeafDict_nested fields).mp inner) plain
        | inside _ _ step key child _ rest listed deeper =>
          exact ⟨step,(step,key,child),rest,List.mem_map_of_mem listed,rfl,
            ((found (step,key,child) listed).complete rest leaf).mpr deeper⟩
    · intro lastAttr
      rw [below_values,find_inner fields inner,List.map_flatMap]
      simp only [parts,List.flatMap_map]
      refine List.flatMap_congr fun child member => ?_
      exact values child member (some child.2.1)

end Leaves

section Accepted
variable (setup : MappingSetup) (req : Request)

/-- The reference finds an object of the type in the state. -/
def FoundAs (rsType : String) (reference : Document) : Prop :=
  ∃ found, setup.getFromState reference = .ok found ∧ (found.field? "rsType").bind Document.text? = some rsType

/-- An encoding and a rank are set. -/
def Paired (leaf : Document) : Prop :=
  unset (leaf.field? "enc") = false ∧ unset (leaf.field? "rank") = false

private theorem unset_none : unset none = true := rfl

theorem subscript_ok {key : String} {holder value : Document} (read : holder.subscript key = .ok value) :
    holder.field? key = some value := by
  cases holder with
  | object fields =>
    rw [Document.subscript] at read
    rw [JsonTree.field?]
    split at read <;> simp_all
  | scalar _ => cases read
  | list _ => cases read

theorem subscript_of_field {key : String} {holder value : Document} (held : holder.field? key = some value) :
    holder.subscript key = .ok value := by
  cases holder with
  | object fields =>
    rw [JsonTree.field?] at held
    rw [Document.subscript,held]
  | scalar _ => cases held
  | list _ => cases held

private theorem get_of_field {key : String} {holder value : Document} (held : holder.field? key = some value) :
    holder.get key = .ok (some value) := by
  cases holder with
  | object fields => exact congrArg Except.ok held
  | scalar _ => cases held
  | list _ => cases held

theorem get_ok {key : String} {holder : Document} {value : Option Document} (read : holder.get key = .ok value) :
    holder.field? key = value := by
  cases holder with
  | object fields => exact Except.ok.inj read
  | scalar _ => cases read
  | list _ => cases read

theorem truth_of_field {holder value : Document} {key : String} (held : holder.field? key = some value) :
    holder.truth = true := by
  cases holder with
  | object fields =>
    cases fields with
    | nil => cases held
    | cons first rest => rfl
  | scalar _ => cases held
  | list _ => cases held

theorem checkReference_ok_iff (rsType absent other : String) (reference : Document) :
    checkReference setup req rsType absent other reference = .ok () ↔ FoundAs setup rsType reference := by
  constructor
  · intro passed
    obtain ⟨found,read,passed⟩ := bind_success _ _ _ passed
    split at passed
    · cases passed
    · obtain ⟨held,typed,passed⟩ := bind_success _ _ _ passed
      refine ⟨found,read,?_⟩
      rw [get_ok typed]
      by_contra differs
      simp [isText,differs] at passed
  · rintro ⟨found,read,typed⟩
    obtain ⟨value,held,text⟩ := Option.bind_eq_some_iff.mp typed
    simp [checkReference,read,truth_of_field held,get_of_field held,isText,text]
    rfl

theorem ranks_read {leaves : List (Document × Option String)} {ranks : List Document}
    (read : (leaves.mapM fun leaf => leaf.1.subscript "rank") = .ok ranks) :
    (leaves.map fun leaf => leaf.1.field? "rank") = ranks.map some := by
  rw [mapM_ok_iff] at read
  rw [← List.forall₂_eq_eq_eq,List.forall₂_map_left_iff,List.forall₂_map_right_iff]
  exact read.imp fun leaf rank here => subscript_ok here

theorem ranks_as {α : Type} (kind : Document → Option α) {leaves : List (Document × Option String)}
    {ranks : List Document} (read : (leaves.mapM fun leaf => leaf.1.subscript "rank") = .ok ranks) :
    (leaves.map fun leaf => (leaf.1.field? "rank").bind kind) = ranks.map kind := by
  have mapped := congrArg (List.map fun rank => Option.bind rank kind) (ranks_read read)
  rw [List.map_map,List.map_map] at mapped
  exact mapped

private theorem checkRanks_ok {leaves : List (Document × Option String)} (passed : checkRanks req leaves = .ok ()) :
    (leaves.map fun leaf => (leaf.1.field? "rank").bind Document.number?).Perm (expectedRanks leaves.length) := by
  obtain ⟨ranks,read,passed⟩ := bind_success _ _ _ passed
  obtain ⟨sorted,sorting,passed⟩ := bind_success _ _ _ passed
  have shuffled : sorted.Perm ranks := by
    rw [sortedRanks] at sorting
    split at sorting
    · rw [← Except.ok.inj sorting]
      apply List.perm_insertionSort
    · cases sorting
  have sequential : sorted.map Document.number? = expectedRanks leaves.length := by
    by_contra gaps
    simp [gaps] at passed
  rw [ranks_as Document.number? read,← sequential]
  exact (shuffled.map Document.number?).symm

theorem ranks_held {leaves : List (Document × Option String)}
    (held : ∀ leaf ∈ leaves, ∃ rank, leaf.1.field? "rank" = some rank) :
    ∃ ranks, (leaves.mapM fun leaf => leaf.1.subscript "rank") = .ok ranks := by
  induction leaves with
  | nil => exact ⟨[],rfl⟩
  | cons leaf leaves ih =>
    obtain ⟨⟨rank,here⟩,later⟩ := List.forall_mem_cons.mp held
    obtain ⟨ranks,read⟩ := ih later
    rw [List.mapM_cons,read,subscript_of_field here]
    exact ⟨rank :: ranks,rfl⟩

def finiteValue : Option Number → ℚ
  | some (.rational value) => value
  | _ => 0

abbrev rankValue (rank : Document) : ℚ := finiteValue rank.number?

private theorem sorted_numbers {ranks : List Document} {count : Nat}
    (shuffled : (ranks.map Document.number?).Perm (expectedRanks count)) :
    (ranks.insertionSort fun first second => less second first = false).map Document.number? =
      expectedRanks count := by
  have known : ∀ rank ∈ ranks, rank.number? = some (.rational (rankValue rank)) := by
    intro rank listed
    obtain ⟨value,_,same⟩ := List.mem_map.mp (shuffled.mem_iff.mp (List.mem_map_of_mem listed))
    rw [rankValue,← same]
    rfl
  have wrapped : expectedRanks count =
      ((List.range' 1 count).map fun rank : Nat => (rank : ℚ)).map fun value => some (.rational value) := by
    rw [expectedRanks,List.map_map]
    rfl
  have values : (ranks.map rankValue).Perm ((List.range' 1 count).map fun rank : Nat => (rank : ℚ)) := by
    have mapped := shuffled.map finiteValue
    rw [expectedRanks,List.map_map,List.map_map] at mapped
    exact mapped
  -- On these ranks the comparison is that of their values.
  have ordered : (ranks.insertionSort fun first second => less second first = false).map rankValue =
      (ranks.map rankValue).insertionSort (· ≤ ·) := by
    refine List.map_insertionSort _ _ rankValue ranks fun first inside second listed => ?_
    simp only [less,known first inside,known second listed,decide_eq_false_iff_not,Rat.not_lt]
  have sorted : (ranks.map rankValue).insertionSort (· ≤ ·) = (List.range' 1 count).map fun rank : Nat => (rank : ℚ) := by
    refine List.Perm.eq_of_pairwise' (List.pairwise_insertionSort (· ≤ ·) _) ?_
      ((List.perm_insertionSort _ _).trans values)
    rw [List.pairwise_map]
    exact (List.pairwise_lt_range' 1).imp fun smaller => by exact_mod_cast smaller.le
  rw [wrapped,← sorted,← ordered,List.map_map]
  refine List.map_congr_left fun rank listed => ?_
  exact known rank ((List.perm_insertionSort _ _).mem_iff.mp listed)

theorem checkRanks_ok_iff (leaves : List (Document × Option String)) : checkRanks req leaves = .ok () ↔
    (leaves.map fun leaf => (leaf.1.field? "rank").bind Document.number?).Perm (expectedRanks leaves.length) := by
  refine ⟨checkRanks_ok req,fun shuffled => ?_⟩
  have held : ∀ leaf ∈ leaves, ∃ rank, leaf.1.field? "rank" = some rank := by
    intro leaf listed
    obtain ⟨value,_,same⟩ := List.mem_map.mp (shuffled.mem_iff.mp (List.mem_map_of_mem listed))
    obtain ⟨rank,there,_⟩ := Option.bind_eq_some_iff.mp same.symm
    exact ⟨rank,there⟩
  obtain ⟨ranks,read⟩ := ranks_held held
  rw [ranks_as Document.number? read] at shuffled
  have numbers : ranks.all (fun rank => rank.number?.isSome) = true := by
    refine List.all_eq_true.mpr fun rank listed => ?_
    obtain ⟨value,_,same⟩ := List.mem_map.mp (shuffled.mem_iff.mp (List.mem_map_of_mem listed))
    rw [← same]
    rfl
  rw [checkRanks,read,ok_bind,sortedRanks,if_pos (.inr (.inl numbers)),ok_bind,sorted_numbers shuffled]
  simp only [ne_eq,not_true,if_false]
  rfl

theorem checkPair_ok_iff (leaf : Document × Option String) : checkPair req leaf = .ok () ↔ Paired leaf.1 := by
  obtain ⟨leaf,attr⟩ := leaf
  cases leaf with
  | scalar _ => exact iff_of_false (by simp [checkPair]) (by simp [Paired,JsonTree.field?,unset_none])
  | list _ => exact iff_of_false (by simp [checkPair]) (by simp [Paired,JsonTree.field?,unset_none])
  | object fields =>
    cases enc : unset (fields.lookup "enc") <;> cases rank : unset (fields.lookup "rank") <;>
      simp [checkPair,Paired,JsonTree.field?,enc,rank]

theorem paired_held {leaf : Document} (paired : Paired leaf) :
    ∃ enc rank, leaf.field? "enc" = some enc ∧ leaf.field? "rank" = some rank := by
  have there : ∀ name, unset (leaf.field? name) = false → ∃ value, leaf.field? name = some value := by
    refine fun name isSet => Option.ne_none_iff_exists'.mp fun absent => ?_
    rw [absent,unset_none] at isSet
    cases isSet
  obtain ⟨enc,first⟩ := there "enc" paired.1
  obtain ⟨rank,second⟩ := there "rank" paired.2
  exact ⟨enc,rank,first,second⟩

theorem checkMapping_ok {content : Document} (passed : checkMapping setup req content = .ok ()) :
    ∃ schemaId attributes, content.field? "schema" = some schemaId ∧ FoundAs setup "sch" schemaId ∧
      content.field? "attributes" = some attributes ∧
      (∀ leaf ∈ findEncodingDescDicts none attributes, ∃ enc rank, leaf.1.field? "enc" = some enc ∧
        leaf.1.field? "rank" = some rank ∧ FoundAs setup "enc" enc) ∧
      ((findEncodingDescDicts none attributes).map fun leaf => (leaf.1.field? "rank").bind Document.number?).Perm
        (expectedRanks (findEncodingDescDicts none attributes).length) := by
  obtain ⟨schemaId,schemaHeld,passed⟩ := bind_success _ _ _ passed
  obtain ⟨_,schemaFound,passed⟩ := bind_success _ _ _ passed
  obtain ⟨attributes,held,passed⟩ := bind_success _ _ _ passed
  obtain ⟨_,pairs,passed⟩ := bind_success _ _ _ passed
  obtain ⟨_,ranks,encodings⟩ := bind_success _ _ _ passed
  rw [forM_ok_iff] at pairs encodings
  refine ⟨schemaId,attributes,subscript_ok schemaHeld,(checkReference_ok_iff setup req _ _ _ _).mp schemaFound,
    subscript_ok held,fun leaf listed => ?_,checkRanks_ok req ranks⟩
  obtain ⟨enc,rank,encHeld,rankHeld⟩ := paired_held ((checkPair_ok_iff req leaf).mp (pairs leaf listed))
  obtain ⟨encodingId,read,found⟩ := bind_success _ _ _ (encodings leaf listed)
  obtain rfl : encodingId = enc := Option.some.inj ((subscript_ok read).symm.trans encHeld)
  exact ⟨encodingId,rank,encHeld,rankHeld,(checkReference_ok_iff setup req _ _ _ _).mp found⟩

/-- A mapping passes only with an object of an encoding and a rank at each leaf, the ranks
from one on used once each, and with references to objects of their types. -/
theorem mapping_accepted (op : RichSchemaOperation) (content attributes : Document)
    (parsed : setup.loads op.content = some content) (held : content.field? "attributes" = some attributes)
    (accepted : mappingDynamicValidation setup req op = .ok ()) :
    (∃ schemaId, content.field? "schema" = some schemaId ∧ FoundAs setup "sch" schemaId) ∧
    ∃ located, Enumerates attributes located ∧
      (∀ found ∈ located, ∃ enc rank, found.2.field? "enc" = some enc ∧ found.2.field? "rank" = some rank ∧
        FoundAs setup "enc" enc) ∧
      (located.map fun found => (found.2.field? "rank").bind Document.number?).Perm
        (expectedRanks located.length) := by
  simp only [mappingDynamicValidation,parsed] at accepted
  obtain ⟨schemaId,tree,named,schemaFound,treeHeld,pairs,ranks⟩ := checkMapping_ok setup req accepted
  obtain rfl : tree = attributes := Option.some.inj (treeHeld.symm.trans held)
  obtain ⟨located,enumerates,values⟩ := leaves_located tree
  have values := values none
  refine ⟨⟨schemaId,named,schemaFound⟩,located,enumerates,?_,?_⟩
  · intro found listed
    have yielded : found.2 ∈ (findEncodingDescDicts none tree).map Prod.fst := by
      rw [← values]
      exact List.mem_map_of_mem listed
    obtain ⟨leaf,inside,same⟩ := List.mem_map.mp yielded
    rw [← same]
    exact pairs leaf inside
  · have count : located.length = (findEncodingDescDicts none tree).length := by
      simpa using congrArg List.length values
    have same : (located.map fun found => (found.2.field? "rank").bind Document.number?) =
        (findEncodingDescDicts none tree).map fun leaf => (leaf.1.field? "rank").bind Document.number? := by
      have mapped := congrArg (List.map fun leaf => (JsonTree.field? "rank" leaf).bind Document.number?) values
      rw [List.map_map,List.map_map] at mapped
      exact mapped
    rw [same,count]
    exact ranks

def pairOf (rank : Nat) : Document :=
  .object [("enc",textOf "enc1"),("rank",.scalar (.number (.rational rank)))]

def contentOf (attributes : Document) : Document :=
  .object [("@id",textOf "map1"),("@type",textOf "rdfs:Class"),("schema",textOf "sch1"),("attributes",attributes)]

/-- A parser that reads the given content, and a state with a schema and an encoding. -/
def parsing (content : Document) : MappingSetup where
  enabled := true
  loads := fun _ => some content
  getFromState := fun reference =>
    if reference.text? = some "sch1" then .ok (.object [("rsType",textOf "sch")])
    else if reference.text? = some "enc1" then .ok (.object [("rsType",textOf "enc")])
    else .ok (.scalar .null)
  format := fun _ => ""

def mappingOperation : RichSchemaOperation := ⟨⟨"map","mapping","1.0"⟩,"map1",""⟩

def mappingRequest : Request where
  identifier := none
  reqId := 1
  signature := none
  signatures := []
  endorser := none
  distinct := List.nodup_nil
  identified := by simp [truthy]

/-- The default attributes, and one with a list under a nested object. -/
def nestedAttributes : Document :=
  .object [("issuer",pairOf 3),("issuanceDate",pairOf 1),("degree",.object [("grades",.list [pairOf 4,pairOf 2])])]

theorem nested_mapping_accepted :
    mappingDynamicValidation (parsing (contentOf nestedAttributes)) mappingRequest mappingOperation = .ok () ∧
    ∃ located, Enumerates nestedAttributes located ∧
      (located.map fun found => (found.2.field? "rank").bind Document.number?).Perm
        (expectedRanks located.length) := by
  have accepted : mappingDynamicValidation (parsing (contentOf nestedAttributes)) mappingRequest
      mappingOperation = .ok () := by rfl
  obtain ⟨_,located,enumerates,_,ranks⟩ := mapping_accepted _ _ _ (contentOf nestedAttributes) nestedAttributes
    rfl rfl accepted
  exact ⟨accepted,located,enumerates,ranks⟩

end Accepted
end IndyNode.RichSchema

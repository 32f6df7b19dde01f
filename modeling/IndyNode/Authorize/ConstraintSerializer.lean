import IndyNode.Authorize.ConstraintPrint
import IndyNode.Authorize.Decisions

/-! `ConstraintsSerializer`: constraints written as text and read again. The text restores the
values of a document, not the order of its fields, so metadata may read differently. -/
namespace IndyNode.Authorize
open Exec

/-- All that decides about requests. -/
def AuthConstraint.bare (constraint : AuthConstraint) : AuthConstraint := {constraint with metadata := []}

section Same
variable {shown : PyJson → String} {fields others : List (String × PyJson)}

private theorem same_scalars (each : ∀ key, Option.Rel JsonTree.Same (fields.lookup key) (others.lookup key))
    {key : String} {held : Option PyScalar} (listed : fields.lookup key = held.map .scalar) :
    others.lookup key = held.map .scalar := by
  have related := each key
  rw [listed] at related
  generalize others.lookup key = found at related
  cases held with
  | none =>
    cases related
    rfl
  | some value =>
    cases related with
    | some here =>
      cases here
      rfl

private theorem same_scalar (each : ∀ key, Option.Rel JsonTree.Same (fields.lookup key) (others.lookup key))
    {key : String} {value : PyScalar} (listed : fields.lookup key = some (.scalar value)) :
    others.lookup key = some (.scalar value) :=
  @same_scalars _ _ each key (some value) listed

private theorem same_object (each : ∀ key, Option.Rel JsonTree.Same (fields.lookup key) (others.lookup key))
    {key : String} {held : Option (List (String × PyJson))} (listed : fields.lookup key = held.map .object) :
    ∃ again : Option (List (String × PyJson)), others.lookup key = again.map .object := by
  have related := each key
  rw [listed] at related
  generalize others.lookup key = found at related
  cases held with
  | none =>
    cases related
    exact ⟨none,rfl⟩
  | some value =>
    cases related with
    | some here =>
      cases here with
      | @object _ entries _ => exact ⟨some entries,rfl⟩

private theorem RoleDocument.same (each : ∀ key, Option.Rel JsonTree.Same (fields.lookup key) (others.lookup key))
    {role : Option String} {sigCount : Nat} {needToBeOwner off : Option Bool}
    {metadata : Option (List (String × String))}
    (document : RoleDocument shown fields role sigCount needToBeOwner off metadata) :
    ∃ again, RoleDocument shown others role sigCount needToBeOwner off again := by
  obtain ⟨count,countListed,counts⟩ := document.sigCount
  obtain ⟨held,heldListed,_⟩ := document.metadata
  obtain ⟨again,againListed⟩ := same_object each heldListed
  exact ⟨again.map fun entries => entries.map fun entry => (entry.1,shown entry.2),{
    constraintId := same_scalar each document.constraintId
    role := same_scalar each document.role
    sigCount := ⟨count,same_scalar each countListed,counts⟩
    needToBeOwner := same_scalars each document.needToBeOwner
    offLedgerSignature := same_scalars each document.offLedgerSignature
    metadata := ⟨again,againListed,rfl⟩ }⟩

private theorem ListDocument.same (each : ∀ key, Option.Rel JsonTree.Same (fields.lookup key) (others.lookup key))
    {connective : Connective} {items : List PyJson} (document : ListDocument connective fields items) :
    ∃ again, ListDocument connective others again ∧ List.Forall₂ JsonTree.Same items again := by
  have related := each "auth_constraints"
  rw [document.authConstraints] at related
  generalize found : others.lookup "auth_constraints" = list at related
  cases related with
  | some here =>
  cases here with
  | @list _ again same =>
  refine ⟨again,⟨same_scalar each document.constraintId,found,fun entry listed => ?_⟩,same⟩
  have present : (fields.lookup entry.1).isSome := by
    have there : (others.lookup entry.1).isSome := List.lookup_isSome_iff.mpr ⟨entry,listed,beq_self_eq_true _⟩
    have related := each entry.1
    generalize others.lookup entry.1 = found at there related
    generalize fields.lookup entry.1 = sought at related
    cases related with
    | some _ => rfl
    | none => exact there
  obtain ⟨field,held,same⟩ := List.lookup_isSome_iff.mp present
  rw [beq_iff_eq.mp same]
  exact document.strict field held

private theorem fromDict_metadata {role : Option String} {sigCount : Nat} {needToBeOwner off : Option Bool}
    {metadata : Option (List (String × String))} {constraint : AuthConstraint}
    (made : AuthConstraint.fromDict role sigCount needToBeOwner off metadata = .ok constraint)
    (again : Option (List (String × String))) : ∃ other,
      AuthConstraint.fromDict role sigCount needToBeOwner off again = .ok other ∧ other.bare = constraint.bare := by
  rw [AuthConstraint.fromDict] at made ⊢
  cases accepted : acceptedRole role with
  | none => simp [accepted] at made
  | some spec =>
    simp only [accepted] at made ⊢
    split at made
    next => cases made
    next fine =>
      cases made
      rw [dif_neg fine]
      exact ⟨_,rfl,rfl⟩

private theorem createConstraint_ok_list {connective : Connective} {parts : List ConstraintDict} {tree : Constraint} :
    createConstraint (connective.dict parts) = .ok tree ↔
      ∃ trees, createConstraints parts = .ok trees ∧ connective.tree trees = tree := by
  rw [create_list]
  cases createConstraints parts <;> simp

/-- The document is a dictionary again, and makes the same tree but for the metadata. -/
def Restores (shown : PyJson → String) (dict : ConstraintDict) : Prop :=
  ∀ document other tree, Dictionary shown document dict → JsonTree.Same document other →
    createConstraint dict = .ok tree → ∃ again restored, Dictionary shown other again ∧
      createConstraint again = .ok restored ∧ restored.map AuthConstraint.bare = tree.map AuthConstraint.bare

private theorem restores_parts {parts : List ConstraintDict} (each : ∀ part ∈ parts, Restores shown part)
    {items others : List PyJson} (documents : List.Forall₂ (Dictionary shown) items parts)
    (same : List.Forall₂ JsonTree.Same items others) {trees : List Constraint}
    (created : createConstraints parts = .ok trees) : ∃ again restored,
      List.Forall₂ (Dictionary shown) others again ∧ createConstraints again = .ok restored ∧
        AndOrTree.mapParts AuthConstraint.bare restored = AndOrTree.mapParts AuthConstraint.bare trees := by
  induction documents generalizing others trees with
  | nil =>
    cases same
    rw [createConstraints] at created
    cases created
    exact ⟨[],[],.nil,by rw [createConstraints],rfl⟩
  | @cons item part items parts document _ ih =>
    cases same with
    | @cons _ other _ others here rest =>
    rw [createConstraints] at created
    obtain ⟨tree,first,created⟩ := bind_success _ _ _ created
    obtain ⟨trees,remaining,created⟩ := bind_success _ _ _ created
    cases created
    obtain ⟨dict,restored,isDict,makes,bare⟩ := each part List.mem_cons_self item other tree document here first
    obtain ⟨dicts,others,areDicts,make,bares⟩ := ih (fun part listed => each part (.tail _ listed)) rest remaining
    refine ⟨dict :: dicts,restored :: others,.cons isDict areDicts,?_,?_⟩
    · rw [createConstraints,makes,ok_bind,make]
      rfl
    · rw [AndOrTree.mapParts,AndOrTree.mapParts,bare,bares]

private theorem restores (dict : ConstraintDict) : Restores shown dict := by
  have list (connective : Connective) (parts : List ConstraintDict) (each : ∀ part ∈ parts, Restores shown part) :
      Restores shown (connective.dict parts) := by
    intro document other tree isDict same created
    obtain ⟨fields,items,rfl,document,documents⟩ := dictionary_list.mp isDict
    obtain ⟨trees,made,rfl⟩ := createConstraint_ok_list.mp created
    cases same with
    | object lookups =>
    obtain ⟨again,listed,same⟩ := document.same lookups
    obtain ⟨dicts,restored,areDicts,make,bares⟩ := restores_parts each documents same made
    refine ⟨connective.dict dicts,connective.tree restored,dictionary_list.mpr ⟨_,again,rfl,listed,areDicts⟩,
      createConstraint_ok_list.mpr ⟨restored,make,rfl⟩,?_⟩
    rw [map_list,map_list,bares]
  induction dict using ConstraintDict.induct with
  | role role sigCount needToBeOwner off metadata =>
    intro document other tree isDict same created
    simp only [Dictionary] at isDict
    obtain ⟨fields,rfl,document⟩ := isDict
    rw [createConstraint] at created
    obtain ⟨constraint,made,created⟩ := bind_success _ _ _ created
    cases created
    cases same with
    | object lookups =>
    obtain ⟨again,document⟩ := document.same lookups
    obtain ⟨restored,makes,bare⟩ := fromDict_metadata made again
    refine ⟨.role role sigCount needToBeOwner off again,.leaf restored,?_,?_,?_⟩
    · simp only [Dictionary]
      exact ⟨_,rfl,document⟩
    · rw [createConstraint,makes]
      rfl
    · rw [AndOrTree.map,AndOrTree.map,bare]
  | and parts ih => exact list .and parts ih
  | or parts ih => exact list .or parts ih
  | forbidden =>
    intro document other tree isDict same created
    simp only [Dictionary] at isDict
    obtain ⟨fields,rfl,named⟩ := isDict
    cases same with
    | @object _ others lookups =>
    refine ⟨.forbidden,tree,?_,created,rfl⟩
    simp only [Dictionary]
    exact ⟨others,rfl,same_scalar lookups named⟩

end Same

section Serializer
variable {β : Type} (dumps : PyJson → β) (loads : β → Option PyJson)

/-- `ConstraintsSerializer.serialize`; a constraint object is true. -/
def serialize (fuel : Nat) (constraint : PyWord) : Py β := do
  let dict ← objectAsDict fuel constraint
  let document ← readDocument .typeError .diverges fuel dict
  return dumps document

def deserializeObject (fuel : Nat) (text : β) : Py Nat :=
  match loads text with
  | none => raise .valueError
  | some document => do createObject fuel (← writeDocument document)

variable {shown : PyJson → String} {inside : Nat → Prop} {store : List PyCell} {word : PyWord} {tree : Constraint}

/-- Creating a constraint from a document of a dictionary. -/
theorem createObject_refines {document : PyJson} {dict : ConstraintDict} (isDict : Dictionary shown document dict)
    (reads : Reads inside store word document) {fuel : Nat} (enough : dict.depth < fuel) :
    Refines .valueError (HoldsAt shown fun _ => True) store (createObject fuel word store) (createConstraint dict) := by
  refine (rebuilds enough store.length true document word store le_rfl isDict
    (reads.keep (kept_within store inside))).imp ?_
  intro after address tree holds
  exact Holds.keep (kept_of_longer List.prefix_rfl fun _ _ => trivial) holds

private theorem printed (holds : Holds shown inside store word tree) : ∃ dict after document,
    (∀ fuel, (Constraint.asDict tree).depth < fuel → objectAsDict fuel word store = (.ok dict,after)) ∧
      store <+: after ∧ Reads (fun _ => True) after dict document ∧
        Dictionary shown document (Constraint.asDict tree) := by
  obtain ⟨dict,after,run,longer,shows⟩ := prints tree word store le_rfl (holds.keep (kept_within store inside))
  obtain ⟨document,reads,isDict⟩ := shows_document.1 shows
  exact ⟨dict,after,document,run,longer,reads,isDict⟩

/-- Rebuilding from the dictionary gives the tree, and changes neither. -/
theorem rebuilt_directly (holds : Holds shown inside store word tree) : ∃ enough, ∀ fuel, enough < fuel →
    ∃ dict middle address after, objectAsDict fuel word store = (.ok dict,middle) ∧ store <+: middle ∧
      createObject fuel dict middle = (.ok address,after) ∧ middle <+: after ∧
        Holds shown (fun _ => True) after (.address address) tree := by
  obtain ⟨dict,middle,document,run,longer,reads,isDict⟩ := printed holds
  refine ⟨(Constraint.asDict tree).depth,fun fuel enough => ?_⟩
  obtain ⟨further,ends⟩ := createObject_refines isDict reads enough
  rw [create_asDict] at ends
  obtain ⟨address,rebuilt,same⟩ := ends
  exact ⟨dict,middle,address,_,run fuel enough,longer,Prod.ext rebuilt rfl,further,same⟩

/-- Through the text, the metadata may come in another order. -/
theorem rebuilt_from_text (roundTrip : ∀ document, ∃ again, loads (dumps document) = some again ∧
      JsonTree.Same document again) (holds : Holds shown inside store word tree) :
    ∃ enough, ∀ fuel, enough < fuel → ∃ text middle address after restored,
      serialize dumps fuel word store = (.ok text,middle) ∧ store <+: middle ∧
      deserializeObject loads fuel text middle = (.ok address,after) ∧ middle <+: after ∧
        Holds shown (fun _ => True) after (.address address) restored ∧
          restored.map AuthConstraint.bare = tree.map AuthConstraint.bare := by
  obtain ⟨dict,middle,document,run,longer,reads,isDict⟩ := printed holds
  obtain ⟨deep,settles⟩ := readDocument_settles Raised.typeError .diverges reads
  obtain ⟨other,loaded,same⟩ := roundTrip document
  obtain ⟨again,restored,againDict,makes,bare⟩ := restores _ _ _ _ isDict same (create_asDict tree)
  obtain ⟨copy,written,writes,further,copied⟩ := writeDocument_writes other middle
  refine ⟨max (Constraint.asDict tree).depth (max deep again.depth),fun fuel enough => ?_⟩
  obtain ⟨grows,ends⟩ := createObject_refines againDict copied
    (((le_max_right _ _).trans (le_max_right _ _)).trans_lt enough)
  rw [makes] at ends
  obtain ⟨address,rebuilt,holds⟩ := ends
  refine ⟨dumps document,middle,address,_,restored,?_,longer,?_,further.trans grows,holds,bare⟩
  · rw [serialize,bind_run (run fuel ((le_max_left _ _).trans_lt enough)),
      bind_run (settles fuel (((le_max_left _ _).trans (le_max_right _ _)).trans_lt enough))]
    rfl
  · rw [deserializeObject,loaded]
    refine (bind_run writes _).trans (Prod.ext rebuilt rfl)

theorem accepts_bare {other : Constraint} (same : other.map AuthConstraint.bare = tree.map AuthConstraint.bare)
    (cache : IdrCache) (req : Request) (action : AuthAction) :
    composite cache req action other = .ok (true,"") ↔ composite cache req action tree = .ok (true,"") := by
  have decided (tree : Constraint) : composite cache req action tree = .ok (true,"") ↔
      (tree.map AuthConstraint.bare).eval (leafHolds cache req action) = true := by
    rw [(composite_decides cache req action tree).accepted,AndOrTree.eval_map]
    rfl
  rw [decided other,decided tree,same]

end Serializer
end IndyNode.Authorize

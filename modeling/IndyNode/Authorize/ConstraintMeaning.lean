import IndyNode.Authorize.ConstraintObjects

/-! What constraint objects and dictionaries in a store stand for, and that rebuilding and
printing them in the store does what it does to the trees. -/
namespace IndyNode.Authorize
open Exec

theorem ConstraintDict.induct {motive : ConstraintDict → Prop}
    (role : ∀ role sigCount needToBeOwner offLedgerSignature metadata,
      motive (.role role sigCount needToBeOwner offLedgerSignature metadata))
    (and : ∀ parts, (∀ part ∈ parts, motive part) → motive (.and parts))
    (or : ∀ parts, (∀ part ∈ parts, motive part) → motive (.or parts))
    (forbidden : motive .forbidden) (dict : ConstraintDict) : motive dict := by
  refine @ConstraintDict.rec motive (fun parts => ∀ part ∈ parts, motive part) role and or forbidden ?_ ?_ dict
  · simp
  · intro head tail first rest
    exact List.forall_mem_cons.mpr ⟨first,rest⟩

namespace Connective

def dict : Connective → List ConstraintDict → ConstraintDict
  | .and => .and
  | .or => .or

def tree : Connective → List Constraint → Constraint
  | .and => .all
  | .or => .any

end Connective

theorem map_list (f : AuthConstraint → AuthConstraint) (connective : Connective) (parts : List Constraint) :
    (connective.tree parts).map f = connective.tree (AndOrTree.mapParts f parts) := by
  cases connective <;> rw [Connective.tree,AndOrTree.map]

mutual
def ConstraintDict.depth : ConstraintDict → Nat
  | .role _ _ _ _ _ => 0
  | .and parts => depths parts + 1
  | .or parts => depths parts + 1
  | .forbidden => 0

def ConstraintDict.depths : List ConstraintDict → Nat
  | [] => 0
  | part::parts => max (ConstraintDict.depth part) (ConstraintDict.depths parts)
end

theorem depth_le_depths {part : ConstraintDict} {parts : List ConstraintDict} (listed : part ∈ parts) :
    part.depth ≤ ConstraintDict.depths parts := by
  induction parts with
  | nil => cases listed
  | cons first parts ih =>
    rw [ConstraintDict.depths]
    rcases List.mem_cons.mp listed with rfl | later
    · exact le_max_left _ _
    · exact (ih later).trans (le_max_right _ _)

theorem depth_list (connective : Connective) (parts : List ConstraintDict) :
    (connective.dict parts).depth = ConstraintDict.depths parts + 1 := by
  cases connective <;> rw [Connective.dict,ConstraintDict.depth]

/-- The number a signature count is compared as. -/
def PyScalar.count? : PyScalar → Option Nat
  | .bool value => some value.toNat
  | .int value => if 0 ≤ value then some value.toNat else Option.none
  | _ => Option.none

def roleScalar : Option String → PyScalar
  | none => .none
  | some text => .str text

def offScalar : Option Bool → PyScalar
  | none => .none
  | some value => .bool value

section Meaning
variable (shown : PyJson → String)

/-- Metadata are known by the texts of their values. -/
def HasMetadata (inside : Nat → Prop) (store : List PyCell) (word : PyWord) (metadata : List (String × String)) :
    Prop :=
  ∃ fields, Reads inside store word (.object fields) ∧ metadata = fields.map fun field => (field.1,shown field.2)

mutual
/-- The object is the constraint. -/
def Holds (inside : Nat → Prop) (store : List PyCell) : PyWord → Constraint → Prop
  | word, .leaf constraint => ∃ address count metadata, word = .address address ∧ inside address ∧
      store[address]? = some (.object (.role (.scalar (roleScalar constraint.role.value)) (.scalar count)
        (.scalar (.bool constraint.needToBeOwner)) (.scalar (offScalar constraint.offLedgerSignature)) metadata)) ∧
      count.count? = some constraint.sigCount ∧ HasMetadata shown inside store metadata constraint.metadata
  | word, .all parts => ∃ address list words, word = .address address ∧ inside address ∧
      store[address]? = some (.object (.list .and (.address list))) ∧ inside list ∧
      store[list]? = some (.list words) ∧ HoldsAll inside store words parts
  | word, .any parts => ∃ address list words, word = .address address ∧ inside address ∧
      store[address]? = some (.object (.list .or (.address list))) ∧ inside list ∧
      store[list]? = some (.list words) ∧ HoldsAll inside store words parts
  | word, .never => ∃ address, word = .address address ∧ inside address ∧
      store[address]? = some (.object .forbidden)

def HoldsAll (inside : Nat → Prop) (store : List PyCell) : List PyWord → List Constraint → Prop
  | [], [] => True
  | word::words, part::parts => Holds inside store word part ∧ HoldsAll inside store words parts
  | _, _ => False
end

/-- The fields that a ROLE dictionary is read by. -/
structure RoleDocument (fields : List (String × PyJson)) (role : Option String) (sigCount : Nat)
    (needToBeOwner offLedgerSignature : Option Bool) (metadata : Option (List (String × String))) : Prop where
  constraintId : fields.lookup "constraint_id" = some (.scalar (.str "ROLE"))
  role : fields.lookup "role" = some (.scalar (roleScalar role))
  sigCount : ∃ count, fields.lookup "sig_count" = some (.scalar count) ∧ count.count? = some sigCount
  needToBeOwner : fields.lookup "need_to_be_owner" = (needToBeOwner.map PyScalar.bool).map .scalar
  offLedgerSignature : fields.lookup "off_ledger_signature" = (offLedgerSignature.map PyScalar.bool).map .scalar
  metadata : ∃ held : Option (List (String × PyJson)), fields.lookup "metadata" = held.map .object ∧
    metadata = held.map fun entries => entries.map fun entry => (entry.1,shown entry.2)

structure ListDocument (connective : Connective) (fields : List (String × PyJson)) (items : List PyJson) : Prop where
  constraintId : fields.lookup "constraint_id" = some (.scalar (.str connective.constraintId))
  authConstraints : fields.lookup "auth_constraints" = some (.list items)
  strict : ∀ entry ∈ fields, entry.1 = "constraint_id" ∨ entry.1 = "auth_constraints"

mutual
/-- The document is the dictionary. -/
def Dictionary : PyJson → ConstraintDict → Prop
  | document, .role role sigCount needToBeOwner offLedgerSignature metadata => ∃ fields,
      document = .object fields ∧
        RoleDocument shown fields role sigCount needToBeOwner offLedgerSignature metadata
  | document, .and parts => ∃ fields items, document = .object fields ∧ ListDocument .and fields items ∧
      DictionaryAll items parts
  | document, .or parts => ∃ fields items, document = .object fields ∧ ListDocument .or fields items ∧
      DictionaryAll items parts
  | document, .forbidden => ∃ fields, document = .object fields ∧
      fields.lookup "constraint_id" = some (.scalar (.str "FORBIDDEN"))

def DictionaryAll : List PyJson → List ConstraintDict → Prop
  | [], [] => True
  | item::items, part::parts => Dictionary item part ∧ DictionaryAll items parts
  | _, _ => False
end

variable {shown} {inside wider : Nat → Prop} {store after : List PyCell}

private theorem holdsAll_iff (words : List PyWord) (parts : List Constraint) :
    HoldsAll shown inside store words parts ↔ List.Forall₂ (Holds shown inside store) words parts := by
  induction parts generalizing words with
  | nil => cases words <;> simp [HoldsAll]
  | cons part parts ih => cases words <;> simp [HoldsAll,ih]

theorem holds_leaf {word : PyWord} {constraint : AuthConstraint} :
    Holds shown inside store word (.leaf constraint) ↔ ∃ address count metadata, word = .address address ∧
      inside address ∧ store[address]? = some (.object (.role (.scalar (roleScalar constraint.role.value))
        (.scalar count) (.scalar (.bool constraint.needToBeOwner))
        (.scalar (offScalar constraint.offLedgerSignature)) metadata)) ∧
      count.count? = some constraint.sigCount ∧
      HasMetadata shown inside store metadata constraint.metadata := by
  simp only [Holds]

theorem holds_list {connective : Connective} {word : PyWord} {parts : List Constraint} :
    Holds shown inside store word (connective.tree parts) ↔ ∃ address list words, word = .address address ∧
      inside address ∧ store[address]? = some (.object (.list connective (.address list))) ∧ inside list ∧
      store[list]? = some (.list words) ∧ List.Forall₂ (Holds shown inside store) words parts := by
  cases connective <;> simp only [Connective.tree,Holds,holdsAll_iff]

theorem holds_never {word : PyWord} : Holds shown inside store word .never ↔ ∃ address,
    word = .address address ∧ inside address ∧ store[address]? = some (.object .forbidden) := by
  simp only [Holds]

private theorem dictionaryAll_iff (items : List PyJson) (parts : List ConstraintDict) :
    DictionaryAll shown items parts ↔ List.Forall₂ (Dictionary shown) items parts := by
  induction parts generalizing items with
  | nil => cases items <;> simp [DictionaryAll]
  | cons part parts ih => cases items <;> simp [DictionaryAll,ih]

theorem dictionary_list {connective : Connective} {document : PyJson} {parts : List ConstraintDict} :
    Dictionary shown document (connective.dict parts) ↔ ∃ fields items, document = .object fields ∧
      ListDocument connective fields items ∧ List.Forall₂ (Dictionary shown) items parts := by
  cases connective <;> simp only [Connective.dict,Dictionary,dictionaryAll_iff]

theorem HasMetadata.keep (kept : Kept inside wider store after) {word : PyWord}
    {metadata : List (String × String)} (has : HasMetadata shown inside store word metadata) :
    HasMetadata shown wider after word metadata := by
  obtain ⟨fields,reads,same⟩ := has
  exact ⟨fields,reads.keep kept,same⟩

theorem Holds.keep (kept : Kept inside wider store after) {word : PyWord} {tree : Constraint}
    (holds : Holds shown inside store word tree) : Holds shown wider after word tree := by
  have list (connective : Connective) (parts : List Constraint) (word : PyWord)
      (each : ∀ part ∈ parts, ∀ {word}, Holds shown inside store word part → Holds shown wider after word part)
      (holds : Holds shown inside store word (connective.tree parts)) :
      Holds shown wider after word (connective.tree parts) := by
    rw [holds_list] at holds ⊢
    obtain ⟨address,list,words,same,own,there,listed,items,parts⟩ := holds
    obtain ⟨own,there⟩ := kept _ _ own there
    obtain ⟨listed,items⟩ := kept _ _ listed items
    exact ⟨address,list,words,same,own,there,listed,items,
      forall₂_imp_mem parts fun _ part member here => each part member here⟩
  induction tree using AndOrTree.induct generalizing word with
  | leaf constraint =>
    rw [holds_leaf] at holds ⊢
    obtain ⟨address,count,metadata,same,own,there,counts,has⟩ := holds
    obtain ⟨own,there⟩ := kept _ _ own there
    exact ⟨address,count,metadata,same,own,there,counts,has.keep kept⟩
  | all parts ih => exact list .and parts word ih holds
  | any parts ih => exact list .or parts word ih holds
  | never =>
    rw [holds_never] at holds ⊢
    obtain ⟨address,same,own,there⟩ := holds
    obtain ⟨own,there⟩ := kept _ _ own there
    exact ⟨address,same,own,there⟩

end Meaning

section Samples

/-- The owner has to sign, and a trustee or two stewards. -/
def nestedTree : Constraint :=
  .all [.leaf (anyRoleConstraint 1 true none),
    .any [.leaf (roleConstraint .trustee 1 false),.leaf (roleConstraint .steward 2 false)]]

def roleObject (role : String) (sigCount : Int) (needToBeOwner : Bool) : PyCell :=
  .object (.role (strWord role) (.scalar (.int sigCount)) (.scalar (.bool needToBeOwner)) (.scalar .none) (.address 0))

/-- Its objects, which share their metadata, and its lists. -/
def nestedStore : List PyCell :=
  [.dict [],roleObject "*" 1 true,roleObject "0" 1 false,roleObject "2" 2 false,.list [.address 2,.address 3],
    .object (.list .or (.address 4)),.list [.address 1,.address 5],.object (.list .and (.address 6))]

theorem nested_held : Holds (fun _ => "") (fun _ => True) nestedStore (.address 7) nestedTree := by
  have metadata : HasMetadata (fun _ => "") (fun _ => True) nestedStore (.address 0) [] :=
    ⟨[],reads_object.mpr ⟨0,[],rfl,trivial,rfl,.nil⟩,rfl⟩
  have owner : Holds (fun _ => "") (fun _ => True) nestedStore (.address 1) (.leaf (anyRoleConstraint 1 true none)) :=
    holds_leaf.mpr ⟨1,.int 1,.address 0,rfl,trivial,rfl,rfl,metadata⟩
  have trustee : Holds (fun _ => "") (fun _ => True) nestedStore (.address 2)
      (.leaf (roleConstraint .trustee 1 false)) :=
    holds_leaf.mpr ⟨2,.int 1,.address 0,rfl,trivial,rfl,rfl,metadata⟩
  have stewards : Holds (fun _ => "") (fun _ => True) nestedStore (.address 3)
      (.leaf (roleConstraint .steward 2 false)) :=
    holds_leaf.mpr ⟨3,.int 2,.address 0,rfl,trivial,rfl,rfl,metadata⟩
  have either : Holds (fun _ => "") (fun _ => True) nestedStore (.address 5)
      (Connective.or.tree [.leaf (roleConstraint .trustee 1 false),.leaf (roleConstraint .steward 2 false)]) :=
    holds_list.mpr ⟨5,4,_,rfl,trivial,rfl,trivial,rfl,.cons trustee (.cons stewards .nil)⟩
  exact (@holds_list _ _ _ .and _ _).mpr ⟨7,6,_,rfl,trivial,rfl,trivial,rfl,.cons owner (.cons either .nil)⟩

end Samples
end IndyNode.Authorize

import IndyNode.Authorize.ConstraintMeaning

/-! Rebuilding constraints from dictionaries in a store does what `createConstraint` does to the
dictionaries, and leaves every cell of the store as it was. -/
namespace IndyNode.Authorize
open Exec

section Steps
variable {store : List PyCell} {address : Nat} {entries : List (String × PyWord)}

theorem loadDict_run (there : store[address]? = some (.dict entries)) :
    loadDict (.address address) store = (.ok entries,store) := by
  rw [loadDict,bind_run (load_run there)]
  rfl

theorem loadList_run {items : List PyWord} (there : store[address]? = some (.list items)) :
    loadList (.address address) store = (.ok items,store) := by
  rw [loadList,bind_run (load_run there)]
  rfl

theorem loadObject_run {object : ConstraintObject} (there : store[address]? = some (.object object)) :
    loadObject (.address address) store = (.ok object,store) := by
  rw [loadObject,bind_run (load_run there)]
  rfl

theorem getItem_run {key : String} {word : PyWord} (listed : entries.lookup key = some word) (store : List PyCell) :
    getItem entries key store = (.ok word,store) := by
  rw [getItem,listed]
  rfl

theorem setItem_run (there : store[address]? = some (.dict entries)) (key : String) (word : PyWord) :
    setItem address key word store = (.ok (),store.set address (.dict (setKey key word entries))) := by
  rw [setItem,bind_run (loadDict_run there)]
  rfl

private theorem popItem_run {key : String} {word : PyWord} (there : store[address]? = some (.dict entries))
    (listed : entries.lookup key = some word) : popItem address key store =
      (.ok word,store.set address (.dict (entries.filter fun entry => entry.1 ≠ key))) := by
  rw [popItem,bind_run (loadDict_run there),bind_run (getItem_run listed store)]
  rfl

private theorem copyDict_run (there : store[address]? = some (.dict entries)) :
    copyDict (.address address) store = (.ok store.length,store ++ [.dict entries]) := by
  rw [copyDict,bind_run (loadDict_run there)]
  rfl

private theorem lookup_popped (entries : List (String × PyWord)) {key popped : String} (apart : key ≠ popped) :
    (entries.filter fun entry => entry.1 ≠ popped).lookup key = entries.lookup key := by
  induction entries with
  | nil => rfl
  | cons entry entries ih =>
    by_cases same : entry.1 = popped
    · have other : (key == entry.1) = false := by simpa [same] using apart
      rw [List.filter_cons_of_neg (by simpa using same),ih,List.lookup_cons,other]
    · rw [List.filter_cons_of_pos (by simpa using same),List.lookup_cons,List.lookup_cons,ih]

private theorem setKey_keys {key : String} (word : PyWord) (only : ∀ entry ∈ entries, entry.1 = key) :
    ∀ entry ∈ setKey key word entries, entry.1 = key := by
  intro entry listed
  rw [setKey] at listed
  split at listed
  next =>
    obtain ⟨old,member,rfl⟩ := List.mem_map.mp listed
    rw [if_pos (only old member)]
  next =>
    rcases List.mem_append.mp listed with old | new
    · exact only entry old
    · rw [List.mem_singleton.mp new]

abbrev withoutId (entries : List (String × PyWord)) : List (String × PyWord) :=
  entries.filter fun entry => entry.1 ≠ "constraint_id"

private theorem fromCopy_run {constraintId : String} (there : store[address]? = some (.dict entries))
    (listed : entries.lookup "constraint_id" = some (strWord constraintId)) (fromDict : PyWord → Nat → Py Nat)
    (checksId : Bool) : fromCopy fromDict checksId (.address address) store =
      fromDict (strWord constraintId) store.length (store ++ [.dict (withoutId entries)]) := by
  have copied : (store ++ [HeapCell.dict entries])[store.length]? = some (.dict entries) := List.getElem?_concat_length
  rw [fromCopy,bind_run (copyDict_run there),bind_run (popItem_run copied listed)]
  rw [List.set_append_right _ _ le_rfl,Nat.sub_self,List.set_cons_zero]
  have present : (checksId && decide (strWord constraintId = .scalar .none)) = false := by
    rw [decide_eq_false (by rw [strWord]; simp),Bool.and_false]
  rw [present]
  rfl

end Steps

section Refinement

/-- The cells that a result may go through: those of the documents, and new ones. -/
def Owned (base : Nat) (store : List PyCell) (address : Nat) : Prop := address < base ∨ store.length ≤ address

private theorem owned_longer {base : Nat} {store after : List PyCell} (longer : store <+: after) (address : Nat) :
    Owned base after address → Owned base store address :=
  Or.imp_right longer.length_le.trans

/-- The new object is the constraint, found among the cells that it may go through. -/
def HoldsAt (shown : PyJson → String) (inside : Nat → Prop) (store : List PyCell) (address : Nat)
    (tree : Constraint) : Prop := Holds shown inside store (.address address) tree

def HoldAt (shown : PyJson → String) (inside : Nat → Prop) (store : List PyCell) (addresses : List Nat)
    (trees : List Constraint) : Prop := List.Forall₂ (Holds shown inside store) (addresses.map .address) trees

/-- The program makes of every document of the dictionary what `createConstraint` makes of it. -/
def Rebuilds (shown : PyJson → String) (base : Nat) (program : PyWord → Py Nat) (dict : ConstraintDict) : Prop :=
  ∀ (document : PyJson) (word : PyWord) (store : List PyCell), base ≤ store.length →
    Dictionary shown document dict → Reads (· < base) store word document →
    Refines .valueError (HoldsAt shown (Owned base store)) store (program word store) (createConstraint dict)

variable {shown : PyJson → String} {store : List PyCell}

private theorem acceptedRole_any {role : Option String} {spec : RoleSpec} (accepted : acceptedRole role = some spec) :
    spec = .any ↔ role = some "*" := by
  unfold acceptedRole at accepted
  split at accepted <;> cases accepted <;> simp

private theorem roleAccepted_scalar (role : Option String) :
    roleAccepted (.scalar (roleScalar role)) = (acceptedRole role).isSome := by
  cases role <;> rfl

private theorem roleScalar_any (role : Option String) : Word.scalar
    (roleScalar role) = strWord "*" ↔ role = some "*" := by
  cases role <;> simp [roleScalar,strWord]

private theorem wordTruth_off (off : Option Bool) (store : List PyCell) :
    wordTruth (.scalar (offScalar off)) store = (.ok (decide (off = some true)),store) := by
  cases off with
  | none => rfl
  | some value => cases value <;> rfl

private theorem value_acceptedRole {role : Option String} {spec : RoleSpec} (accepted : acceptedRole role = some spec) :
    spec.value = role := by
  unfold acceptedRole at accepted
  split at accepted <;> cases accepted <;> rfl

private theorem fromDict_fields {role : Option String} {sigCount : Nat} {needToBeOwner off : Option Bool}
    {metadata : Option (List (String × String))} {constraint : AuthConstraint}
    (made : AuthConstraint.fromDict role sigCount needToBeOwner off metadata = .ok constraint) :
    constraint.role.value = role ∧ constraint.sigCount = sigCount ∧
      constraint.needToBeOwner = needToBeOwner.getD false ∧ constraint.offLedgerSignature = off ∧
      constraint.metadata = metadata.getD [] := by
  rw [AuthConstraint.fromDict] at made
  split at made
  next => cases made
  next spec accepted =>
    split at made
    next => cases made
    next =>
      cases made
      exact ⟨value_acceptedRole accepted,rfl,rfl,rfl,rfl⟩

private theorem roleValidation_run (role : Option String) (sigCount : Nat) (needToBeOwner off : Option Bool)
    (metadata : Option (List (String × String))) (store : List PyCell) :
    roleValidation (.scalar (roleScalar role)) (.scalar (offScalar off)) store =
      (match AuthConstraint.fromDict role sigCount needToBeOwner off metadata with
        | .error _ => .error .valueError
        | .ok _ => .ok (),store) := by
  rw [roleValidation,roleAccepted_scalar,AuthConstraint.fromDict]
  cases accepted : acceptedRole role with
  | none => rfl
  | some spec =>
    simp only [Option.isSome_some,Bool.not_true,Bool.false_eq_true,if_false]
    rw [bind_run (wordTruth_off off store)]
    simp only [Bool.and_eq_true,decide_eq_true_eq,ne_eq,roleScalar_any,acceptedRole_any accepted]
    split <;> rfl

private theorem roleFromDict_run {address : Nat} {entries : List (String × PyWord)} {role sigCount : PyWord}
    (there : store[address]? = some (.dict entries)) (roleListed : entries.lookup "role" = some role)
    (countListed : entries.lookup "sig_count" = some sigCount) {needToBeOwner off metadata : PyWord}
    (ownerRead : (entries.lookup "need_to_be_owner").getD (.scalar (.bool false)) = needToBeOwner)
    (offRead : (entries.lookup "off_ledger_signature").getD (.scalar .none) = off)
    (metadataRead : (entries.lookup "metadata").getD (.address store.length) = metadata) :
    roleFromDict address store = (roleValidation role off >>= fun _ =>
      (alloc (.object (.role role sigCount needToBeOwner off metadata)) : Py Nat)) (store ++ [.dict []]) := by
  subst ownerRead offRead metadataRead
  rw [roleFromDict,bind_run (loadDict_run there),bind_run (getItem_run roleListed store),
    bind_run (getItem_run countListed store)]
  rfl

variable {inside : Nat → Prop} {entries : List (String × PyWord)} {fields : List (String × PyJson)}

private theorem lookup_scalars (reads : List.Forall₂ (fun entry field => entry.1 = field.1 ∧
      Reads inside store entry.2 field.2) entries fields) {key : String} {held : Option PyScalar}
    (listed : fields.lookup key = held.map .scalar) : entries.lookup key = held.map .scalar := by
  have related := fields_lookup reads key
  rw [listed] at related
  generalize entries.lookup key = found at related
  cases held with
  | none =>
    cases related
    rfl
  | some value =>
    cases related with
    | some here => exact congrArg some (reads_scalar.mp here)

private theorem lookup_scalar (reads : List.Forall₂ (fun entry field => entry.1 = field.1 ∧
      Reads inside store entry.2 field.2) entries fields) {key : String} {value : PyScalar}
    (listed : fields.lookup key = some (.scalar value)) : entries.lookup key = some (.scalar value) :=
  @lookup_scalars _ _ _ _ reads key (some value) listed

private theorem lookup_metadata (reads : List.Forall₂ (fun entry field => entry.1 = field.1 ∧
      Reads inside store entry.2 field.2) entries fields) {after : List PyCell} {wider : Nat → Prop}
    (kept : Kept inside wider store after) {empty : Nat} (owned : wider empty)
    (there : after[empty]? = some (.dict [])) {held : Option (List (String × PyJson))}
    (listed : fields.lookup "metadata" = held.map .object) :
    HasMetadata shown wider after ((entries.lookup "metadata").getD (.address empty))
      ((held.map fun entries => entries.map fun entry => (entry.1,shown entry.2)).getD []) := by
  have related := fields_lookup reads "metadata"
  rw [listed] at related
  generalize entries.lookup "metadata" = found at related
  cases held with
  | none =>
    cases related
    exact ⟨[],reads_object.mpr ⟨empty,[],rfl,owned,there,.nil⟩,rfl⟩
  | some document =>
    cases related with
    | some here => exact ⟨document,here.keep kept,rfl⟩

private theorem roleFromDict_refines {base : Nat} {role : Option String} {sigCount : Nat}
    {needToBeOwner off : Option Bool}
    {metadata : Option (List (String × String))}
    (reads : List.Forall₂ (fun entry field => entry.1 = field.1 ∧
      Reads (· < base) store entry.2 field.2) entries fields)
    (document : RoleDocument shown fields role sigCount needToBeOwner off metadata) :
    Refines .valueError (HoldsAt shown (Owned base store)) store (roleFromDict store.length (store ++ [.dict (withoutId entries)]))
      (createConstraint (.role role sigCount needToBeOwner off metadata)) := by
  obtain ⟨count,countListed,counts⟩ := document.sigCount
  obtain ⟨held,heldListed,rfl⟩ := document.metadata
  have copied (key : String) (apart : key ≠ "constraint_id") (held : Option PyScalar)
      (listed : fields.lookup key = held.map .scalar) : (withoutId entries).lookup key = held.map .scalar := by
    rw [lookup_popped entries apart,lookup_scalars reads listed]
  have ownerRead : ((withoutId entries).lookup "need_to_be_owner").getD (.scalar (.bool false)) =
      .scalar (.bool (needToBeOwner.getD false)) := by
    rw [copied _ (by decide) _ document.needToBeOwner]
    cases needToBeOwner <;> rfl
  have offRead : ((withoutId entries).lookup "off_ledger_signature").getD (.scalar .none) =
      .scalar (offScalar off) := by
    rw [copied _ (by decide) _ document.offLedgerSignature]
    cases off <;> rfl
  rw [roleFromDict_run List.getElem?_concat_length (copied _ (by decide) (some _) document.role)
    (copied _ (by decide) (some _) countListed) ownerRead offRead rfl,createConstraint]
  generalize shownMetadata : (held.map fun entries => entries.map fun entry => (entry.1,shown entry.2)) = metadata
  have validation := roleValidation_run role sigCount needToBeOwner off metadata
    (store ++ [.dict (withoutId entries)] ++ [.dict []])
  have longer : store <+: store ++ [.dict (withoutId entries)] ++ [.dict []] :=
    ⟨[.dict (withoutId entries),.dict []],by simp⟩
  cases made : AuthConstraint.fromDict role sigCount needToBeOwner off metadata with
  | error text =>
    rw [made] at validation
    rw [bind_fails validation]
    exact refines_error longer text
  | ok constraint =>
    rw [made] at validation
    rw [bind_run validation]
    obtain ⟨sameRole,sameCount,sameOwner,sameOff,sameMetadata⟩ := fromDict_fields made
    rw [← sameRole,← sameOwner,← sameOff,alloc_run]
    refine refines_ok (longer.trans (List.prefix_append _ _)) (holds_leaf.mpr ⟨_,count,_,rfl,.inr longer.length_le,
      List.getElem?_concat_length,?_,?_⟩)
    · rw [sameCount]
      exact counts
    · rw [sameMetadata,← shownMetadata,lookup_popped entries (by decide)]
      refine lookup_metadata reads (kept_of_longer (longer.trans (List.prefix_append _ _)) fun _ => .inl)
        (.inr (List.prefix_append _ _).length_le) ?_ heldListed
      rw [List.getElem?_append_left (by simp)]
      exact List.getElem?_concat_length

private theorem each_refines {base : Nat} {body : PyWord → Py Nat} {parts : List ConstraintDict}
    (step : ∀ part ∈ parts, Rebuilds shown base body part)
    {items : List PyJson} (documents : List.Forall₂ (Dictionary shown) items parts) (within : base ≤ store.length)
    {words : List PyWord} (reads : List.Forall₂ (Reads (· < base) store) words items) :
    Refines .valueError (HoldAt shown (Owned base store)) store (each body words store)
      (createConstraints parts) := by
  induction documents generalizing store words with
  | nil =>
    cases reads
    rw [createConstraints]
    exact refines_ok List.prefix_rfl .nil
  | @cons item part items parts document documents ih =>
    cases reads with
    | @cons word _ words _ here rest =>
    rw [createConstraints,each]
    refine (step part List.mem_cons_self item word store within document here).bind List.prefix_rfl ?_
    intro middle address tree longer holds
    have others : List.Forall₂ (Reads (· < base) middle) words items :=
      rest.imp fun _ _ reads => reads.keep (kept_of_longer longer fun _ => id)
    refine (ih (fun part listed => step part (.tail _ listed)) (within.trans longer.length_le) others).bind longer ?_
    intro after addresses trees further hold
    refine refines_ok (longer.trans further) (.cons (Holds.keep (kept_of_longer further fun _ => id) holds) ?_)
    exact hold.imp fun _ _ each => each.keep (kept_of_longer List.prefix_rfl (owned_longer longer))

private theorem listFromParts_run {address : Nat} (there : store[address]? = some (.dict entries))
    (only : ∀ entry ∈ entries, entry.1 = "auth_constraints") (connective : Connective) (objects : List Nat) :
    listFromParts connective address objects store = (.ok (store.length + 1),
      (store ++ [HeapCell.list (objects.map .address)]).set address
          (.dict (setKey "auth_constraints" (.address store.length) entries)) ++
        [.object (.list connective (.address store.length))]) := by
  have within : address < store.length := (List.getElem?_eq_some_iff.mp there).1
  have still : (store ++ [HeapCell.list (objects.map .address)])[address]? = some (.dict entries) := by
    rw [List.getElem?_append_left within,there]
  have arguments : ((setKey "auth_constraints" (.address store.length) entries).any
      fun entry => entry.1 ≠ "auth_constraints") = false := by
    rw [List.any_eq_false]
    intro entry listed
    simpa using setKey_keys _ only entry listed
  rw [listFromParts,bind_run (alloc_run _ store),bind_run (setItem_run still _ _),
    bind_run (loadDict_run (List.getElem?_set_self (by simp; omega)))]
  rw [arguments]
  simp

theorem create_list (connective : Connective) (parts : List ConstraintDict) :
    createConstraint (connective.dict parts) =
      createConstraints parts >>= fun trees => .ok (connective.tree trees) := by
  cases connective <;> rw [Connective.dict,createConstraint] <;> rfl

private theorem ListDocument.listed {base : Nat} {connective : Connective} {items : List PyJson}
    (document : ListDocument connective fields items)
    (reads : List.Forall₂ (fun entry field => entry.1 = field.1 ∧
      Reads (· < base) store entry.2 field.2) entries fields) :
    ∃ list words, (withoutId entries).lookup "auth_constraints" = some (.address list) ∧
      store[list]? = some (.list words) ∧ List.Forall₂ (Reads (· < base) store) words items := by
  have related := fields_lookup reads "auth_constraints"
  rw [document.authConstraints] at related
  rw [lookup_popped entries (by decide)]
  generalize entries.lookup "auth_constraints" = found at related
  cases related with
  | some here =>
    obtain ⟨list,words,rfl,_,there,parts⟩ := reads_list.mp here
    exact ⟨list,words,rfl,there,parts⟩

private theorem ListDocument.only {base : Nat} {connective : Connective} {items : List PyJson}
    (document : ListDocument connective fields items)
    (reads : List.Forall₂ (fun entry field => entry.1 = field.1 ∧
      Reads (· < base) store entry.2 field.2) entries fields) :
    ∀ entry ∈ withoutId entries, entry.1 = "auth_constraints" := by
  intro entry member
  obtain ⟨member,other⟩ := List.mem_filter.mp member
  have named : entry.1 ∈ fields.map Prod.fst := fields_keys reads ▸ List.mem_map_of_mem member
  obtain ⟨field,held,same⟩ := List.mem_map.mp named
  rcases document.strict field held with id | parts
  · exact absurd (same.symm.trans id) (by simpa using other)
  · exact same.symm.trans parts

private theorem listFromDict_refines {base : Nat} {connective : Connective} {fromDict : PyWord → Nat → Py Nat}
    {parts : List ConstraintDict} {items : List PyJson}
    (step : ∀ part ∈ parts, Rebuilds shown base (fromCopy fromDict (connective = .or)) part)
    (documents : List.Forall₂ (Dictionary shown) items parts) (within : base ≤ store.length)
    (reads : List.Forall₂ (fun entry field => entry.1 = field.1 ∧
      Reads (· < base) store entry.2 field.2) entries fields)
    (document : ListDocument connective fields items) :
    Refines .valueError (HoldsAt shown (Owned base store)) store
      (listFromDict fromDict connective store.length (store ++ [.dict (withoutId entries)]))
      (createConstraint (connective.dict parts)) := by
  have longer : store <+: store ++ [.dict (withoutId entries)] := List.prefix_append _ _
  obtain ⟨list,words,copied,there,parts⟩ := document.listed reads
  have stillThere : (store ++ [HeapCell.dict (withoutId entries)])[list]? = some (.list words) := by
    rw [List.getElem?_append_left (List.getElem?_eq_some_iff.mp there).1,there]
  rw [create_list,listFromDict,bind_run (loadDict_run List.getElem?_concat_length),bind_run (getItem_run copied _),
    bind_run (loadList_run stillThere)]
  refine (each_refines step documents (within.trans longer.length_le)
    (parts.imp fun _ _ reads => reads.keep (kept_of_longer longer fun _ => id))).bind longer ?_
  intro middle objects trees further hold
  have own : middle[store.length]? = some (.dict (withoutId entries)) := by
    obtain ⟨rest,rfl⟩ := further
    rw [List.getElem?_append_left (by simp)]
    exact List.getElem?_concat_length
  rw [listFromParts_run own (document.only reads)]
  have size : ((middle ++ [HeapCell.list (objects.map .address)]).set store.length
      (.dict (setKey "auth_constraints" (.address middle.length) (withoutId entries)))).length =
        middle.length + 1 := by simp
  have wide : store.length < middle.length := (List.getElem?_eq_some_iff.mp own).1
  -- The cell that is written over is neither one of the documents nor one of the parts.
  have kept : Kept (Owned base (store ++ [.dict (withoutId entries)])) (Owned base store) middle
      ((middle ++ [HeapCell.list (objects.map .address)]).set store.length
          (.dict (setKey "auth_constraints" (.address middle.length) (withoutId entries))) ++
        [.object (.list connective (.address middle.length))]) := by
    refine ((kept_of_longer (List.prefix_append _ _) fun _ => id).trans (kept_set _ _ (owned_longer longer) ?_)).trans
      (kept_of_longer (List.prefix_append _ _) fun _ => id)
    rintro (below | above)
    · omega
    · rw [List.length_append,List.length_singleton] at above
      omega
  refine refines_ok ?_ (holds_list.mpr ⟨_,middle.length,_,rfl,.inr (by omega),?_,.inr wide.le,?_,
    hold.imp fun _ _ each => each.keep kept⟩)
  · exact (longer_set ((longer.trans further).trans (List.prefix_append _ _)) le_rfl _).trans (List.prefix_append _ _)
  · rw [← size]
    exact List.getElem?_concat_length
  · rw [List.getElem?_append_left (by omega),List.getElem?_set_ne wide.ne]
    exact List.getElem?_concat_length

private theorem fromDict_list (fuel : Nat) (connective : Connective) (address : Nat) :
    fromDict (fuel + 1) (strWord connective.constraintId) address =
      listFromDict (fromDict fuel) connective address := by
  cases connective <;> rfl

private theorem rebuilds_list {base fuel : Nat} (connective : Connective) {parts : List ConstraintDict}
    (step : ∀ part ∈ parts, ∀ checksId, Rebuilds shown base (fromCopy (fromDict fuel) checksId) part)
    (checksId : Bool) : Rebuilds shown base (fromCopy (fromDict (fuel + 1)) checksId) (connective.dict parts) := by
  intro _ word store within isDict reads
  obtain ⟨fields,items,rfl,document,documents⟩ := dictionary_list.mp isDict
  obtain ⟨address,entries,rfl,_,there,reads⟩ := reads_object.mp reads
  rw [fromCopy_run there (lookup_scalar reads document.constraintId)]
  rw [fromDict_list]
  exact listFromDict_refines (fun part listed => step part listed _) documents within reads document

theorem rebuilds {dict : ConstraintDict} {fuel : Nat} (enough : dict.depth < fuel) (base : Nat) (checksId : Bool) :
    Rebuilds shown base (fromCopy (fromDict fuel) checksId) dict := by
  have below {parts : List ConstraintDict} {fuel : Nat} (enough : ConstraintDict.depths parts + 1 < fuel + 1)
      {part : ConstraintDict} (listed : part ∈ parts) : part.depth < fuel :=
    (depth_le_depths listed).trans_lt (Nat.lt_of_succ_lt_succ enough)
  induction dict using ConstraintDict.induct generalizing fuel checksId with
  | role role sigCount needToBeOwner off metadata =>
    obtain _ | fuel := fuel
    · cases enough
    intro _ word store within isDict reads
    simp only [Dictionary] at isDict
    obtain ⟨fields,rfl,document⟩ := isDict
    obtain ⟨address,entries,rfl,_,there,reads⟩ := reads_object.mp reads
    rw [fromCopy_run there (lookup_scalar reads document.constraintId)]
    exact roleFromDict_refines reads document
  | and parts ih =>
    obtain _ | fuel := fuel
    · cases enough
    rw [ConstraintDict.depth] at enough
    exact rebuilds_list .and (fun part listed checksId => ih part listed (below enough listed) checksId) checksId
  | or parts ih =>
    obtain _ | fuel := fuel
    · cases enough
    rw [ConstraintDict.depth] at enough
    exact rebuilds_list .or (fun part listed checksId => ih part listed (below enough listed) checksId) checksId
  | forbidden =>
    obtain _ | fuel := fuel
    · cases enough
    intro _ word store within isDict reads
    simp only [Dictionary] at isDict
    obtain ⟨fields,rfl,named⟩ := isDict
    obtain ⟨address,entries,rfl,_,there,reads⟩ := reads_object.mp reads
    rw [fromCopy_run there (lookup_scalar reads named),createConstraint]
    exact refines_ok ((List.prefix_append _ _).trans (List.prefix_append _ _)) (holds_never.mpr
      ⟨_,rfl,.inr (List.prefix_append _ _).length_le,List.getElem?_concat_length⟩)

end Refinement
end IndyNode.Authorize

import IndyNode.Authorize.ConstraintRebuild

/-! Printing a constraint object to dictionaries: every dictionary and list is a new cell, the
cells of each part lie together, and the document they spell out is that of the tree. -/
namespace IndyNode.Authorize
open Exec

section Shows
variable (shown : PyJson → String) (base : Nat)

mutual
/-- The dictionaries of the tree, in the cells from `low` up to `high`; metadata are shared and
lie below `base`. -/
def Shows (store : List PyCell) : Nat → PyWord → Constraint → Nat → Prop
  | low, word, .leaf constraint, high => word = .address low ∧ high = low + 1 ∧ ∃ count metadata,
      store[low]? = some (.dict (roleFields (.scalar (roleScalar constraint.role.value)) (.scalar count)
        (.scalar (.bool constraint.needToBeOwner)) metadata (.scalar (offScalar constraint.offLedgerSignature)))) ∧
      count.count? = some constraint.sigCount ∧ HasMetadata shown (· < base) store metadata constraint.metadata
  | low, word, .all parts, high => ∃ middle words, word = .address (middle + 1) ∧ high = middle + 2 ∧
      store[middle]? = some (.list words) ∧ store[middle + 1]? = some (.dict (listFields .and (.address middle))) ∧
      ShowsAll store low words parts middle
  | low, word, .any parts, high => ∃ middle words, word = .address (middle + 1) ∧ high = middle + 2 ∧
      store[middle]? = some (.list words) ∧ store[middle + 1]? = some (.dict (listFields .or (.address middle))) ∧
      ShowsAll store low words parts middle
  | low, word, .never, high => word = .address low ∧ high = low + 1 ∧
      store[low]? = some (.dict [("constraint_id",strWord "FORBIDDEN")])

def ShowsAll (store : List PyCell) : Nat → List PyWord → List Constraint → Nat → Prop
  | low, [], [], high => low = high
  | low, word::words, part::parts, high => ∃ middle, Shows store low word part middle ∧
      ShowsAll store middle words parts high
  | _, _, _, _ => False
end

variable {shown base} {store after : List PyCell} {low high : Nat}

theorem shows_leaf {word : PyWord} {constraint : AuthConstraint} :
    Shows shown base store low word (.leaf constraint) high ↔
      word = .address low ∧ high = low + 1 ∧ ∃ count metadata,
      store[low]? = some (.dict (roleFields (.scalar (roleScalar constraint.role.value)) (.scalar count)
        (.scalar (.bool constraint.needToBeOwner)) metadata (.scalar (offScalar constraint.offLedgerSignature)))) ∧
      count.count? = some constraint.sigCount ∧
      HasMetadata shown (· < base) store metadata constraint.metadata := by simp only [Shows]

theorem shows_list {connective : Connective} {word : PyWord} {parts : List Constraint} :
    Shows shown base store low word (connective.tree parts) high ↔ ∃ middle words, word = .address (middle + 1) ∧
      high = middle + 2 ∧ store[middle]? = some (.list words) ∧
      store[middle + 1]? = some (.dict (listFields connective (.address middle))) ∧
      ShowsAll shown base store low words parts middle := by
  cases connective <;> simp only [Connective.tree,Shows]

theorem shows_never {word : PyWord} : Shows shown base store low word .never high ↔
    word = .address low ∧ high = low + 1 ∧
      store[low]? = some (.dict [("constraint_id",strWord "FORBIDDEN")]) := by simp only [Shows]

theorem showsAll_nil {words : List PyWord} :
    ShowsAll shown base store low words [] high ↔ words = [] ∧ low = high := by
  cases words <;> simp [ShowsAll]

theorem showsAll_cons {words : List PyWord} {part : Constraint} {parts : List Constraint} :
    ShowsAll shown base store low words (part::parts) high ↔ ∃ word others middle, words = word :: others ∧
      Shows shown base store low word part middle ∧ ShowsAll shown base store middle others parts high := by
  cases words <;> simp [ShowsAll]

/-- Induction over what is shown, one case for each kind of constraint and two for the parts of a list. -/
theorem shows_rule {motive : Nat → PyWord → Constraint → Nat → Prop}
    {motives : Nat → List PyWord → List Constraint → Nat → Prop}
    (leaf : ∀ low (constraint : AuthConstraint) count metadata,
      store[low]? = some (.dict (roleFields (.scalar (roleScalar constraint.role.value)) (.scalar count)
        (.scalar (.bool constraint.needToBeOwner)) metadata (.scalar (offScalar constraint.offLedgerSignature)))) →
      count.count? = some constraint.sigCount → HasMetadata shown (· < base) store metadata constraint.metadata →
      motive low (.address low) (.leaf constraint) (low + 1))
    (list : ∀ (connective : Connective) parts low middle words, store[middle]? = some (.list words) →
      store[middle + 1]? = some (.dict (listFields connective (.address middle))) →
      motives low words parts middle → motive low (.address (middle + 1)) (connective.tree parts) (middle + 2))
    (never : ∀ low, store[low]? = some (.dict [("constraint_id",strWord "FORBIDDEN")]) →
      motive low (.address low) .never (low + 1))
    (nil : ∀ low, motives low [] [] low)
    (cons : ∀ low middle high word words part parts, motive low word part middle →
      motives middle words parts high → motives low (word::words) (part::parts) high) :
    (∀ {low word tree high}, Shows shown base store low word tree high → motive low word tree high) ∧
      ∀ {low words trees high}, ShowsAll shown base store low words trees high → motives low words trees high := by
  have chain (parts : List Constraint) (each : ∀ part ∈ parts, ∀ {low high word},
      Shows shown base store low word part high → motive low word part high) {low words high}
      (all : ShowsAll shown base store low words parts high) : motives low words parts high := by
    induction parts generalizing low words high with
    | nil =>
      obtain ⟨rfl,rfl⟩ := showsAll_nil.mp all
      exact nil low
    | cons part parts ih =>
      obtain ⟨word,others,middle,rfl,first,rest⟩ := showsAll_cons.mp all
      exact cons low middle high word others part parts (each part List.mem_cons_self first)
        (ih (fun other listed => each other (.tail _ listed)) rest)
  have lists (connective : Connective) (parts : List Constraint) (each : ∀ part ∈ parts, ∀ {low high word},
      Shows shown base store low word part high → motive low word part high) {low word high}
      (shows : Shows shown base store low word (connective.tree parts) high) :
      motive low word (connective.tree parts) high := by
    obtain ⟨middle,words,rfl,rfl,items,fields,all⟩ := shows_list.mp shows
    exact list connective parts low middle words items fields (chain parts each all)
  have single (tree : Constraint) {low high word} (shows : Shows shown base store low word tree high) :
      motive low word tree high := by
    induction tree using AndOrTree.induct generalizing low word high with
    | leaf constraint =>
      obtain ⟨rfl,rfl,count,metadata,there,counts,has⟩ := shows_leaf.mp shows
      exact leaf low constraint count metadata there counts has
    | all parts ih => exact lists .and parts ih shows
    | any parts ih => exact lists .or parts ih shows
    | never =>
      obtain ⟨rfl,rfl,there⟩ := shows_never.mp shows
      exact never low there
  exact ⟨single _,chain _ fun part _ => single part⟩

/-- The cells from one address up to another are the same. -/
def SameBetween (store after : List PyCell) (low high : Nat) : Prop :=
  ∀ address, low ≤ address → address < high → after[address]? = store[address]?

/-- What is shown depends on its own cells and those of the metadata. -/
theorem shows_keep (shared : Kept (· < base) (· < base) store after) :
    (∀ {low word tree high}, Shows shown base store low word tree high →
      low < high ∧ (SameBetween store after low high → Shows shown base after low word tree high)) ∧
    ∀ {low words trees high}, ShowsAll shown base store low words trees high →
      low ≤ high ∧ (SameBetween store after low high → ShowsAll shown base after low words trees high) := by
  refine shows_rule ?_ ?_ ?_ ?_ ?_
  · intro low constraint count metadata there counts has
    refine ⟨Nat.lt_succ_self low,fun same => shows_leaf.mpr ⟨rfl,rfl,count,metadata,?_,counts,has.keep shared⟩⟩
    rw [same low le_rfl (Nat.lt_succ_self low)]
    exact there
  · intro connective parts low middle words items fields ih
    refine ⟨by omega,fun same => shows_list.mpr ⟨middle,words,rfl,rfl,?_,?_,ih.2 fun address above below => ?_⟩⟩
    · rw [same middle ih.1 (by omega)]
      exact items
    · rw [same (middle + 1) (by omega) (by omega)]
      exact fields
    · exact same address above (by omega)
  · intro low there
    refine ⟨Nat.lt_succ_self low,fun same => shows_never.mpr ⟨rfl,rfl,?_⟩⟩
    rw [same low le_rfl (Nat.lt_succ_self low)]
    exact there
  · exact fun low => ⟨le_rfl,fun _ => showsAll_nil.mpr ⟨rfl,rfl⟩⟩
  · intro low middle high word words part parts first rest
    refine ⟨first.1.le.trans rest.1,fun same => showsAll_cons.mpr ⟨word,words,middle,rfl,
      first.2 fun address above below => ?_,rest.2 fun address above below => ?_⟩⟩
    · exact same address above (below.trans_le rest.1)
    · exact same address (first.1.le.trans above) below

private theorem sameBetween_longer (longer : store <+: after) (within : high ≤ store.length) :
    SameBetween store after low high := by
  intro address _ below
  obtain ⟨rest,rfl⟩ := longer
  rw [List.getElem?_append_left (below.trans_le within)]

private theorem Shows.later {word : PyWord} {tree : Constraint} (shows : Shows shown base store low word tree high)
    (within : high ≤ store.length) (longer : store <+: after) : Shows shown base after low word tree high :=
  ((shows_keep (kept_of_longer longer fun _ => id)).1 shows).2 (sameBetween_longer longer within)

private theorem ShowsAll.later {words : List PyWord} {parts : List Constraint}
    (shows : ShowsAll shown base store low words parts high) (within : high ≤ store.length) (longer : store <+: after) :
    ShowsAll shown base after low words parts high :=
  ((shows_keep (kept_of_longer longer fun _ => id)).2 shows).2 (sameBetween_longer longer within)

/-- The document of a ROLE constraint. -/
def roleDocument (constraint : AuthConstraint) (count : PyScalar) (metadata : List (String × PyJson)) :
    List (String × PyJson) :=
  [("constraint_id",.scalar (.str "ROLE")),("role",.scalar (roleScalar constraint.role.value)),
    ("sig_count",.scalar count),("need_to_be_owner",.scalar (.bool constraint.needToBeOwner)),
    ("metadata",.object metadata)] ++
    match constraint.offLedgerSignature with
    | none => []
    | some value => [("off_ledger_signature",.scalar (.bool value))]

private theorem roleFields_read {inside : Nat → Prop} (constraint : AuthConstraint) (count : PyScalar) {word : PyWord}
    {metadata : List (String × PyJson)} (reads : Reads inside store word (.object metadata)) :
    List.Forall₂ (fun entry field => entry.1 = field.1 ∧ Reads inside store entry.2 field.2)
      (roleFields (.scalar (roleScalar constraint.role.value)) (.scalar count)
        (.scalar (.bool constraint.needToBeOwner)) word (.scalar (offScalar constraint.offLedgerSignature)))
      (roleDocument constraint count metadata) := by
  rw [roleFields,roleDocument,List.cons_append,List.cons_append,List.cons_append,List.cons_append,List.cons_append,
    List.cons_append,List.cons_append,List.cons_append,List.cons_append,List.cons_append]
  refine .cons ⟨rfl,reads_scalar.mpr rfl⟩ (.cons ⟨rfl,reads_scalar.mpr rfl⟩ (.cons ⟨rfl,reads_scalar.mpr rfl⟩
    (.cons ⟨rfl,reads_scalar.mpr rfl⟩ (.cons ⟨rfl,reads⟩ ?_))))
  cases constraint.offLedgerSignature with
  | none => exact .nil
  | some value => exact .cons ⟨rfl,reads_scalar.mpr rfl⟩ .nil

private theorem roleDocument_meaning (constraint : AuthConstraint) {count : PyScalar}
    (counts : count.count? = some constraint.sigCount) {metadata : List (String × PyJson)}
    (texts : constraint.metadata = metadata.map fun field => (field.1,shown field.2)) :
    RoleDocument shown (roleDocument constraint count metadata) constraint.role.value constraint.sigCount
      (some constraint.needToBeOwner) constraint.offLedgerSignature (some constraint.metadata) where
  constraintId := rfl
  role := rfl
  sigCount := ⟨count,rfl,counts⟩
  needToBeOwner := rfl
  offLedgerSignature := by
    rw [roleDocument]
    cases constraint.offLedgerSignature <;> rfl
  metadata := ⟨some metadata,rfl,congrArg some texts⟩

theorem asDict_list (connective : Connective) (parts : List Constraint) :
    Constraint.asDict (connective.tree parts) = connective.dict (Constraint.asDicts parts) := by
  cases connective <;> rw [Connective.tree,Constraint.asDict,Connective.dict]

/-- The document that is shown is the dictionary of the tree. -/
theorem shows_document :
    (∀ {low word tree high}, Shows shown base store low word tree high → ∃ document,
      Reads (fun _ => True) store word document ∧ Dictionary shown document (Constraint.asDict tree)) ∧
    ∀ {low words trees high}, ShowsAll shown base store low words trees high → ∃ items,
      List.Forall₂ (Reads (fun _ => True) store) words items ∧
        List.Forall₂ (Dictionary shown) items (Constraint.asDicts trees) := by
  refine shows_rule ?_ ?_ ?_ ?_ ?_
  · intro low constraint count metadata there counts has
    obtain ⟨fields,reads,texts⟩ := has
    refine ⟨.object (roleDocument constraint count fields),reads_object.mpr ⟨low,_,rfl,trivial,there,
      roleFields_read constraint count (reads.keep (kept_of_longer List.prefix_rfl fun _ _ => trivial))⟩,?_⟩
    rw [Constraint.asDict,AuthConstraint.asDict]
    simp only [Dictionary]
    exact ⟨_,rfl,roleDocument_meaning constraint counts texts⟩
  · intro connective parts low middle words list fields ih
    obtain ⟨items,reads,documents⟩ := ih
    refine ⟨.object [("constraint_id",.scalar (.str connective.constraintId)),("auth_constraints",.list items)],
      reads_object.mpr ⟨middle + 1,_,rfl,trivial,fields,.cons ⟨rfl,reads_scalar.mpr rfl⟩
        (.cons ⟨rfl,reads_list.mpr ⟨middle,words,rfl,trivial,list,reads⟩⟩ .nil)⟩,?_⟩
    rw [asDict_list]
    exact dictionary_list.mpr ⟨_,items,rfl,⟨rfl,rfl,by simp⟩,documents⟩
  · intro low there
    refine ⟨.object [("constraint_id",.scalar (.str "FORBIDDEN"))],
      reads_object.mpr ⟨low,_,rfl,trivial,there,.cons ⟨rfl,reads_scalar.mpr rfl⟩ .nil⟩,?_⟩
    rw [Constraint.asDict]
    simp only [Dictionary]
    exact ⟨_,rfl,rfl⟩
  · intro low
    rw [Constraint.asDicts]
    exact ⟨[],.nil,.nil⟩
  · intro low middle high word words part parts first rest
    obtain ⟨document,reads,isDict⟩ := first
    obtain ⟨items,all,documents⟩ := rest
    rw [Constraint.asDicts]
    exact ⟨document :: items,.cons reads all,.cons isDict documents⟩

end Shows

section Print
variable {shown : PyJson → String} {base : Nat} {store : List PyCell}

/-- Any object of the tree is shown in new cells, the same ones with any fuel that suffices. -/
def Prints (shown : PyJson → String) (base : Nat) (tree : Constraint) : Prop :=
  ∀ word store, base ≤ store.length → Holds shown (· < base) store word tree → ∃ dict after,
    (∀ fuel, (Constraint.asDict tree).depth < fuel → objectAsDict fuel word store = (.ok dict,after)) ∧
      store <+: after ∧ Shows shown base after store.length dict tree after.length

private theorem each_prints {parts : List Constraint} (step : ∀ part ∈ parts, Prints shown base part)
    (within : base ≤ store.length) {words : List PyWord}
    (hold : List.Forall₂ (Holds shown (· < base) store) words parts) : ∃ dicts after,
      (∀ fuel, ConstraintDict.depths (Constraint.asDicts parts) < fuel →
        each (objectAsDict fuel) words store = (.ok dicts,after)) ∧
      store <+: after ∧ ShowsAll shown base after store.length dicts parts after.length := by
  induction parts generalizing store words with
  | nil =>
    cases hold
    exact ⟨[],store,fun _ _ => rfl,List.prefix_rfl,showsAll_nil.mpr ⟨rfl,rfl⟩⟩
  | cons part parts ih =>
    cases hold with
    | @cons word _ words _ here rest =>
    obtain ⟨dict,middle,run,longer,shows⟩ := step part List.mem_cons_self word store within here
    obtain ⟨dicts,after,runs,further,all⟩ := ih (fun other listed => step other (.tail _ listed))
      (within.trans longer.length_le) (rest.imp fun _ _ holds => holds.keep (kept_of_longer longer fun _ => id))
    refine ⟨dict :: dicts,after,fun fuel enough => ?_,longer.trans further,
      showsAll_cons.mpr ⟨dict,dicts,middle.length,rfl,shows.later le_rfl further,all⟩⟩
    rw [Constraint.asDicts,ConstraintDict.depths] at enough
    rw [each,bind_run (run fuel ((le_max_left _ _).trans_lt enough)),
      bind_run (runs fuel ((le_max_right _ _).trans_lt enough))]
    rfl

private theorem prints_list (connective : Connective) {parts : List Constraint}
    (step : ∀ part ∈ parts, Prints shown base part) : Prints shown base (connective.tree parts) := by
  intro word store within holds
  obtain ⟨address,list,words,rfl,_,there,_,items,hold⟩ := holds_list.mp holds
  obtain ⟨dicts,after,runs,longer,all⟩ := each_prints step within hold
  refine ⟨.address (after.length + 1),after ++ [.list dicts,.dict (listFields connective (.address after.length))],
    fun fuel enough => ?_,longer.trans (List.prefix_append _ _),?_⟩
  · rw [asDict_list,depth_list] at enough
    obtain _ | fuel := fuel
    · cases enough
    rw [objectAsDict,bind_run (loadObject_run there)]
    change (loadList (.address list) >>= fun parts => each (objectAsDict fuel) parts >>= fun dicts => _) store = _
    rw [bind_run (loadList_run items),bind_run (runs fuel (Nat.lt_of_succ_lt_succ enough))]
    simp [bind_run (alloc_run _ _)]
  · have size : (after ++ [HeapCell.list dicts,HeapCell.dict (listFields connective (.address after.length))]).length =
        after.length + 2 := by simp
    rw [size]
    refine shows_list.mpr ⟨after.length,dicts,rfl,rfl,?_,?_,all.later le_rfl (List.prefix_append _ _)⟩
    · simp
    · simp

theorem prints (tree : Constraint) : Prints shown base tree := by
  induction tree using AndOrTree.induct with
  | leaf constraint =>
    intro word store within holds
    obtain ⟨address,count,metadata,rfl,_,there,counts,has⟩ := holds_leaf.mp holds
    refine ⟨_,_,fun fuel enough => ?_,List.prefix_append _ _,shows_leaf.mpr ⟨rfl,?_,count,metadata,
      List.getElem?_concat_length,counts,has.keep (kept_of_longer (List.prefix_append _ _) fun _ => id)⟩⟩
    · obtain _ | fuel := fuel
      · cases enough
      exact bind_run (loadObject_run there) _
    · exact List.length_append
  | all parts ih => exact prints_list .and ih
  | any parts ih => exact prints_list .or ih
  | never =>
    intro word store within holds
    obtain ⟨address,rfl,_,there⟩ := holds_never.mp holds
    refine ⟨_,_,fun fuel enough => ?_,List.prefix_append _ _,
      shows_never.mpr ⟨rfl,List.length_append,List.getElem?_concat_length⟩⟩
    obtain _ | fuel := fuel
    · cases enough
    exact bind_run (loadObject_run there) _

end Print
end IndyNode.Authorize

import IndyNode.Nym.Operation
import IndyNode.Authorize.Signatures

/-! The check of `diddocContent` against the rule it stands for: no `id` at the
root and no object with the fragment `verkey` anywhere. The check looks at the
objects that lie directly in a list at the root. -/
namespace IndyNode.Nym

section Trees

/-- `part` is the document or occurs in it, at any depth. -/
inductive Json.Inside (part : Json) : Json → Prop
  | here : Inside part part
  | item (item : Json) (items : List Json) (member : item ∈ items) (deeper : Inside part item) :
      Inside part (.arr items)
  | field (key : String) (value : Json) (fields : List (String × Json)) (member : (key,value) ∈ fields)
      (deeper : Inside part value) : Inside part (.obj fields)

private theorem inside_arr (part : Json) (items : List Json) :
    Json.Inside part (.arr items) ↔ part = .arr items ∨ ∃ item ∈ items, Json.Inside part item := by
  constructor
  · intro inside
    cases inside with
    | here => exact .inl rfl
    | item item _ member deeper => exact .inr ⟨item,member,deeper⟩
  · rintro (rfl | ⟨item,member,deeper⟩)
    · exact .here
    · exact .item item items member deeper

private theorem inside_obj (part : Json) (fields : List (String × Json)) :
    Json.Inside part (.obj fields) ↔
      part = .obj fields ∨ ∃ field ∈ fields, Json.Inside part field.2 := by
  constructor
  · intro inside
    cases inside with
    | here => exact .inl rfl
    | field key value _ member deeper => exact .inr ⟨(key,value),member,deeper⟩
  · rintro (rfl | ⟨⟨key,value⟩,member,deeper⟩)
    · exact .here
    · exact .field key value fields member deeper

private theorem inside_str (part : Json) (text : String) : Json.Inside part (.str text) ↔ part = .str text := by
  constructor
  · intro inside
    cases inside
    rfl
  · rintro rfl
    exact .here

def Json.id? : Json → Option Json
  | .obj fields => fields.lookup "id"
  | _ => none

def Json.namesFragment (wanted : String) (item : Json) : Bool :=
  match item.id? with
  | some (.str text) => fragment text = wanted
  | _ => false

def Json.oddId (item : Json) : Bool :=
  match item.id? with
  | some (.str _) => false
  | some _ => true
  | none => false

def Json.listItems : Json → List Json
  | .arr items => items
  | _ => []

def listedItems (fields : List (String × Json)) : List Json :=
  fields.flatMap (fun field => field.2.listItems)

private theorem listed_inside (fields : List (String × Json)) (item : Json)
    (listed : item ∈ listedItems fields) : Json.Inside item (.obj fields) := by
  obtain ⟨field,member,inside⟩ := List.mem_flatMap.mp listed
  refine (inside_obj item fields).mpr (.inr ⟨field,member,?_⟩)
  cases value : field.2 with
  | arr items =>
    rw [value] at inside
    exact .item item items inside .here
  | null | bool _ | num _ | str _ | obj _ =>
    rw [value] at inside
    cases inside

end Trees

section Scan

theorem hasSameIdFragment_eq (item : Json) (wanted : String) :
    hasSameIdFragment item wanted =
      if item.oddId then .error .attributeError else .ok (item.namesFragment wanted) := by
  cases item with
  | obj fields =>
    cases found : fields.lookup "id" with
    | none => simp [hasSameIdFragment,Json.oddId,Json.namesFragment,Json.id?,found]
    | some value =>
      cases value <;> simp [hasSameIdFragment,Json.oddId,Json.namesFragment,Json.id?,found]
  | null | bool _ | num _ | str _ | arr _ => rfl

private theorem anySameIdFragment_append (wanted : String) (front back : List Json) :
    anySameIdFragment wanted (front ++ back) =
      (do if ← anySameIdFragment wanted front then return true
          anySameIdFragment wanted back) := by
  induction front with
  | nil => rfl
  | cons item front ih =>
    simp only [List.cons_append,anySameIdFragment,ih,bind_assoc]
    congr 1
    funext same
    cases same <;> rfl

/-- The lists at the root are scanned as one list. -/
theorem anyListHolds_eq (wanted : String) (fields : List (String × Json)) :
    anyListHolds wanted (fields.map Prod.snd) = anySameIdFragment wanted (listedItems fields) := by
  induction fields with
  | nil => rfl
  | cons field fields ih =>
    obtain ⟨key,value⟩ := field
    have split : listedItems ((key,value)::fields) = value.listItems ++ listedItems fields := rfl
    rw [split,anySameIdFragment_append,← ih]
    cases value <;> rfl

private theorem anySameIdFragment_false (wanted : String) (items : List Json) :
    anySameIdFragment wanted items = .ok false ↔
      ∀ item ∈ items, item.oddId = false ∧ item.namesFragment wanted = false := by
  induction items with
  | nil => simp [anySameIdFragment]
  | cons item items ih =>
    rw [List.forall_mem_cons,← ih,anySameIdFragment,hasSameIdFragment_eq]
    cases item.oddId with
    | true => simp
    | false => cases item.namesFragment wanted <;> simp [pure,Except.pure]

/-- The `id` at the root counts as one only if it is truthy. -/
def rootId (fields : List (String × Json)) : Bool := ((fields.lookup "id").map Json.truth).getD false

private theorem validateDiddocContent_none (fields : List (String × Json)) :
    validateDiddocContent (.obj fields) = .ok none ↔ rootId fields = false ∧
      ∀ item ∈ listedItems fields, item.oddId = false ∧ item.namesFragment "verkey" = false := by
  rw [← anySameIdFragment_false,← anyListHolds_eq,validateDiddocContent,← rootId]
  cases rootId fields with
  | true =>
    refine iff_of_false (fun accepted => ?_) (fun both => Bool.noConfusion both.1)
    exact Option.some_ne_none _ (Except.ok.inj accepted)
  | false =>
    cases anyListHolds "verkey" (fields.map Prod.snd) with
    | error raised => exact iff_of_false (fun accepted => by cases accepted) (fun both => by cases both.2)
    | ok holds =>
      cases holds with
      | true =>
        refine iff_of_false (fun accepted => ?_) (fun both => by cases both.2)
        exact Option.some_ne_none _ (Except.ok.inj accepted)
      | false => exact iff_of_true rfl ⟨rfl,rfl⟩

end Scan

section Rule

/-- The rule: no `id` at the root, and nowhere an object with the fragment
`verkey`. -/
structure Proper (fields : List (String × Json)) : Prop where
  unnamed : fields.lookup "id" = none
  free : ∀ part, Json.Inside part (.obj fields) → part.namesFragment "verkey" = false

def falsyId (fields : List (String × Json)) : Bool :=
  ((fields.lookup "id").map (fun value => !value.truth)).getD false

/-- An object with the fragment `verkey` lies outside the lists at the root. -/
def Buried (fields : List (String × Json)) : Prop :=
  ∃ part, Json.Inside part (.obj fields) ∧ part.namesFragment "verkey" = true ∧
    part ∉ listedItems fields

/-- The documents on which the check and the rule agree: the check refuses them
for a reason the rule has too, or what the check overlooks coincides with what
it fails on. -/
def Covered (fields : List (String × Json)) : Prop :=
  rootId fields = true ∨ (∃ item ∈ listedItems fields, item.namesFragment "verkey" = true) ∨
    ((falsyId fields = true ∨ Buried fields) ↔ ∃ item ∈ listedItems fields, item.oddId = true)

private theorem lookup_id_none (fields : List (String × Json)) :
    fields.lookup "id" = none ↔ rootId fields = false ∧ falsyId fields = false := by
  rw [rootId,falsyId]
  cases fields.lookup "id" with
  | none => simp
  | some value => cases truth : value.truth <;> simp [truth]

private theorem proper_iff (fields : List (String × Json))
    (unlisted : ∀ item ∈ listedItems fields, item.namesFragment "verkey" = false) :
    Proper fields ↔ rootId fields = false ∧ falsyId fields = false ∧ ¬Buried fields := by
  rw [← and_assoc,← lookup_id_none]
  constructor
  · intro proper
    refine ⟨proper.unnamed,?_⟩
    rintro ⟨part,inside,names,_⟩
    rw [proper.free part inside] at names
    cases names
  · rintro ⟨unnamed,shallow⟩
    refine ⟨unnamed,fun part inside => ?_⟩
    by_contra names
    rw [Bool.not_eq_false] at names
    refine shallow ⟨part,inside,names,fun listed => ?_⟩
    rw [unlisted part listed] at names
    cases names

private theorem validated_iff_proper (fields : List (String × Json)) :
    (validateDiddocContent (.obj fields) = .ok none ↔ Proper fields) ↔ Covered fields := by
  rw [validateDiddocContent_none,Covered]
  by_cases root : rootId fields = true
  · have named : ¬Proper fields := by
      intro proper
      have unnamed := ((lookup_id_none fields).mp proper.unnamed).1
      rw [root] at unnamed
      cases unnamed
    simp [root,named]
  · have root : rootId fields = false := by simpa using root
    by_cases listed : ∃ item ∈ listedItems fields, item.namesFragment "verkey" = true
    · obtain ⟨item,member,names⟩ := listed
      have refused : ¬∀ item ∈ listedItems fields,
          item.oddId = false ∧ item.namesFragment "verkey" = false := by
        intro quiet
        rw [(quiet item member).2] at names
        cases names
      have improper : ¬Proper fields := by
        intro proper
        rw [proper.free item (listed_inside fields item member)] at names
        cases names
      have some_listed : ∃ item ∈ listedItems fields, item.namesFragment "verkey" = true :=
        ⟨item,member,names⟩
      simp only [refused,improper,and_false,some_listed,true_or,or_true]
    · have unlisted : ∀ item ∈ listedItems fields, item.namesFragment "verkey" = false := by
        simpa using listed
      rw [proper_iff fields unlisted]
      have quiet : (∀ item ∈ listedItems fields,
          item.oddId = false ∧ item.namesFragment "verkey" = false) ↔
          ¬∃ item ∈ listedItems fields, item.oddId = true := by
        simp only [not_exists,not_and,Bool.not_eq_true]
        exact forall₂_congr (fun item member => and_iff_left (unlisted item member))
      simp only [quiet,root,listed,true_and,false_or,Bool.false_eq_true]
      rw [← Bool.not_eq_true,← not_or,not_iff_not]
      exact Iff.comm

end Rule

/-- For a request that is well formed otherwise, static validation accepts the
document exactly when it satisfies the rule, if and only if it is covered. -/
theorem diddoc_accepted_iff (loads : String → Except Raised Json) (req : ClientRequest)
    (text : String) (fields : List (String × Json)) (dest : Authorize.Did) (role : Option Authorize.Role)
    (given : req.operation.diddocContent.get = some text) (nonempty : text ≠ "")
    (parsed : loads text = .ok (.obj fields)) (valid_dest : validDest req = .ok dest)
    (valid_role : checkRole req = .ok role) (valid_version : checkVersion req = .ok ()) :
    ((∃ op, staticValidation loads req = .ok op) ↔ Proper fields) ↔ Covered fields := by
  rw [← validated_iff_proper]
  have checked : (∃ op, staticValidation loads req = .ok op) ↔
      validateDiddocContent (.obj fields) = .ok none := by
    simp only [staticValidation,checkDiddoc,valid_dest,valid_role,valid_version,given,parsed,ok_bind,
      if_neg nonempty]
    cases validateDiddocContent (.obj fields) with
    | error raised => simp
    | ok reason =>
      cases reason with
      | none => simp [pure,Except.pure]
      | some reason => simp [throw_eq]
  rw [checked]

def documentRequest (text : String) : ClientRequest :=
  ⟨Authorize.signedByAAndB,⟨nymType,some "B",none,none,some (some text),none⟩⟩

theorem diddoc_with_plain_service :
    (∃ op, staticValidation
        (fun _ => .ok (.obj [("service",.arr [.obj [("id",.str "#agent")]])])) (documentRequest "doc") =
        .ok op) ↔
      Proper [("service",.arr [.obj [("id",.str "#agent")]])] := by
  apply (diddoc_accepted_iff _ (documentRequest "doc") "doc"
    [("service",.arr [.obj [("id",.str "#agent")]])] ⟨"B",by decide⟩ none rfl (by decide) rfl rfl rfl
    rfl).mpr
  refine .inr (.inr (iff_of_false ?_ ?_))
  · rintro (falsy | ⟨part,inside,names,unlisted⟩)
    · cases falsy
    · simp only [inside_obj,inside_arr,inside_str,List.mem_singleton,exists_eq_left] at inside
      rcases inside with rfl | rfl | rfl | rfl
      · cases names
      · cases names
      · revert names
        decide
      · cases names
  · rintro ⟨item,listed,odd⟩
    obtain rfl := List.mem_singleton.mp listed
    cases odd

/-- An empty `id` at the root and an object that is no list item are accepted; a
number as `id` in a list fails although the rule has nothing against it. -/
theorem diddoc_check_differs :
    (∃ op, staticValidation (fun _ => .ok (.obj [("id",.str "")])) (documentRequest "doc") = .ok op) ∧
      ¬Proper [("id",.str "")] ∧
      (∃ op, staticValidation (fun _ => .ok (.obj [("key",.obj [("id",.str "#verkey")])]))
        (documentRequest "doc") = .ok op) ∧
      ¬Proper [("key",.obj [("id",.str "#verkey")])] ∧
      staticValidation (fun _ => .ok (.obj [("key",.arr [.obj [("id",.num false)]])]))
        (documentRequest "doc") = .error .attributeError := by
  refine ⟨⟨_,rfl⟩,?_,⟨_,rfl⟩,?_,rfl⟩
  · intro proper
    cases proper.unnamed
  · intro proper
    have names := proper.free (.obj [("id",.str "#verkey")]) (by simp [inside_obj])
    revert names
    decide

end IndyNode.Nym

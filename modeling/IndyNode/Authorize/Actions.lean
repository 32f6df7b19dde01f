import IndyNode.Python

/-! `auth_actions.py`: the actions a request asks for and their identifiers, and
the names of transaction types in `transactions.py`. -/
namespace IndyNode.Authorize

structure ActionDef where
  txnType : String
  prefixName : String
  field : String
  oldValue : String
  newValue : String
deriving DecidableEq, Repr

/-- `RULE_DELIMETER.join([...])`. -/
def compileActionId (action : ActionDef) : String :=
  "--".intercalate
    [action.txnType,action.prefixName,action.field,action.oldValue,action.newValue]

/-- `text.split("--")`: separators are found from the left and do not overlap. -/
def splitDelimiter : List Char → List (List Char)
  | [] => [[]]
  | '-' :: '-' :: rest => [] :: splitDelimiter rest
  | c :: rest =>
    match splitDelimiter rest with
    | [] => [[c]]
    | first :: others => (c :: first) :: others

/-- `ActionDef(*action_id.split(RULE_DELIMETER))` needs exactly five parts. -/
def splitActionId (actionId : String) : Except Raised ActionDef :=
  match splitDelimiter actionId.toList with
  | [txnType,prefixName,field,oldValue,newValue] =>
    .ok ⟨.ofList txnType,.ofList prefixName,.ofList field,.ofList oldValue,.ofList newValue⟩
  | _ => .error .typeError

section
variable (part rest : List Char) (clean : '-' ∉ part)
include clean

theorem splitDelimiter_append :
    splitDelimiter (part ++ '-' :: '-' :: rest) = part :: splitDelimiter rest := by
  induction part with
  | nil => rfl
  | cons c part ih =>
    rw [List.cons_append,splitDelimiter,ih (fun member => clean (List.mem_cons_of_mem c member))]
    intro _ dash _
    exact clean (by rw [dash]; exact List.mem_cons_self)

private theorem splitDelimiter_clean : splitDelimiter part = [part] := by
  induction part with
  | nil => rfl
  | cons c part ih =>
    rw [splitDelimiter,ih (fun member => clean (List.mem_cons_of_mem c member))]
    intro _ dash _
    exact clean (by rw [dash]; exact List.mem_cons_self)

end

/-- No part of the action contains a dash. -/
def ActionDef.Clean (action : ActionDef) : Prop :=
  '-' ∉ action.txnType.toList ∧ '-' ∉ action.prefixName.toList ∧ '-' ∉ action.field.toList ∧
    '-' ∉ action.oldValue.toList ∧ '-' ∉ action.newValue.toList

instance : DecidablePred ActionDef.Clean := fun _ =>
  inferInstanceAs (Decidable (_ ∧ _ ∧ _ ∧ _ ∧ _))

/-- Identifiers made of parts without dashes are split into the same parts. -/
theorem splitActionId_compile (action : ActionDef) (clean : action.Clean) :
    splitActionId (compileActionId action) = .ok action := by
  obtain ⟨txnType,prefixName,field,oldValue,newValue⟩ := clean
  have shape : (compileActionId action).toList =
      action.txnType.toList ++ '-' :: '-' :: (action.prefixName.toList ++ '-' :: '-' ::
        (action.field.toList ++ '-' :: '-' :: (action.oldValue.toList ++ '-' :: '-' ::
          action.newValue.toList))) := by
    simp [compileActionId]
  rw [splitActionId,shape,splitDelimiter_append _ _ txnType,splitDelimiter_append _ _ prefixName,
    splitDelimiter_append _ _ field,splitDelimiter_append _ _ oldValue,
    splitDelimiter_clean _ newValue]
  simp only [String.ofList_toList]

inductive AuthAction where
  | add (txnType field value : String) (isOwner : Bool)
  | edit (txnType field oldValue newValue : String) (isOwner : Bool)
deriving DecidableEq, Repr

namespace AuthAction

def txnType : AuthAction → String
  | .add txnType _ _ _ => txnType
  | .edit txnType _ _ _ _ => txnType

def field : AuthAction → String
  | .add _ field _ _ => field
  | .edit _ field _ _ _ => field

def isOwner : AuthAction → Bool
  | .add _ _ _ isOwner => isOwner
  | .edit _ _ _ _ isOwner => isOwner

def actionDef : AuthAction → ActionDef
  | .add txnType field value _ => ⟨txnType,"ADD",field,"*",value⟩
  | .edit txnType field oldValue newValue _ => ⟨txnType,"EDIT",field,oldValue,newValue⟩

/-- `get_action_id`. -/
def actionId (action : AuthAction) : String := compileActionId action.actionDef

end AuthAction

def txnNames : List (String × String) :=
  [("0","NODE"),("1","NYM"),("100","ATTRIB"),("101","SCHEMA"),("102","CLAIM_DEF"),("103","DISCLO"),
    ("104","GET_ATTR"),("105","GET_NYM"),("3","GET_TXNS"),("107","GET_SCHEMA"),
    ("108","GET_CLAIM_DEF"),("109","POOL_UPGRADE"),("110","NODE_UPGRADE"),("111","POOL_CONFIG"),
    ("112","CHANGE_KEY"),("113","REVOC_REG_DEF"),("114","REVOC_REG_ENTRY"),
    ("115","GET_REVOC_REG_DEF"),("116","GET_REVOC_REG"),("117","GET_REVOC_REG_DELTA"),
    ("118","POOL_RESTART"),("119","VALIDATOR_INFO"),("120","AUTH_RULE"),("121","GET_AUTH_RULE"),
    ("122","AUTH_RULES"),("130","FLAG"),("131","GET_FLAG"),("200","JSON_LD_CONTEXT"),
    ("201","RICH_SCHEMA"),("202","RICH_SCHEMA_ENCODING"),("203","RICH_SCHEMA_MAPPING"),
    ("204","RICH_SCHEMA_CRED_DEF"),("205","RICH_SCHEMA_PRES_DEF"),
    ("300","GET_RICH_SCHEMA_OBJECT_BY_ID"),("301","GET_RICH_SCHEMA_OBJECT_BY_METADATA")]

def getNameFromCode (code : String) : String :=
  (txnNames.lookup code).getD "Unknown_transaction_type"

end IndyNode.Authorize

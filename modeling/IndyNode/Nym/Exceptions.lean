import IndyNode.Authorize.ActionLists
import IndyNode.Nym.Diddoc

/-! Which exceptions leave the two validation stages of a NYM. Refusals are
`InvalidClientRequest` and `UnauthorizedClientRequest`; the document check and
the decoding of the key can raise others. -/
namespace IndyNode.Nym
open Authorize

def isRefusal : Raised → Bool
  | .invalidClientRequest _ _ _ => true
  | .unauthorizedClientRequest _ _ _ => true
  | _ => false

section Static

/-- The scan reaches an `id` that is no text before it finds the fragment. -/
def Stumbles (items : List Json) : Prop :=
  ∃ before item after, items = before ++ item :: after ∧
    (∀ early ∈ before, early.namesFragment "verkey" = false) ∧ item.oddId = true

private theorem stumbles_cons (item : Json) (items : List Json) : Stumbles (item::items) ↔
    item.oddId = true ∨ (item.namesFragment "verkey" = false ∧ Stumbles items) := by
  constructor
  · rintro ⟨before,odd,after,shape,quiet,strange⟩
    cases before with
    | nil =>
      obtain ⟨rfl,_⟩ := List.cons.inj shape
      exact .inl strange
    | cons first before =>
      obtain ⟨rfl,rest⟩ := List.cons.inj shape
      exact .inr ⟨quiet item (by simp),before,odd,after,rest,
        fun early member => quiet early (by simp [member]),strange⟩
  · rintro (strange | ⟨quiet,before,odd,after,rfl,others,strange⟩)
    · exact ⟨[],item,items,rfl,by simp,strange⟩
    · exact ⟨item::before,odd,after,rfl,by simpa [quiet] using others,strange⟩

private theorem anySameIdFragment_raises (items : List Json) :
    RaisesOnly isRefusal (anySameIdFragment "verkey" items) ↔ ¬Stumbles items := by
  induction items with
  | nil =>
    simp [anySameIdFragment,Stumbles]
  | cons item items ih =>
    rw [stumbles_cons,anySameIdFragment,hasSameIdFragment_eq]
    cases item.oddId with
    | true => simp [isRefusal]
    | false => cases item.namesFragment "verkey" <;> simp [ih,pure,Except.pure]

def Shapely (doc : Json) : Prop :=
  ∃ fields, doc = .obj fields ∧ (rootId fields = true ∨ ¬Stumbles (listedItems fields))

private theorem validateDiddocContent_raises (doc : Json) :
    RaisesOnly isRefusal (validateDiddocContent doc) ↔ Shapely doc := by
  cases doc with
  | obj fields =>
    have only : Shapely (.obj fields) ↔ rootId fields = true ∨ ¬Stumbles (listedItems fields) := by
      simp [Shapely]
    rw [only,← anySameIdFragment_raises,← anyListHolds_eq,validateDiddocContent,← rootId]
    cases rootId fields with
    | true => exact iff_of_true (raisesOnly_ok _ _) (.inl rfl)
    | false =>
      simp only [Bool.false_eq_true,if_false,false_or]
      cases anyListHolds "verkey" (fields.map Prod.snd) with
      | error raised => rw [error_bind,raisesOnly_error,raisesOnly_error]
      | ok holds => cases holds <;> exact iff_of_true (raisesOnly_ok _ _) (raisesOnly_ok _ _)
  | null | bool _ | num _ | str _ | arr _ => simp [validateDiddocContent,Shapely,isRefusal]

/-- The document of an operation, if there is one, is checked to the end. -/
def ShapelyDocument (loads : String → Except Raised Json) (req : ClientRequest) : Prop :=
  ∀ text doc, req.operation.diddocContent.get = some text → text ≠ "" → loads text = .ok doc →
    Shapely doc

/-- What the message schema says of an operation that reaches the handler. -/
structure SchemaAccepted (loads : String → Except Raised Json) (req : ClientRequest) : Prop where
  parses : ∀ text, req.operation.diddocContent.get = some text → ∃ doc, loads text = .ok doc
  undashed : ∀ verkey, req.operation.verkey.get = some verkey → '-' ∉ verkey.toList

private theorem validDest_raises (req : ClientRequest) : RaisesOnly isRefusal (validDest req) := by
  unfold validDest
  split
  · simp [invalid,isRefusal]
  · split
    · simp [invalid,isRefusal]
    · exact raisesOnly_ok _ _

private theorem checkRole_raises (req : ClientRequest) : RaisesOnly isRefusal (checkRole req) := by
  unfold checkRole
  split
  · exact raisesOnly_ok _ _
  · split
    · exact raisesOnly_ok _ _
    · simp [invalid,isRefusal]

private theorem checkVersion_raises (req : ClientRequest) : RaisesOnly isRefusal (checkVersion req) := by
  unfold checkVersion
  split
  · exact raisesOnly_ok _ _
  · split
    · exact raisesOnly_ok _ _
    · simp [invalid,isRefusal]

private theorem checkDiddoc_raises (loads : String → Except Raised Json) (req : ClientRequest)
    (schema : SchemaAccepted loads req) :
    RaisesOnly isRefusal (checkDiddoc loads req) ↔ ShapelyDocument loads req := by
  unfold checkDiddoc ShapelyDocument
  cases given : req.operation.diddocContent.get with
  | none => simp
  | some text =>
    obtain ⟨doc,parsed⟩ := schema.parses text given
    by_cases empty : text = ""
    · refine iff_of_true (by simp [empty]) ?_
      intro other _ same nonempty
      obtain rfl := Option.some.inj same
      exact absurd empty nonempty
    · simp only [if_neg empty,parsed,ok_bind,Option.some.injEq]
      rw [raisesOnly_bind,validateDiddocContent_raises]
      constructor
      · rintro ⟨shapely,_⟩ _ other rfl _ again
        rwa [← Except.ok.inj (parsed.symm.trans again)]
      · intro all
        refine ⟨all text doc rfl empty parsed,?_⟩
        intro reason _
        cases reason with
        | none => exact raisesOnly_ok _ _
        | some reason => exact (raisesOnly_error _ _).mpr rfl

theorem staticValidation_raises (loads : String → Except Raised Json) (req : ClientRequest)
    (schema : SchemaAccepted loads req) :
    RaisesOnly isRefusal (staticValidation loads req) ↔
      ∀ dest role, validDest req = .ok dest → checkRole req = .ok role → ShapelyDocument loads req := by
  have rest (dest : Did) (role : Option Role) : RaisesOnly isRefusal (do
      checkDiddoc loads req
      checkVersion req
      return (⟨dest,role,req.operation.verkey,req.operation.diddocContent,req.operation.version⟩ :
        NymOperation)) ↔ ShapelyDocument loads req := by
    rw [raisesOnly_bind,checkDiddoc_raises loads req schema,and_iff_left_iff_imp]
    intro _ _ _
    rw [raisesOnly_bind]
    exact ⟨checkVersion_raises req,fun _ _ => raisesOnly_ok _ _⟩
  rw [staticValidation,raisesOnly_bind,and_iff_right (validDest_raises req)]
  refine forall_congr' (fun dest => ?_)
  constructor
  · intro static role valid_dest valid_role
    have static := static valid_dest
    rw [raisesOnly_bind] at static
    exact (rest dest role).mp (static.2 role valid_role)
  · intro shapely valid_dest
    rw [raisesOnly_bind]
    exact ⟨checkRole_raises req,fun role valid_role =>
      (rest dest role).mpr (shapely role valid_dest valid_role)⟩

end Static

section Dynamic
variable (setup : NymSetup) (cache : IdrCache) (req : Request) (op : NymOperation)

theorem raiseIf_raises (wrong : Bool) (reason : String) :
    RaisesOnly isRefusal (raiseIf req wrong reason) := by
  cases wrong with
  | false => exact raisesOnly_ok _ _
  | true => exact (raisesOnly_error _ _).mpr rfl

theorem validate_raises_split (rules : setup.config.authMap = authMap) {action : AuthAction} {parts : ActionDef}
    (split : splitActionId action.actionId = .ok parts) :
    RaisesOnly isRefusal (validate setup.config cache req [action]) := by
  have found : ∃ found, getAuthConstraint setup.config action.actionId = .ok found := by
    rw [getAuthConstraint,rules,authMap,findAuthConstraintKey_split authRules authRules_clean parts
      action.actionId split,ok_bind]
    cases (authRules.find? fun entry => entry.1.actionDef.accepts parts).map
      fun entry => entry.1.actionId with
    | none => exact ⟨none,rfl⟩
    | some amId =>
      cases setup.config.policy with
      | localAuth => exact ⟨_,rfl⟩
      | configLedger => exact ⟨_,rfl⟩
  by_cases allowed : Allowed setup.config cache req action
  · rw [(validate_iff setup.config cache req action []).mpr allowed]
    exact raisesOnly_ok _ _
  · obtain ⟨reason,refused⟩ := (validate_refused setup.config cache req action [] allowed).mpr found
    rw [refused]
    exact (raisesOnly_error _ _).mpr rfl

/-- An action whose parts are free of dashes is looked up and decided. -/
theorem validate_raises (rules : setup.config.authMap = authMap) (action : AuthAction)
    (clean : action.actionDef.Clean) : RaisesOnly isRefusal (validate setup.config cache req [action]) :=
  validate_raises_split setup cache req rules (splitActionId_compile _ clean)

private theorem role_code_clean (role : Role) : '-' ∉ role.code.toList := by
  cases role <;> decide

private theorem edit_clean (field oldValue newValue : String) (isOwner : Bool)
    (field_clean : '-' ∉ field.toList) (old_clean : '-' ∉ oldValue.toList)
    (new_clean : '-' ∉ newValue.toList) :
    (AuthAction.edit nymType field oldValue newValue isOwner).actionDef.Clean :=
  ⟨(by decide : '-' ∉ nymType.toList),(by decide : '-' ∉ "EDIT".toList),field_clean,old_clean,new_clean⟩

private theorem validateUpdate_raises (rules : setup.config.authMap = authMap) (field oldValue : String)
    (newValue : Option String) (isOwner : Bool) (field_clean : '-' ∉ field.toList)
    (old_clean : '-' ∉ oldValue.toList) (new_clean : ∀ value ∈ newValue, '-' ∉ value.toList) :
    RaisesOnly isRefusal (validateUpdate setup cache req field oldValue newValue isOwner) := by
  cases newValue with
  | none => exact raisesOnly_ok _ _
  | some value =>
    exact validate_raises setup cache req rules (.edit nymType field oldValue value isOwner)
      (edit_clean field oldValue value isOwner field_clean old_clean (new_clean value rfl))

private theorem validateExistingNym_raises (rules : setup.config.authMap = authMap) (entry : CacheEntry)
    (stored : ∀ verkey, entry.verkey = some verkey → '-' ∉ verkey.toList)
    (given : ∀ verkey, op.verkey.get = some verkey → '-' ∉ verkey.toList) :
    RaisesOnly isRefusal (validateExistingNym setup cache req op entry) := by
  have undashed (verkey : Option String)
      (clean : ∀ text, verkey = some text → '-' ∉ text.toList) : '-' ∉ (verkey.getD "").toList := by
    cases verkey with
    | none => simp
    | some text => exact clean text rfl
  rw [validateExistingNym,raisesOnly_bind]
  refine ⟨raiseIf_raises req _ _,fun _ _ => ?_⟩
  rw [raisesOnly_bind]
  refine ⟨?_,fun _ _ => raiseIf_raises req _ _⟩
  rw [validateUpdates,raisesOnly_bind]
  refine ⟨validateUpdate_raises setup cache req rules _ _ _ _ (by decide) (role_code_clean _) ?_,
    fun _ _ => validateUpdate_raises setup cache req rules _ _ _ _ (by decide)
      (undashed entry.verkey stored) ?_⟩
  · intro value member
    obtain ⟨role,_,rfl⟩ := Option.map_eq_some_iff.mp member
    exact role_code_clean role
  · intro value member
    obtain ⟨verkey,some_verkey,rfl⟩ := Option.map_eq_some_iff.mp member
    refine undashed verkey (fun text same => given text ?_)
    rw [Field.get,some_verkey,same]
    rfl

/-- The version asks for a key, and the key is base58 text. -/
def KeyDecodes : Prop :=
  op.version.get = some 1 ∨ op.version.get = some 2 →
    ∃ bytes, setup.codec.b58decode op.verkey.get = .ok bytes

private theorem validateVersion_raises
    (base58 : ∀ verkey raised, setup.codec.b58decode verkey = .error raised → isRefusal raised = false) :
    RaisesOnly isRefusal (validateVersion setup req op) ↔ KeyDecodes setup op := by
  have decoding (check : List UInt8 → Bool) (reason : String) :
      RaisesOnly isRefusal (do
        let valid ← (do return check (← setup.codec.b58decode op.verkey.get))
        raiseIf req (!valid) reason) ↔ ∃ bytes, setup.codec.b58decode op.verkey.get = .ok bytes := by
    cases decoded : setup.codec.b58decode op.verkey.get with
    | error raised => simp [base58 _ _ decoded]
    | ok bytes => exact iff_of_true (raiseIf_raises req _ _) ⟨bytes,rfl⟩
  unfold validateVersion KeyDecodes
  split
  · rename_i first
    simp only [first,true_or,true_implies]
    exact decoding (fun bytes => decide (op.dest.val = setup.codec.b58encode (bytes.take 16))) _
  · split
    · rename_i second
      simp only [second,or_true,true_implies]
      exact decoding (fun bytes => decide (op.dest.val =
        setup.codec.b58encode ((setup.codec.sha256 bytes).take 16))) _
    · rename_i first second
      simp [first,second]

private theorem validateAuthor_raises :
    RaisesOnly isRefusal (validateAuthor cache req op) ↔ req.identifier ≠ none := by
  unfold validateAuthor
  cases req.identifier with
  | none => simp [isRefusal]
  | some author =>
    refine iff_of_true ?_ (by simp)
    dsimp only
    split
    · rw [validateNonLedgerNym,raisesOnly_bind]
      exact ⟨raiseIf_raises req _ _,fun _ _ => raiseIf_raises req _ _⟩
    · exact raisesOnly_ok _ _

/-- A DID is only created by a named author, and with a key that decodes if its
version needs one. -/
def Decodable : Prop :=
  cache op.dest = none → req.identifier ≠ none ∧
    (validateAuthor cache req op = .ok () → KeyDecodes setup op)

theorem dynamicValidation_raises (rules : setup.config.authMap = authMap)
    (base58 : ∀ verkey raised, setup.codec.b58decode verkey = .error raised → isRefusal raised = false)
    (stored : ∀ did entry verkey, cache did = some entry → entry.verkey = some verkey →
      '-' ∉ verkey.toList)
    (given : ∀ verkey, op.verkey.get = some verkey → '-' ∉ verkey.toList) :
    RaisesOnly isRefusal (additionalDynamicValidation setup cache req op) ↔
      Decodable setup cache req op := by
  unfold additionalDynamicValidation Decodable
  cases known : cache op.dest with
  | some entry =>
    refine iff_of_true ?_ (by simp)
    exact validateExistingNym_raises setup cache req op rules entry
      (fun verkey same => stored op.dest entry verkey known same) given
  | none =>
    have added : RaisesOnly isRefusal (validate setup.config cache req
        [.add nymType "role" (op.role.getD .identityOwner).code true]) :=
      validate_raises setup cache req rules _ ⟨(by decide : '-' ∉ nymType.toList),
        (by decide : '-' ∉ "ADD".toList),(by decide : '-' ∉ "role".toList),
        (by decide : '-' ∉ "*".toList),role_code_clean _⟩
    simp only [true_implies]
    rw [validateNewNym,raisesOnly_bind,validateAuthor_raises]
    apply and_congr_right
    intro _
    constructor
    · intro later author
      have later := later () author
      rw [raisesOnly_bind,validateVersion_raises setup req op base58] at later
      exact later.1
    · intro decodes _ author
      rw [raisesOnly_bind,validateVersion_raises setup req op base58]
      exact ⟨decodes author,fun _ _ => added⟩

end Dynamic

/-- An operation that the schema has accepted leaves both stages with a verdict
exactly when its document can be scanned and, for a new DID, its key decodes. -/
theorem nym_exceptions_iff (setup : NymSetup) (cache : IdrCache) (req : ClientRequest)
    (rules : setup.config.authMap = authMap) (schema : SchemaAccepted setup.loads req)
    (base58 : ∀ verkey raised, setup.codec.b58decode verkey = .error raised → isRefusal raised = false)
    (stored : ∀ did entry verkey, cache did = some entry → entry.verkey = some verkey →
      '-' ∉ verkey.toList) :
    (RaisesOnly isRefusal (staticValidation setup.loads req) ∧
      ∀ op, staticValidation setup.loads req = .ok op →
        RaisesOnly isRefusal (additionalDynamicValidation setup cache req.toRequest op)) ↔
    (∀ dest role, validDest req = .ok dest → checkRole req = .ok role →
      ShapelyDocument setup.loads req) ∧
    ∀ op, staticValidation setup.loads req = .ok op → Decodable setup cache req.toRequest op := by
  rw [staticValidation_raises setup.loads req schema]
  refine and_congr_right (fun _ => forall₂_congr (fun op static => ?_))
  apply dynamicValidation_raises setup cache req.toRequest op rules base58 stored
  -- Static validation takes the key over from the operation.
  obtain ⟨_,_,static⟩ := bind_success _ _ _ static
  obtain ⟨_,_,static⟩ := bind_success _ _ _ static
  obtain ⟨_,_,static⟩ := bind_success _ _ _ static
  obtain ⟨_,_,static⟩ := bind_success _ _ _ static
  obtain rfl := Except.ok.inj static
  exact schema.undashed

private theorem base58Codec_raises (verkey : Option String) (raised : Raised)
    (failed : base58Codec.b58decode verkey = .error raised) : isRefusal raised = false := by
  cases verkey with
  | none =>
    obtain rfl := Except.error.inj failed
    rfl
  | some text =>
    simp only [base58Codec] at failed
    split at failed
    · obtain rfl := Except.error.inj failed
      rfl
    · cases failed

/-- One document can be read, whose text is given. -/
def parsedSetup (text : String) (doc : Json) : NymSetup :=
  defaultSetup .configLedger (fun _ => "") base58Codec fun raw => if raw = text then .ok doc else .error .valueError

def versionedForB (text : String) (verkey : Nym.Field String) : ClientRequest :=
  ⟨signedByA,nymType,some "B",none,verkey,some (some text),some (some 1)⟩

def emptyDocument : NymSetup := parsedSetup "\x7b\x7d" (.obj [])

theorem full_key_ends_in_verdict :
    RaisesOnly isRefusal (staticValidation emptyDocument.loads (versionedForB "\x7b\x7d" (some (some "B")))) ∧
      ∀ op, staticValidation emptyDocument.loads (versionedForB "\x7b\x7d" (some (some "B"))) = .ok op →
        RaisesOnly isRefusal (additionalDynamicValidation emptyDocument ledgerOfTrustee.cache signedByA op) := by
  apply (nym_exceptions_iff emptyDocument ledgerOfTrustee.cache (versionedForB "\x7b\x7d" (some (some "B"))) rfl
    ⟨fun text given => ⟨.obj [],?_⟩,?_⟩ base58Codec_raises ?_).mpr
  · refine ⟨fun _ _ _ _ text doc given _ parsed => ?_,fun op static _ => ⟨by decide,fun _ _ => ?_⟩⟩
    · obtain rfl := Option.some.inj given
      obtain rfl := Except.ok.inj parsed
      refine ⟨[],rfl,.inr ?_⟩
      rintro ⟨before,item,after,shape,_⟩
      simp [listedItems] at shape
    · obtain rfl := Except.ok.inj static
      exact ⟨[10],rfl⟩
  · intro verkey same
    obtain rfl := Option.some.inj same
    decide
  · intro did entry verkey found same
    by_cases own : did = didA
    · simp only [ledgerOfTrustee,own,if_true,Option.some.injEq] at found
      subst found
      obtain rfl := Option.some.inj same
      decide
    · simp [ledgerOfTrustee,own] at found
  · obtain rfl := Option.some.inj given
    rfl

def numberedIds : String := "\x7b\"key\": [\x7b\"id\": 1\x7d]\x7d"

/-- A document that is a list, a number as `id`, a version without a key and a
version with an abbreviated key. -/
theorem other_exceptions_escape :
    staticValidation (parsedSetup "[]" (.arr [])).loads (versionedForB "[]" none) = .error .attributeError ∧
      staticValidation (parsedSetup numberedIds (.obj [("key",.arr [.obj [("id",.num false)]])])).loads
        (versionedForB numberedIds none) = .error .attributeError ∧
      (∃ op, staticValidation emptyDocument.loads (versionedForB "\x7b\x7d" none) = .ok op ∧
        additionalDynamicValidation emptyDocument ledgerOfTrustee.cache signedByA op = .error .attributeError) ∧
      ∃ op, staticValidation emptyDocument.loads (versionedForB "\x7b\x7d" (some (some "~key"))) = .ok op ∧
        additionalDynamicValidation emptyDocument ledgerOfTrustee.cache signedByA op = .error .valueError := by
  exact ⟨rfl,rfl,⟨_,rfl,rfl⟩,⟨_,rfl,rfl⟩⟩

end IndyNode.Nym

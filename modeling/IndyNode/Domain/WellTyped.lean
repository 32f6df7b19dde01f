import IndyNode.Domain.Namespace

/-! Which kind of object can stand under which path. Every path names the kind of
what is stored there, whatever texts the transactions carry. -/
namespace IndyNode.Domain
open Authorize Nym

section Paths

/-- A first part that is no marker of a registry record. -/
structure Plain (first : String) : Prop where
  clean : ':' ∉ first.toList
  noEntry : first ≠ "5"
  noAccum : first ≠ "6"

theorem IsIdentifier.plain {did : Did} (shaped : IsIdentifier did) : Plain did.val :=
  ⟨shaped.clean,identifier_ne_marker did shaped "5" (by decide),
    identifier_ne_marker did shaped "6" (by decide)⟩

theorem authorText_plain (identifier : Option Did)
    (shaped : ∀ author, identifier = some author → IsIdentifier author) : Plain (authorText identifier) := by
  cases identifier with
  | none => exact ⟨by decide,by decide,by decide⟩
  | some author => exact (shaped author rfl).plain

theorem Under.not_registry {first second path : String} (under : Under first second path)
    (plain : Plain first) (id : String) :
    Revocation.revocEntryPath id ≠ path ∧ Revocation.revocAccumPath id ≠ path := by
  obtain ⟨rest,rfl⟩ := under
  have apart : ∀ marker : Char, marker ≠ ':' → first.toList ≠ [marker] →
      marker :: ':' :: id.toList ≠ (first ++ ":" ++ second ++ ":" ++ rest).toList := by
    intro marker clean differ same
    simp only [String.toList_append,List.append_assoc] at same
    have parts := Separated.joined_inj ':' ([marker],id.toList)
      (first.toList,second.toList ++ ':' :: rest.toList) (by simpa using clean.symm) plain.clean same
    exact differ (Prod.mk.inj parts).1.symm
  refine ⟨fun same => apart '5' (by decide) ?_ ?_,fun same => apart '6' (by decide) ?_ ?_⟩
  · exact fun five => plain.noEntry (String.toList_inj.mp five)
  · simpa [Revocation.revocEntryPath] using congrArg String.toList same
  · exact fun six => plain.noAccum (String.toList_inj.mp six)
  · simpa [Revocation.revocAccumPath] using congrArg String.toList same

theorem revocEntryPath_inj (first second : String)
    (same : Revocation.revocEntryPath first = Revocation.revocEntryPath second) : first = second := by
  have lists := congrArg String.toList same
  exact String.toList_inj.mp (by simpa [Revocation.revocEntryPath] using lists)

theorem revocAccumPath_inj (first second : String)
    (same : Revocation.revocAccumPath first = Revocation.revocAccumPath second) : first = second := by
  have lists := congrArg String.toList same
  exact String.toList_inj.mp (by simpa [Revocation.revocAccumPath] using lists)

/-- The marker of an author's objects of one kind, second in their paths. -/
def Marked (marker path : String) : Prop := ∃ first, Plain first ∧ Under first marker path

theorem Marked.other {marker another path : String} (marked : Marked marker path)
    (second : Marked another path) (clean : ':' ∉ marker.toList) (anotherClean : ':' ∉ another.toList) :
    marker = another := by
  obtain ⟨first,plain,under⟩ := marked
  obtain ⟨other,otherPlain,below⟩ := second
  exact (under_inj first marker other another path plain.clean otherPlain.clean clean anotherClean
    under below).2

end Paths

/-- The kind of a value agrees with the marker in its path. -/
def WellPlaced {ι : Type} (path : String) : Value ι → Prop
  | .attrib _ => ∃ first, Plain first ∧ Under first "1" path
  | .schema _ => ∃ first, Plain first ∧ Under first "2" path
  | .claimDef _ => ∃ first, Plain first ∧ Under first "3" path
  | .registry (.definition _) => ∃ first, Plain first ∧ Under first "4" path
  | .registry (.entry _) => ∃ id, path = Revocation.revocEntryPath id
  | .registry (.accum _) => ∃ id, path = Revocation.revocAccumPath id

def WellTyped {ι : Type} (ledger : Ledger ι) : Prop :=
  ∀ path leaf, ledger.state path = some leaf → WellPlaced path leaf.value

theorem WellTyped.empty {ι : Type} (ledger : Ledger ι) (empty : ∀ path, ledger.state path = none) :
    WellTyped ledger := by
  intro path leaf stored
  simp [empty] at stored

section Runs
variable {ι : Type} [DecidableEq ι] [Revocation.PyStr ι] [PyHash ι] [LE ι] [DecidableLE ι]
  (setup : Setup)

theorem Applied.wellPlaced {ledger next : Ledger ι} {time : Nat} {txn : DomainTxn ι}
    (applied : Applied setup ledger time txn next) (identified : txn.Identified) (path : String)
    (written : path ∈ txn.paths setup) : ∃ leaf, next.state path = some leaf ∧ WellPlaced path leaf.value := by
  have author := authorText_plain txn.request.identifier identified.author
  cases applied with
  | nym req nyms applied => simp [DomainTxn.paths] at written
  | attrib req op field key value shaped allowed parsed =>
    simp only [DomainTxn.paths,parsed,List.mem_singleton] at written
    subst written
    exact ⟨_,Function.update_self ..,_,(identified.dest req op rfl).plain,attrPath_under _ _⟩
  | schema req op allowed =>
    obtain rfl := List.mem_singleton.mp written
    exact ⟨_,Function.update_self ..,_,author,schemaPath_under _ op⟩
  | claimDef req op allowed =>
    obtain rfl := List.mem_singleton.mp written
    exact ⟨_,Function.update_self ..,_,author,claimDefPath_under _ op⟩
  | revocDef req op state shaped allowed updated =>
    obtain rfl := List.mem_singleton.mp written
    rw [(revocDefUpdateState_eq ledger req op _ _ state updated).2]
    exact ⟨_,Function.update_self ..,_,author,revocDefPath_under _ op⟩
  | revocEntry req op current kind value accepted =>
    simp only [DomainTxn.paths,List.mem_cons,List.not_mem_nil,or_false] at written
    rcases written with rfl | rfl
    · exact ⟨_,setToState_entry ledger op value _ time,_,rfl⟩
    · exact ⟨_,setToState_accum ledger op value _ time,_,rfl⟩

theorem Applied.wellTyped {ledger next : Ledger ι} {time : Nat} {txn : DomainTxn ι}
    (applied : Applied setup ledger time txn next) (identified : txn.Identified)
    (typed : WellTyped ledger) : WellTyped next := by
  intro path leaf stored
  by_cases written : path ∈ txn.paths setup
  · obtain ⟨new,now,placed⟩ := applied.wellPlaced setup identified path written
    obtain rfl := Option.some.inj (stored.symm.trans now)
    exact placed
  · rw [applied.other setup path written] at stored
    exact typed path leaf stored

theorem Run.wellTyped {start final : Ledger ι} {history : List (Ordered ι)}
    (run : Run setup start history final) (identified : ∀ ordered ∈ history, ordered.txn.Identified)
    (initial : WellTyped start) : WellTyped final := by
  refine run.invariant setup (fun _ ledger => WellTyped ledger) initial ?_ identified
  intro history before after ordered _ typed now applied
  exact applied.wellTyped setup now typed

end Runs
end IndyNode.Domain

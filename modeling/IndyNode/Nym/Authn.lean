import IndyNode.Nym.Operation
import IndyNode.Authorize.Signatures

/-! `LedgerBasedAuthNr`: the key a signature is verified with. A DID that is not
in the cache may be about to be created by this very request; the key then comes
from the request, whichever signer is looked up. -/
namespace IndyNode.Nym
open Authorize

/-- The functions of the request utilities that the authenticator uses, with what
they return. -/
structure RequestUtils where
  getRequestType : ClientRequest → String
  nymIdentIsDest : ClientRequest → Bool
  getTargetVerkey : ClientRequest → Option String
  type_spec : ∀ req, getRequestType req = req.operation.txnType
  ident_spec : ∀ req, nymIdentIsDest req = true ↔
    identifierText req.toRequest = req.operation.dest
  verkey_spec : ∀ req, getTargetVerkey req = req.operation.verkey.get

section
variable (utils : RequestUtils)

def nymSpecificAuth (req : ClientRequest) : Option String :=
  if utils.nymIdentIsDest req then utils.getTargetVerkey req else none

/-- `specific_verkey_validation` has an entry for NYM only. -/
def getVerkeySpecific (req : ClientRequest) : Option String :=
  if utils.getRequestType req = nymType then nymSpecificAuth utils req else none

def getVerkey (cache : IdrCache) (ident : Did) (req : ClientRequest) : Option String :=
  match cache ident with
  | some entry => entry.verkey
  | none =>
    let verkey := getVerkeySpecific utils req
    if truthy verkey then verkey else none

/-- A key comes from the cache, or from a NYM by which the signer creates itself. -/
def KeyOfSigner (cache : IdrCache) (req : ClientRequest) (signer : Did) (key : String) : Prop :=
  (∃ entry, cache signer = some entry ∧ entry.verkey = some key) ∨
  cache signer = none ∧ req.operation.txnType = nymType ∧ req.identifier = some signer ∧
    req.operation.dest = some signer.val ∧ req.operation.verkey.get = some key

/-- The request creates one DID with a key, and another one that is not on the
ledger has signed it too. -/
def SignsForAnother (cache : IdrCache) (req : ClientRequest) (signer : Did) : Prop :=
  cache signer = none ∧ req.operation.txnType = nymType ∧
    identifierText req.toRequest = req.operation.dest ∧
    truthy req.operation.verkey.get = true ∧ req.identifier ≠ some signer

private theorem getVerkey_known (cache : IdrCache) (ident : Did) (req : ClientRequest) (entry : CacheEntry)
    (known : cache ident = some entry) : getVerkey utils cache ident req = entry.verkey := by
  rw [getVerkey,known]

private theorem getVerkey_unknown (cache : IdrCache) (ident : Did) (req : ClientRequest) (key : String)
    (unknown : cache ident = none) :
    getVerkey utils cache ident req = some key ↔ req.operation.txnType = nymType ∧
      identifierText req.toRequest = req.operation.dest ∧
      truthy req.operation.verkey.get = true ∧ req.operation.verkey.get = some key := by
  rw [getVerkey,unknown]
  simp only [getVerkeySpecific,nymSpecificAuth,utils.type_spec,utils.verkey_spec]
  by_cases nym : req.operation.txnType = nymType
  · by_cases same : identifierText req.toRequest = req.operation.dest
    · simp [nym,same,(utils.ident_spec req).mpr same]
    · have differs : utils.nymIdentIsDest req = false :=
        Bool.eq_false_iff.mpr fun holds => same ((utils.ident_spec req).mp holds)
      simp [nym,same,differs,truthy]
  · simp [nym,truthy]

private theorem signer_is_dest (req : ClientRequest) (signer : Did) (author : req.identifier = some signer)
    (same : identifierText req.toRequest = req.operation.dest) :
    req.operation.dest = some signer.val := by
  rw [← same,identifierText,author,Option.map_some]

/-- Every key belongs to its signer exactly when no other new DID signs along with
the one the request creates; then at most one signer is not on the ledger. -/
theorem keys_belong_iff (cache : IdrCache) (req : ClientRequest) :
    ((∀ signer key, req.SignedBy signer → getVerkey utils cache signer req = some key →
        KeyOfSigner cache req signer key) ∧
      ∀ first second key other, req.SignedBy first → req.SignedBy second →
        cache first = none → cache second = none →
        getVerkey utils cache first req = some key → getVerkey utils cache second req = some other →
        first = second) ↔
    ∀ signer, req.SignedBy signer → ¬SignsForAnother cache req signer := by
  refine ⟨fun ⟨owned,_⟩ signer signs another => ?_,fun alone => ?_⟩
  · obtain ⟨unknown,nym,same,given,differs⟩ := another
    obtain ⟨key,key_eq⟩ : ∃ key, req.operation.verkey.get = some key := by
      cases verkey : req.operation.verkey.get with
      | none => simp [verkey,truthy] at given
      | some key => exact ⟨key,rfl⟩
    have found := (getVerkey_unknown utils cache signer req key unknown).mpr ⟨nym,same,given,key_eq⟩
    rcases owned signer key signs found with ⟨entry,known,_⟩ | ⟨_,_,author,_⟩
    · simp [unknown] at known
    · exact differs author
  · have belongs : ∀ signer key, req.SignedBy signer → cache signer = none →
        getVerkey utils cache signer req = some key → req.identifier = some signer := by
      intro signer key signs unknown found
      obtain ⟨nym,same,given,_⟩ := (getVerkey_unknown utils cache signer req key unknown).mp found
      exact Classical.byContradiction fun differs =>
        alone signer signs ⟨unknown,nym,same,given,differs⟩
    refine ⟨fun signer key signs found => ?_,?_⟩
    · cases known : cache signer with
      | some entry =>
        rw [getVerkey_known utils cache signer req entry known] at found
        exact Or.inl ⟨entry,known,found⟩
      | none =>
        obtain ⟨nym,same,_,key_eq⟩ := (getVerkey_unknown utils cache signer req key known).mp found
        have author := belongs signer key signs known found
        exact Or.inr ⟨known,nym,author,signer_is_dest req signer author same,key_eq⟩
    · intro first second key other signsFirst signsSecond unknownFirst unknownSecond keyFirst keySecond
      have author := belongs first key signsFirst unknownFirst keyFirst
      rw [belongs second other signsSecond unknownSecond keySecond] at author
      exact (Option.some.inj author).symm

end

def plainUtils : RequestUtils where
  getRequestType req := req.operation.txnType
  nymIdentIsDest req := identifierText req.toRequest = req.operation.dest
  getTargetVerkey req := req.operation.verkey.get
  type_spec _ := rfl
  ident_spec req := by simp
  verkey_spec _ := rfl

/-- `A` creates itself with key `K`; `B` has signed as well. -/
def selfCreation : ClientRequest :=
  ⟨signedByAAndB,nymType,some "A",none,some (some "K"),none,none⟩

theorem second_signer_gets_the_key :
    selfCreation.SignedBy didB ∧
      getVerkey plainUtils (fun _ => none) didA selfCreation = some "K" ∧
      getVerkey plainUtils (fun _ => none) didB selfCreation = some "K" ∧
      ¬KeyOfSigner (fun _ => none) selfCreation didB "K" := by
  refine ⟨Or.inr (by decide),by decide,by decide,?_⟩
  intro belongs
  rcases belongs with ⟨entry,known,_⟩ | ⟨_,_,author,_⟩
  · exact absurd known (by simp)
  · exact absurd author (by decide)

end IndyNode.Nym

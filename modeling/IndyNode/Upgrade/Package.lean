import IndyNode.Config.Separation
import IndyNode.Upgrade.Handler
import IndyNode.Upgrade.Pending

/-! The package that is checked when an upgrade is planned and the one that the control
tool is told to upgrade: the first is cut out of the request, the second is the request's
own text. -/
namespace IndyNode.Upgrade
open Authorize
open Nym (isSpace)

section Cut

/-- A text in which nothing is cut off. -/
structure Unbroken (text : String) : Prop where
  unmarked : ∀ c ∈ text.toList, packageMarks c = false
  joined : ¬['&','&'] <:+: text.toList

private theorem isSpace_of_lineBreak (c : Char) (breaks : isLineBreak c = true) : isSpace c = true := by
  simp only [isLineBreak,isSpace,Bool.or_eq_true,Bool.and_eq_true,decide_eq_true_eq] at *
  omega

private theorem atMark_suffixes (marks : Char → Bool) (text : List Char) :
    (∀ rest, rest ≠ [] → rest <:+ text → atMark marks rest = false) ↔
      (∀ c ∈ text, marks c = false) ∧ ¬['&','&'] <:+: text := by
  constructor
  · intro free
    refine ⟨fun c member => ?_,?_⟩
    · obtain ⟨before,after,rfl⟩ := List.append_of_mem member
      have clean := free (c :: after) (List.cons_ne_nil c after) (List.suffix_append before _)
      simp only [atMark,Bool.or_eq_false_iff] at clean
      simpa using clean.1
    · rintro ⟨before,after,shape⟩
      have clean := free ('&' :: '&' :: after) (List.cons_ne_nil _ _) ⟨before,by simpa using shape⟩
      simp [atMark] at clean
  · rintro ⟨unmarked,joined⟩ rest nonempty suffix
    obtain ⟨before,rfl⟩ := suffix
    cases rest with
    | nil => exact absurd rfl nonempty
    | cons c rest =>
      have single : marks c = false := unmarked c (by simp)
      have double : ['&','&'].isPrefixOf (c :: rest) = false := by
        apply Bool.eq_false_iff.mpr
        intro starts
        obtain ⟨after,shape⟩ := List.isPrefixOf_iff_prefix.mp starts
        exact joined ⟨before,after,by rw [List.append_assoc,shape]⟩
      simp [atMark,single,double]

private theorem singlePackage_eq_self (text : String) : singlePackage text = text ↔ Unbroken text := by
  have cut : singlePackage text = text ↔
      (Separated.before (atMark packageMarks) (firstLine text.toList)).rdropWhile isSpace = text.toList := by
    rw [singlePackage,firstPiece,← String.toList_inj,String.toList_ofList]
  rw [cut]
  constructor
  · intro whole
    -- every stage leaves a beginning of what it gets, so none of them takes anything away
    have stripped := List.rdropWhile_prefix isSpace
      (l := Separated.before (atMark packageMarks) (firstLine text.toList))
    have piece := Separated.before_prefix (atMark packageMarks) (firstLine text.toList)
    have line : firstLine text.toList <+: text.toList := Separated.before_prefix _ _
    rw [whole] at stripped
    have lineWhole : firstLine text.toList = text.toList :=
      line.eq_of_length_le (stripped.length_le.trans piece.length_le)
    rw [lineWhole] at stripped piece
    have pieceWhole := piece.eq_of_length_le stripped.length_le
    obtain ⟨unmarked,joined⟩ := (atMark_suffixes _ _).mp ((Separated.before_eq_self _ _).mp pieceWhole)
    exact ⟨unmarked,joined⟩
  · rintro ⟨unmarked,joined⟩
    have spaceless : ∀ c ∈ text.toList, isSpace c = false := by
      intro c member
      have clean := unmarked c member
      simp only [packageMarks,Bool.or_eq_false_iff] at clean
      exact clean.1.1
    have line : firstLine text.toList = text.toList := by
      refine (Separated.before_eq_self _ _).mpr fun rest nonempty suffix => ?_
      cases rest with
      | nil => exact absurd rfl nonempty
      | cons c rest =>
        have clean := spaceless c (suffix.subset (List.mem_cons_self ..))
        apply Bool.eq_false_iff.mpr
        intro breaks
        exact Bool.false_ne_true (clean.symm.trans (isSpace_of_lineBreak c (by simpa using breaks)))
    have piece := (Separated.before_eq_self _ _).mpr ((atMark_suffixes packageMarks _).mpr ⟨unmarked,joined⟩)
    rw [line,piece,List.rdropWhile_eq_self_iff]
    intro nonempty spaced
    exact Bool.false_ne_true ((spaceless _ (List.getLast_mem nonempty)).symm.trans spaced)

end Cut

structure UpgradeMessage where
  version : String
  pkgName : String

/-- `chooseVersion` picks the newest listed package version for a source version and
`depsList` adds the packages that are upgraded along. -/
structure ControlTool (V : Type) extends PackageSystem V where
  chooseVersion : (String → Option V) → V → String → Option String
  depsList : String → String

section Control
variable {V : Type} (setup : UpgradeSetup V) (tool : ControlTool V)

def currInfoCmds (pkgName : String) : List String :=
  if packageExists tool.toPackageSystem (singlePackage pkgName) then
    [selectionsCmd,composeCmd ["dpkg","-s",singlePackage pkgName]]
  else [selectionsCmd]

def latestVersionCmd (pkgName : String) : String :=
  composeCmd ["apt-cache","show",pkgName,"|","grep","-E","'^Version: '"]

def upgradeScriptCmd (pkgName pkgVer : String) : String :=
  composeCmd ["upgrade_indy_node","\"" ++ tool.depsList (pkgName ++ "=" ++ pkgVer) ++ "\""]

/-- The commands that `_process_data` gives to the shell for an upgrade, as long as each
of them succeeds. -/
def processData (message : UpgradeMessage) : List String :=
  match setup.srcVersionCls message.pkgName message.version with
  | none => []
  | some version =>
    currInfoCmds tool message.pkgName ++
    match currPkgInfo setup tool.toPackageSystem message.pkgName with
    | .ok (some _,_) =>
      [composeCmd ["apt","update"],latestVersionCmd message.pkgName] ++
      match tool.chooseVersion (setup.srcVersionCls message.pkgName) version
          (tool.shell (latestVersionCmd message.pkgName)) with
      | none => []
      | some pkgVer => [upgradeScriptCmd tool message.pkgName pkgVer,composeCmd ["restart_indy_node"]]
    | _ => []

def upgradeMessage (data : UpgradeLogData V) : UpgradeMessage := ⟨tool.full data.version,data.pkgName⟩

/-- A package name in the schedule, in the log and in the request to the control service. -/
structure Carries (up : Upgrader V) (data : UpgradeLogData V) (failTimeout : Nat) (name : String) : Prop where
  scheduled : up.scheduledAction.map (·.pkgName) = some name
  logged : up.actionLog.getLast?.map (·.data.pkgName) = some name
  started : (up.callUpgradeAgent data failTimeout).actionLog.getLast?.map (·.data.pkgName) = some name
  sent : (up.callUpgradeAgent data failTimeout).sending.getLast?.map
    (fun request => (upgradeMessage tool request.1).pkgName) = some name

private theorem scheduleUpgrade_carries (up : Upgrader V) (now : Nat) (data : UpgradeLogData V) (failTimeout : Nat)
    (name : String) :
    Carries tool (up.scheduleUpgrade now data failTimeout) data failTimeout name ↔ data.pkgName = name := by
  constructor
  · intro carries
    exact Option.some.inj carries.scheduled
  · rintro rfl
    refine ⟨rfl,?_,?_,?_⟩ <;>
      simp [Upgrader.scheduleUpgrade,Upgrader.callUpgradeAgent,Upgrader.append,upgradeMessage]

end Control

section Requests
variable {V : Type} [DecidableEq V] (setup : UpgradeSetup V)

omit [DecidableEq V] in
private theorem order_package (txn : UpgradeTxn) (data : UpgradeLogData V) (failTimeout : Nat)
    (asked : order setup txn = some (.start data failTimeout)) :
    data.pkgName = txn.payload.package.getD setup.upgradeEntry := by
  obtain ⟨_,_,_,_,_,rfl,_⟩ := order_start setup asked
  rfl

theorem package_checked_iff (auth : ValidatorConfig) (cache : IdrCache) (payloads : List ConfigPayload)
    (system : PackageSystem V) (tool : ControlTool V) (req : Request) (op : UpgradeOperation)
    (accepted : additionalDynamicValidation auth cache payloads setup system req op = .ok ())
    (seqNo : Nat) (data : UpgradeLogData V) (failTimeout : Nat)
    (asked : order setup ⟨reqToTxn req op,seqNo⟩ = some (.start data failTimeout)) :
    checkUpgradePossible setup system (singlePackage (op.packageText setup)) op.version op.reinstall = .ok none ∧
      ((∀ up now, up.schedules data = true →
          Carries tool (handleUpgradeTxn now up setup ⟨reqToTxn req op,seqNo⟩) data failTimeout
            (singlePackage (op.packageText setup))) ∧
        processData setup tool (upgradeMessage tool data) = processData setup tool
          { upgradeMessage tool data with pkgName := singlePackage (op.packageText setup) } ↔
      Unbroken (op.packageText setup)) := by
  have name : data.pkgName = op.packageText setup := order_package setup _ data failTimeout asked
  have handled : ∀ up now, up.schedules data = true →
      handleUpgradeTxn now up setup ⟨reqToTxn req op,seqNo⟩ =
        up.cancelScheduledUpgrade.scheduleUpgrade now data failTimeout := by
    intro up now new
    rw [handleUpgradeTxn_eq,asked,Upgrader.obey,follow_start,if_pos new]
  refine ⟨accepted_checked setup system auth cache payloads req op accepted,?_⟩
  rw [← singlePackage_eq_self]
  constructor
  · rintro ⟨carries,_⟩
    have idle := carries ⟨none,[],.empty,[]⟩ 0 rfl
    rw [handled _ _ rfl,scheduleUpgrade_carries,name] at idle
    exact idle.symm
  · intro whole
    rw [whole]
    refine ⟨fun up now new => ?_,by rw [← name]; rfl⟩
    rw [handled up now new,scheduleUpgrade_carries]
    exact name

end Requests

section Samples

/-- A machine with one package, of version 1.0. -/
def sampleSystem : PackageSystem String where
  shell _ := "indy-node"
  readInfo _ info := (if info = "" then none else some "1.0",[])
  newer new old := new ≠ old
  full := id

def sampleTool : ControlTool String := { sampleSystem with
  chooseVersion _ _ _ := some "1.1"
  depsList := id }

def planFor (package : Option String) : UpgradeOperation :=
  ⟨"plan",.start,"1.1",[("Alpha","noon")],package,none,false,false⟩

/-- Without rules on the ledger a trustee plans upgrades. -/
def sampleAuth : ValidatorConfig := Config.sampleSetup.validator (Config.ConfigTrie.rules fun _ => none)

theorem plan_allowed (setup : UpgradeSetup String) (package : Option String)
    (named : (planFor package).packageText setup ≠ "") (silent : refusal setup sampleSystem (planFor package) = "") :
    additionalDynamicValidation sampleAuth Nym.ledgerOfTrustee.cache [] setup sampleSystem Nym.signedByA
      (planFor package) = .ok () := by
  have allowed : validate sampleAuth Nym.ledgerOfTrustee.cache Nym.signedByA [startUpgrade] = .ok () :=
    Config.trustee_allowed (fun _ => none) (fun _ => rfl) (startUpgrade,oneTrusteeConstraint)
      (List.mem_of_getElem? (i := 37) rfl) startUpgrade (by decide) (by decide) (by decide)
  have unplanned : upgradeAuthAction (upgradeStatus [] (planFor package)) (planFor package) = startUpgrade := rfl
  simp only [additionalDynamicValidation,unplanned,allowed,silent,named]
  rfl

private theorem plan_accepted (package : Option String) (first : singlePackage (package.getD "indy-node") = "indy-node")
    (named : package.getD "indy-node" ≠ "") :
    additionalDynamicValidation sampleAuth Nym.ledgerOfTrustee.cache []
      sampleSetup sampleSystem Nym.signedByA (planFor package) = .ok () := by
  have text : (planFor package).packageText sampleSetup = package.getD "indy-node" := rfl
  apply plan_allowed sampleSetup package (by rwa [text])
  rw [refusal,text,first]
  rfl

def plainData : UpgradeLogData String := ⟨4,"1.1","11","indy-node"⟩

theorem plain_package_carried :
    Carries sampleTool (handleUpgradeTxn 0 idleUpgrader sampleSetup ⟨reqToTxn Nym.signedByA (planFor none),1⟩)
      plainData 10 "indy-node" := by
  have checked := package_checked_iff sampleSetup sampleAuth Nym.ledgerOfTrustee.cache [] sampleSystem sampleTool
    Nym.signedByA (planFor none) (plan_accepted none rfl (by simp)) 1 plainData 10 rfl
  have whole : Unbroken ((planFor none).packageText sampleSetup) := (singlePackage_eq_self _).mp rfl
  exact (checked.2.mpr whole).1 idleUpgrader 0 rfl

/-- Only the first package is looked up; the whole text goes to the shell. -/
theorem second_command_reaches_shell :
    additionalDynamicValidation sampleAuth Nym.ledgerOfTrustee.cache []
      sampleSetup sampleSystem Nym.signedByA (planFor (some "indy-node|reboot")) = .ok () ∧
    order sampleSetup ⟨reqToTxn Nym.signedByA (planFor (some "indy-node|reboot")),1⟩ =
      some (.start ⟨4,"1.1","11","indy-node|reboot"⟩ 10) ∧
    singlePackage "indy-node|reboot" = "indy-node" ∧
    "apt-cache show indy-node|reboot | grep -E '^Version: '" ∈
      processData sampleSetup sampleTool (upgradeMessage sampleTool ⟨4,"1.1","11","indy-node|reboot"⟩) := by
  refine ⟨plan_accepted _ rfl (by simp),rfl,rfl,?_⟩
  exact List.mem_of_getElem? (i := 3) rfl

end Samples
end IndyNode.Upgrade

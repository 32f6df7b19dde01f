import IndyNode.Foundation.CsvRows
import IndyNode.Upgrade.Package

/-! The log of the upgrades in its file. An event is written as one record, and the file is
read line by line. -/
namespace IndyNode.Upgrade
open Csv (isBreak)

structure LogRecord (V : Type) where
  ts : Nat
  event : LogEvent V
deriving DecidableEq, Repr

inductive LoadError where
  | csvError
  | typeError
  | valueError
deriving DecidableEq, Repr

/-- The text forms of times and versions. They are read back and have no line breaks. -/
structure LogTexts {V : Type} (setup : UpgradeSetup V) where
  timeText : Nat → String
  parseTime : String → Option Nat
  versionText : V → String
  time_read : ∀ time, parseTime (timeText time) = some time
  time_given : ∀ time, timeText time ≠ ""
  time_plain : ∀ time, (timeText time).toList.any isBreak = false
  version_read : ∀ pkgName text version, setup.srcVersionCls pkgName text = some version →
    setup.srcVersionCls pkgName (versionText version) = some version
  version_plain : ∀ pkgName text version, setup.srcVersionCls pkgName text = some version →
    (versionText version).toList.any isBreak = false

def EventType.name : EventType → String
  | .scheduled => "scheduled"
  | .started => "started"
  | .succeeded => "succeeded"
  | .failed => "failed"
  | .cancelled => "cancelled"

def EventType.named (name : String) : Option EventType :=
  [EventType.scheduled,.started,.succeeded,.failed,.cancelled].find? fun evType => evType.name = name

section Files
variable {V : Type} {setup : UpgradeSetup V} (texts : LogTexts setup)

def LogRecord.row (record : LogRecord V) : List String :=
  [texts.timeText record.ts,record.event.evType.name,texts.timeText record.event.data.when,
    texts.versionText record.event.data.version,record.event.data.upgradeId,record.event.data.pkgName]

def LogRecord.pack (record : LogRecord V) : List Char := Csv.writeRow '\t' ((record.row texts).map String.toList)

/-- The file after one event after another has been appended. -/
def logFile (records : List (LogRecord V)) : List Char := records.flatMap (LogRecord.pack texts)

def readTime (text : String) : Except LoadError Nat :=
  match texts.parseTime text with
  | none => .error .valueError
  | some time => .ok time

def readSourceVersion (setup : UpgradeSetup V) (pkgName text : String) : Except LoadError V :=
  match setup.srcVersionCls pkgName text with
  | none => .error .valueError
  | some version => .ok version

def readType (text : String) : Except LoadError EventType :=
  match EventType.named text with
  | none => .error .valueError
  | some evType => .ok evType

/-- `UpgradeLogData` made of texts, where the package may be missing. -/
def upgradeLogData (when : String) : List String → Except LoadError (UpgradeLogData V)
  | version :: upgradeId :: package => do
    let pkgName ← match package with
      | [] => .ok "indy-node"
      | [pkgName] => .ok pkgName
      | _ => .error .typeError
    let when ← readTime texts when
    let version ← readSourceVersion setup pkgName version
    .ok ⟨when,version,upgradeId,pkgName⟩
  | _ => .error .typeError

variable (now : Nat)

/-- `ActionLogEvent` made of the fields of a record; one without a time gets the current one. -/
def actionLogEvent : List String → Except LoadError (LogRecord V)
  | ts :: evType :: data :: args => do
    let ts ← if ts = "" then .ok now else readTime texts ts
    let evType ← readType evType
    let data ← upgradeLogData texts data args
    .ok ⟨ts,evType,data⟩
  | _ => .error .typeError

def unpack (line : List Char) : Except LoadError (LogRecord V) :=
  match Csv.readRow '\t' line with
  | none => .error .csvError
  | some fields => actionLogEvent texts now (fields.map String.ofList)

/-- `_load`, with universal newlines. -/
def load (file : List Char) : Except LoadError (List (LogRecord V)) := (Csv.splitLines file).mapM (unpack texts now)

end Files

/-- An event that is appended for a START of the ledger. -/
structure LoggedUpgrade {V : Type} (setup : UpgradeSetup V) where
  record : LogRecord V
  txn : UpgradeTxn
  failTimeout : Nat
  asked : order setup txn = some (.start record.event.data failTimeout)

section Reloading
variable {V : Type} {setup : UpgradeSetup V} (texts : LogTexts setup) (now : Nat)

def LoggedUpgrade.package (entry : LoggedUpgrade setup) : String :=
  entry.txn.payload.package.getD setup.upgradeEntry

private theorem named_name (evType : EventType) : EventType.named evType.name = some evType := by
  cases evType <;> decide

private theorem natText_plain (number : Nat) : (toString number).toList.any isBreak = false := by
  rw [List.any_eq_false]
  intro c member breaks
  rw [Nat.toString_eq_repr,Nat.toList_repr] at member
  have digit := Nat.isDigit_of_mem_toDigits (by decide) (by decide) member
  simp only [isBreak,Bool.or_eq_true,decide_eq_true_eq] at breaks
  rcases breaks with rfl | rfl <;> cases digit

private theorem actionId_plain (txn : UpgradeTxn) : (getActionId txn).toList.any isBreak = false := by
  rw [getActionId,String.toList_append,List.any_append,natText_plain]
  split
  · rfl
  · exact natText_plain _

private theorem row_breaks (entry : LoggedUpgrade setup) :
    (((entry.record.row texts).map String.toList).any fun field => field.any isBreak) =
      entry.package.toList.any isBreak := by
  obtain ⟨version,text,parsed,-,-,data,-⟩ := order_start setup entry.asked
  have name : (entry.record.event.evType.name).toList.any isBreak = false := by
    cases entry.record.event.evType <;> decide
  simp only [LogRecord.row,data,List.map_cons,List.map_nil,List.any_cons,List.any_nil,texts.time_plain,name,
    texts.version_plain _ _ _ parsed,actionId_plain,Bool.false_or,Bool.or_false]
  rfl

private theorem actionLogEvent_row (entry : LoggedUpgrade setup) :
    actionLogEvent texts now (entry.record.row texts) = .ok entry.record := by
  obtain ⟨version,text,parsed,-,-,data,-⟩ := order_start setup entry.asked
  have version_read : readSourceVersion setup entry.record.event.data.pkgName
      (texts.versionText entry.record.event.data.version) = .ok entry.record.event.data.version := by
    rw [data,readSourceVersion,texts.version_read _ _ _ parsed]
  have time_read : ∀ time, readTime texts (texts.timeText time) = .ok time := by
    intro time
    rw [readTime,texts.time_read]
  have type_read : readType entry.record.event.evType.name = .ok entry.record.event.evType := by
    rw [readType,named_name]
  rw [LogRecord.row,actionLogEvent,if_neg (texts.time_given _),upgradeLogData]
  simp only [time_read,type_read,version_read,ok_bind]

private theorem unpack_pack (entry : LoggedUpgrade setup) :
    unpack texts now (entry.record.pack texts) = .ok entry.record := by
  have fields : ((entry.record.row texts).map String.toList).map String.ofList = entry.record.row texts := by
    simp [Function.comp_def]
  have read := Csv.readRow_writeRow '\t' (by decide) (by decide)
    ((entry.record.row texts).map String.toList) (by simp [LogRecord.row])
  rw [unpack,LogRecord.pack,read]
  change actionLogEvent texts now (((entry.record.row texts).map String.toList).map String.ofList) = _
  rw [fields]
  exact actionLogEvent_row texts now entry

def LoggedUpgrade.Plain (entry : LoggedUpgrade setup) : Prop := entry.package.toList.any isBreak = false

private theorem logFile_cons (entry : LoggedUpgrade setup) (rest : List (LogRecord V)) :
    logFile texts (entry.record :: rest) =
      Csv.rowText '\t' ((entry.record.row texts).map String.toList) ++ '\r' :: '\n' :: logFile texts rest := by
  rw [logFile,List.flatMap_cons,LogRecord.pack,Csv.writeRow,List.append_assoc]
  rfl

private theorem rowText_plain (entry : LoggedUpgrade setup) :
    (Csv.rowText '\t' ((entry.record.row texts).map String.toList)).any isBreak = entry.package.toList.any isBreak := by
  rw [Csv.rowText_breaks rfl,row_breaks]

private theorem logFile_lines (logged : List (LoggedUpgrade setup)) :
    logged.length ≤ (Csv.splitLines (logFile texts (logged.map LoggedUpgrade.record))).length ∧
      ((Csv.splitLines (logFile texts (logged.map LoggedUpgrade.record))).length ≤ logged.length →
        ∀ entry ∈ logged, entry.Plain) := by
  induction logged with
  | nil => exact ⟨Nat.zero_le _,fun _ entry member => absurd member List.not_mem_nil⟩
  | cons entry rest ih =>
    have lines := Csv.splitLines_length (Csv.rowText '\t' ((entry.record.row texts).map String.toList))
      (logFile texts (rest.map LoggedUpgrade.record))
    rw [List.map_cons,logFile_cons,List.length_cons]
    rw [rowText_plain] at lines
    obtain ⟨least,whole⟩ := ih
    refine ⟨by split at lines <;> omega,fun most => ?_⟩
    cases broken : entry.package.toList.any isBreak with
    | true =>
      rw [broken,if_pos rfl] at lines
      omega
    | false =>
      rw [broken,if_neg Bool.false_ne_true] at lines
      exact List.forall_mem_cons.mpr ⟨broken,whole (by omega)⟩

private theorem logFile_split (logged : List (LoggedUpgrade setup)) (plain : ∀ entry ∈ logged, entry.Plain) :
    Csv.splitLines (logFile texts (logged.map LoggedUpgrade.record)) =
      logged.map fun entry => entry.record.pack texts := by
  induction logged with
  | nil => rfl
  | cons entry rest ih =>
    obtain ⟨here,later⟩ := List.forall_mem_cons.mp plain
    rw [List.map_cons,logFile_cons,Csv.splitLines_plain _ _ ((rowText_plain texts entry).trans here),ih later]
    rfl

theorem log_reloads_iff (texts : LogTexts setup) (now : Nat) (logged : List (LoggedUpgrade setup)) :
    load texts now (logFile texts (logged.map LoggedUpgrade.record)) = .ok (logged.map LoggedUpgrade.record) ↔
      ∀ entry ∈ logged, entry.Plain := by
  rw [load,mapM_ok_iff]
  constructor
  · intro loaded
    apply (logFile_lines texts logged).2
    rw [loaded.length_eq,List.length_map]
  · intro plain
    rw [logFile_split texts logged plain,List.forall₂_map_left_iff,List.forall₂_map_right_iff,List.forall₂_same]
    exact fun entry _ => unpack_pack texts now entry

end Reloading

section Samples

/-- Versions are texts without line breaks. -/
def plainSetup : UpgradeSetup String where
  nodeId := "Alpha"
  upgradeEntry := "indy-node"
  nodeVersion text := if text.toList.any isBreak then none else some text
  topPkgDefVersion text := if text.toList.any isBreak then none else some text
  parseTime := String.length

private theorem plainSetup_version (pkgName text version : String) :
    plainSetup.srcVersionCls pkgName text = some version ↔
    text.toList.any isBreak = false ∧ text = version := by
  have same : plainSetup.srcVersionCls pkgName text = if text.toList.any isBreak then none else some text := by
    rw [UpgradeSetup.srcVersionCls]
    split <;> rfl
  rw [same]
  cases text.toList.any isBreak <;> simp

/-- Times are written as numbers. -/
def plainTexts : LogTexts plainSetup where
  timeText := toString
  parseTime text := some (Nat.ofDigitChars 10 text.toList 0)
  versionText version := version
  time_read time := by rw [Nat.toString_eq_repr,Nat.toList_repr,Nat.ofDigitChars_ten_toDigits]
  time_given time := by simp
  time_plain := natText_plain
  version_read pkgName text version parsed := by
    obtain ⟨plain,rfl⟩ := (plainSetup_version pkgName text version).mp parsed
    exact parsed
  version_plain pkgName text version parsed := by
    obtain ⟨plain,rfl⟩ := (plainSetup_version pkgName text version).mp parsed
    exact plain

/-- An upgrade of a package whose name goes on in a second line. -/
def brokenUpgrade : LoggedUpgrade plainSetup where
  record := ⟨7,.scheduled,⟨4,"1.1","11","indy-node\nx"⟩⟩
  txn := ⟨reqToTxn Nym.signedByA (planFor (some "indy-node\nx")),1⟩
  failTimeout := 10
  asked := rfl

theorem broken_package_not_reloaded :
    additionalDynamicValidation sampleAuth Nym.ledgerOfTrustee.cache [] plainSetup sampleSystem Nym.signedByA
        (planFor (some "indy-node\nx")) = .ok () ∧
      load plainTexts 9 (logFile plainTexts [brokenUpgrade.record]) = .error .typeError := by
  refine ⟨plan_allowed plainSetup _ (by decide) rfl,?_⟩
  decide

end Samples
end IndyNode.Upgrade

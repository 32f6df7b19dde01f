import IndyNode.Upgrade.Migrations

/-! The upgrade of a node by the control tool, with the backup of its data, the migrations
and the rollback. What a call outside of the tool does is given from outside, whether it
succeeds or fails. -/
namespace IndyNode.Upgrade

def Files : Type := String → Option String

/-- `archives` holds the backups under the names of their files. -/
structure Machine (V : Type) where
  installed : V
  data : Files
  archives : String → Option Files

/-- The settings of the tool, and the source version that it was loaded with. -/
structure NodeControlTool where
  filesToPreserve : List String
  backupNamePrefix : String
  running : String

/-- What the calls of one pass do. A failed package script leaves a version, a failed
backup leaves an archive or none, a failed restore leaves some data; a migration script
leaves data in either case. -/
structure Pass (V : Type) where
  scriptFails : Option V
  backupFails : Option (Option Files)
  migrationScripts : Option (List String)
  migrationScript : String → Files → Files × Bool
  copied : String → Bool
  unpackFails : Option Files
  removed : String → Bool
  removalFails : Bool
  restartFails : Bool

def leftState {σ : Type} : Except σ σ → σ
  | .error state => state
  | .ok state => state

section Calls
variable {V W : Type} [LinearOrder W] (nodeVersion : String → Option W) (nodeRelease : V → Option String)
  (tool : NodeControlTool) (pass : Pass V)

def backupNameExt (srcVer : String) : String := tool.backupNamePrefix ++ srcVer ++ ".zip"

def callUpgradeScript (pkgVer : V) (machine : Machine V) : Except (Machine V) (Machine V) :=
  match pass.scriptFails with
  | none => .ok { machine with installed := pkgVer }
  | some left => .error { machine with installed := left }

def createBackup (srcVer : String) (machine : Machine V) : Except (Machine V) (Machine V) :=
  let stored (archive : Option Files) : Machine V :=
    { machine with archives := Function.update machine.archives (backupNameExt tool srcVer) archive }
  match pass.backupFails with
  | none => .ok (stored (some machine.data))
  | some left => .error (stored left)

/-- Unpacking writes the files of the archive and leaves the others. A preserved file comes
back only if it could be copied away. -/
def unpacked (saved data : Files) : Files := fun path =>
  if path ∈ tool.filesToPreserve ∧ pass.copied path then (data path).or (saved path)
  else (saved path).or (data path)

def restoreFromBackup (srcVer : String) (machine : Machine V) : Except (Machine V) (Machine V) :=
  match machine.archives (backupNameExt tool srcVer) with
  | none => .error machine
  | some saved =>
    match pass.unpackFails with
    | none => .ok { machine with data := unpacked tool pass saved machine.data }
    | some left => .error { machine with data := left }

def removeOldBackups (machine : Machine V) : Except (Machine V) (Machine V) :=
  let kept : Machine V := { machine with
    archives := fun name => if pass.removed name then none else machine.archives name }
  if pass.removalFails then .error kept else .ok kept

def callMigrationScript (data : Files) (migration : String) : Except Files Files :=
  let (left,succeeded) := pass.migrationScript migration data
  if succeeded then .ok left else .error left

def migrate (currentVersion newVersion : String) (data : Files) : Except Files Files :=
  match pass.migrationScripts with
  | none => .error data
  | some scripts =>
    match getRelevantMigrations nodeVersion scripts currentVersion newVersion with
    | .error _ => .error data
    | .ok relevant => relevant.foldlM (callMigrationScript pass) data

def doMigration (currSrcVer newSrcVer : String) (machine : Machine V) : Except (Machine V) (Machine V) :=
  match migrate nodeVersion pass currSrcVer newSrcVer machine.data with
  | .error data => .error { machine with data := data }
  | .ok data => .ok { machine with data := data }

/-- `_migrate`: whatever the restore does, the exception goes on. -/
def migrateNode (currSrcVer newSrcVer : String) (machine : Machine V) : Except (Machine V) (Machine V) :=
  match createBackup tool pass currSrcVer machine >>= doMigration nodeVersion pass currSrcVer newSrcVer with
  | .error machine => .error (leftState (restoreFromBackup tool pass currSrcVer machine))
  | .ok machine => removeOldBackups pass machine

def callRestartNodeScript (machine : Machine V) : Except (Machine V) (Machine V) :=
  if pass.restartFails then .error machine else .ok machine

/-- What `_do_upgrade` tries. The version that is migrated from is that of the running tool,
the one that is migrated to is read from the installed package. -/
def tryUpgrade (newPkgVer : V) (machine : Machine V) : Except (Machine V) (Machine V) := do
  let machine ← callUpgradeScript pass newPkgVer machine
  match nodeRelease machine.installed with
  | none => .error machine
  | some newSrcVer => do
    let machine ← migrateNode nodeVersion tool pass tool.running newSrcVer machine
    callRestartNodeScript pass machine

/-- `_do_upgrade`: the rollback is a second pass with the versions swapped, which has no
rollback of its own. -/
def doUpgrade (back : Pass V) (currPkgVer newPkgVer : V) (rollback : Bool) (machine : Machine V) : Machine V :=
  match tryUpgrade nodeVersion nodeRelease tool pass newPkgVer machine with
  | .ok machine => machine
  | .error machine =>
    if rollback then leftState (tryUpgrade nodeVersion nodeRelease tool back currPkgVer machine) else machine

end Calls

section Rollback
variable {V W : Type} [LinearOrder W] {nodeVersion : String → Option W} {nodeRelease : V → Option String}
  {tool : NodeControlTool}

def SameData (tool : NodeControlTool) (first second : Files) : Prop :=
  ∀ path, path ∉ tool.filesToPreserve → first path = second path

/-- The package script fails; or the backup fails and leaves no archive that differs from
the data; or a migration fails and none has made a new file; or the migrations have left
the data as they were. -/
def Recoverable (nodeVersion : String → Option W) (nodeRelease : V → Option String) (tool : NodeControlTool)
    (pass : Pass V) (newPkgVer : V) (data : Files) : Prop :=
  match pass.scriptFails,nodeRelease newPkgVer with
  | none,some newSrcVer =>
    match pass.backupFails,migrate nodeVersion pass tool.running newSrcVer data with
    | some left,_ => ∀ saved, left = some saved → ∀ path, path ∉ tool.filesToPreserve →
        saved path = none ∨ saved path = data path
    | none,.error changed => ∀ path, path ∉ tool.filesToPreserve → data path = none → changed path = none
    | none,.ok changed => SameData tool changed data
  | _,_ => True

private theorem unpacked_same (pass : Pass V) (saved data before : Files) :
    SameData tool (unpacked tool pass saved data) before ↔
      ∀ path, path ∉ tool.filesToPreserve → (saved path).or (data path) = before path := by
  refine forall₂_congr fun path other => ?_
  rw [unpacked,if_neg fun kept => other kept.1]

private theorem or_left_iff (first second : Option String) : first.or second = first ↔
    (first = none → second = none) := by
  cases first <;> simp

private theorem or_right_iff (first second : Option String) :
    first.or second = second ↔ first = none ∨ first = second := by
  cases first <;> simp

section Left
variable {pass : Pass V} {machine : Machine V} {currSrcVer newSrcVer : String}

private theorem backup_failed_left {left : Option Files} (fails : pass.backupFails = some left)
    (unpacks : pass.unpackFails = none) :
    SameData tool (leftState (migrateNode nodeVersion tool pass currSrcVer newSrcVer machine)).data
        machine.data ↔
      ∀ saved, left = some saved → ∀ path, path ∉ tool.filesToPreserve →
        saved path = none ∨ saved path = machine.data path := by
  simp only [migrateNode,createBackup,fails,error_bind,restoreFromBackup,Function.update_self]
  cases left with
  | none => exact iff_of_true (fun _ _ => rfl) (by simp)
  | some saved => simp only [unpacks,leftState,unpacked_same,or_right_iff,Option.some.injEq,forall_eq']

private theorem migration_failed_left {changed : Files} (made : pass.backupFails = none)
    (fails : migrate nodeVersion pass currSrcVer newSrcVer machine.data = .error changed)
    (unpacks : pass.unpackFails = none) :
    SameData tool (leftState (migrateNode nodeVersion tool pass currSrcVer newSrcVer machine)).data
        machine.data ↔
      ∀ path, path ∉ tool.filesToPreserve → machine.data path = none → changed path = none := by
  simp only [migrateNode,createBackup,made,ok_bind,doMigration,fails,restoreFromBackup,
    Function.update_self,unpacks,leftState,unpacked_same,or_left_iff]

private theorem migration_done_left {changed : Files} (made : pass.backupFails = none)
    (succeeds : migrate nodeVersion pass currSrcVer newSrcVer machine.data = .ok changed) :
    (leftState (migrateNode nodeVersion tool pass currSrcVer newSrcVer machine)).data = changed := by
  simp only [migrateNode,createBackup,made,ok_bind,doMigration,succeeds,removeOldBackups]
  split <;> rfl

private theorem restart_left (tried : Except (Machine V) (Machine V)) :
    leftState (tried >>= callRestartNodeScript pass) = leftState tried := by
  cases tried with
  | error machine => rfl
  | ok machine =>
    rw [ok_bind,callRestartNodeScript]
    split <;> rfl

/-- The data that a pass leaves are those from before it exactly when it is recoverable. -/
theorem tryUpgrade_left (unpacks : pass.unpackFails = none) (newPkgVer : V) :
    SameData tool (leftState (tryUpgrade nodeVersion nodeRelease tool pass newPkgVer machine)).data
        machine.data ↔
      Recoverable nodeVersion nodeRelease tool pass newPkgVer machine.data := by
  unfold tryUpgrade callUpgradeScript Recoverable
  cases pass.scriptFails with
  | some left => exact iff_of_true (fun _ _ => rfl) trivial
  | none =>
    rw [ok_bind]
    dsimp only
    cases nodeRelease newPkgVer with
    | none => exact iff_of_true (fun _ _ => rfl) trivial
    | some newSrcVer =>
      dsimp only
      rw [restart_left]
      cases backup : pass.backupFails with
      | some left => exact backup_failed_left backup unpacks
      | none =>
        cases migration : migrate nodeVersion pass tool.running newSrcVer machine.data with
        | error changed => exact migration_failed_left backup migration unpacks
        | ok changed =>
          exact .of_eq (congrArg (fun data => SameData tool data machine.data)
            (migration_done_left backup migration))

private theorem migrateNode_succeeded {final : Machine V}
    (succeeded : migrateNode nodeVersion tool pass currSrcVer newSrcVer machine = .ok final) :
    final.installed = machine.installed ∧
      migrate nodeVersion pass currSrcVer newSrcVer machine.data = .ok final.data := by
  unfold migrateNode at succeeded
  split at succeeded
  · cases succeeded
  · rename_i migrated tried
    obtain ⟨stored,backup,tried⟩ := bind_success _ _ _ tried
    have kept : final.installed = migrated.installed ∧ final.data = migrated.data := by
      unfold removeOldBackups at succeeded
      split at succeeded
      · cases succeeded
      · obtain rfl := Except.ok.inj succeeded
        exact ⟨rfl,rfl⟩
    have before : stored.installed = machine.installed ∧ stored.data = machine.data := by
      unfold createBackup at backup
      split at backup
      · obtain rfl := Except.ok.inj backup
        exact ⟨rfl,rfl⟩
      · cases backup
    unfold doMigration at tried
    rw [before.2] at tried
    split at tried
    · cases tried
    · rename_i data done
      obtain rfl := Except.ok.inj tried
      exact ⟨kept.1.trans before.1,by rw [kept.2,done]⟩

private theorem tryUpgrade_succeeded {newPkgVer : V} {final : Machine V}
    (succeeded : tryUpgrade nodeVersion nodeRelease tool pass newPkgVer machine = .ok final) :
    final.installed = newPkgVer ∧ ∃ newSrcVer, nodeRelease newPkgVer = some newSrcVer ∧
      migrate nodeVersion pass tool.running newSrcVer machine.data = .ok final.data := by
  obtain ⟨installed,script,succeeded⟩ := bind_success _ _ _ succeeded
  obtain rfl : { machine with installed := newPkgVer } = installed := by
    unfold callUpgradeScript at script
    split at script
    · exact Except.ok.inj script
    · cases script
  dsimp only at succeeded
  split at succeeded
  · cases succeeded
  · rename_i newSrcVer release
    obtain ⟨migrated,migration,restart⟩ := bind_success _ _ _ succeeded
    obtain rfl : migrated = final := by
      unfold callRestartNodeScript at restart
      split at restart
      · cases restart
      · exact Except.ok.inj restart
    obtain ⟨same,done⟩ := migrateNode_succeeded migration
    exact ⟨same,newSrcVer,release,done⟩

end Left

theorem rollback_restores_iff (pass back : Pass V) (newPkgVer : V) (machine broken final : Machine V)
    (failed : tryUpgrade nodeVersion nodeRelease tool pass newPkgVer machine = .error broken)
    (unpacks : pass.unpackFails = none)
    (succeeded : tryUpgrade nodeVersion nodeRelease tool back machine.installed broken = .ok final)
    (irreversible : ∀ scripts srcVer, back.migrationScripts = some scripts →
      nodeRelease machine.installed = some srcVer →
      getRelevantMigrations nodeVersion scripts tool.running srcVer = .ok []) :
    doUpgrade nodeVersion nodeRelease tool pass back machine.installed newPkgVer true machine = final ∧
      final.installed = machine.installed ∧
      (SameData tool final.data machine.data ↔
        Recoverable nodeVersion nodeRelease tool pass newPkgVer machine.data) := by
  obtain ⟨installed,srcVer,release,migrated⟩ := tryUpgrade_succeeded succeeded
  have kept : final.data = broken.data := by
    unfold migrate at migrated
    split at migrated
    · cases migrated
    · rename_i scripts listed
      rw [irreversible scripts srcVer listed release] at migrated
      exact (Except.ok.inj migrated).symm
  refine ⟨?_,installed,?_⟩
  · rw [doUpgrade,failed]
    dsimp only
    rw [succeeded]
    rfl
  · rw [← tryUpgrade_left unpacks newPkgVer,failed,kept]
    rfl

end Rollback

section Samples

def sampleControl : NodeControlTool :=
  ⟨["last_version","next_version","upgrade_log","last_version_file","restart_log"],"sandbox_backup_","1.0.0"⟩

def nodeBefore : Machine String := ⟨"1.0.0",fun path => if path = "ledger" then some "old" else none,fun _ => none⟩

/-- One migration writes to a file, and either it or the restart fails. -/
def upgradePass (file : String) (migrates restarts : Bool) : Pass String where
  scriptFails := none
  backupFails := none
  migrationScripts := some ["1_0_0_to_1_0_1"]
  migrationScript _ data := (Function.update data file (some "new"),migrates)
  copied _ := true
  unpackFails := none
  removed _ := false
  removalFails := false
  restartFails := !restarts

def upgraded (file : String) (migrates restarts : Bool) : Machine String :=
  doUpgrade releaseParts some sampleControl (upgradePass file migrates restarts) (upgradePass file true true)
    "1.0.0" "1.0.1" true nodeBefore

theorem failed_migration_undone : (upgraded "ledger" false true).installed = "1.0.0" ∧
    SameData sampleControl (upgraded "ledger" false true).data nodeBefore.data := by
  have irreversible : ∀ scripts srcVer, (upgradePass "ledger" true true).migrationScripts = some scripts →
      some nodeBefore.installed = some srcVer →
      getRelevantMigrations releaseParts scripts sampleControl.running srcVer = .ok [] := by
    intro scripts srcVer listed release
    obtain rfl := Option.some.inj listed
    obtain rfl := Option.some.inj release
    rfl
  obtain ⟨whole,installed,undone⟩ := @rollback_restores_iff _ _ _ releaseParts some sampleControl
    (upgradePass "ledger" false true) (upgradePass "ledger" true true) "1.0.1" nodeBefore _ _ rfl rfl rfl
    irreversible
  rw [show upgraded "ledger" false true = _ from whole]
  refine ⟨installed,undone.mpr fun path _ absent => ?_⟩
  have other : path ≠ "ledger" := by
    rintro rfl
    cases absent
  exact (Function.update_of_ne other _ _).trans absent

/-- A failed restart leaves the migrated data, and the backup is taken again from them. A
failed migration leaves the files that it has made. -/
theorem rollback_keeps_migrated_data :
    (upgraded "ledger" true false).installed = "1.0.0" ∧
      (upgraded "ledger" true false).data "ledger" = some "new" ∧
      ((upgraded "ledger" true false).archives "sandbox_backup_1.0.0.zip").bind (· "ledger") = some "new" ∧
      nodeBefore.data "ledger" = some "old" ∧
      (upgraded "index" false true).data "index" = some "new" ∧ nodeBefore.data "index" = none := by
  exact ⟨rfl,rfl,rfl,rfl,rfl,rfl⟩

end Samples
end IndyNode.Upgrade

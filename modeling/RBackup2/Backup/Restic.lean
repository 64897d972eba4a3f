import RBackup2.Config.Remote
import RBackup2.Error

/-!
# The restic command

`backup/restic.rs`: `ResticCommand::new` needs the repository URL, the repository password and the
binary, in this order; `buildBackupCommand` writes the command line of one backup.

* `ResticCommand.new_ok_iff` — exactly when `ResticCommand::new` succeeds.
-/

set_option autoImplicit false

namespace RBackup2

/-- `cfg!(target_os = "windows")`. -/
inductive TargetOs where
  | windows
  | other
  deriving DecidableEq, Repr

/-- `which::which`: the path of a program found in `PATH`, or why there is none. -/
abbrev Which := String → Except String String

/-- A process to spawn: the environment variables set and the arguments, in order. -/
structure Command where
  program : String
  env : List (String × String)
  args : List String
  deriving DecidableEq, Repr

structure ResticCommand where
  binaryPath : String
  repositoryUrl : String
  repositoryPassword : String
  cacheDir : Option String
  environment : HashMap String String

def resticBinaryName : TargetOs → String
  | .windows => "restic.exe"
  | .other => "restic"

/-- `ResticCommand::find_restic_binary`. -/
def findResticBinary (os : TargetOs) (which : Which) : Except AppError String :=
  match which (resticBinaryName os) with
  | .ok path => .ok path
  | .error _ => .error (.backup (.resticNotFound
      "restic binary not found in PATH. Please install restic: https://restic.net/"))

/-- `ResticCommand::new`. -/
def ResticCommand.new (os : TargetOs) (which : Which) (config : RemoteConfig) :
    Except AppError ResticCommand :=
  match config.repositoryUrl with
  | none => .error (.backup (.configurationError "Repository URL not set"))
  | some repositoryUrl =>
    match config.repositoryPassword with
    | none => .error (.backup (.configurationError "Repository password not set"))
    | some repositoryPassword =>
      match findResticBinary os which with
      | .error e => .error e
      | .ok binaryPath =>
        .ok ⟨binaryPath, repositoryUrl, repositoryPassword, config.repositoryCacheDir, ∅⟩

/-- The strings among the elements of a JSON array; nothing if it is no array. -/
def argStrings (args : Json) : List String :=
  match args.asArray with
  | none => []
  | some argsArray => argsArray.filterMap Json.asStr

/-- `ResticCommand::build_backup_command`. -/
def ResticCommand.buildBackupCommand (self : ResticCommand) (job : BackupJob) : Command where
  program := self.binaryPath
  env := [("RESTIC_REPOSITORY", self.repositoryUrl),
      ("RESTIC_PASSWORD", self.repositoryPassword)] ++
    (match self.cacheDir with
      | some cacheDir => if cacheDir ≠ "" then [("RESTIC_CACHE_DIR", cacheDir)] else []
      | none => []) ++
    self.environment.entries.map fun e => (e.1, e.2)
  args := ["backup", "--json"] ++ job.sourcePaths ++
    (match job.excludePatterns with
      | some excludePatterns => excludePatterns.flatMap fun pattern => ["--exclude", pattern]
      | none => []) ++
    (job.getResticTags.flatMap fun tag => ["--tag", tag]) ++
    (match job.tags with
      | some customTags => customTags.flatMap fun tag => ["--tag", tag]
      | none => []) ++
    argStrings job.resticArgs

/-- The three things `ResticCommand::new` asks for. -/
def ResticAvailable (os : TargetOs) (which : Which) (config : RemoteConfig) : Prop :=
  config.repositoryUrl.isSome ∧ config.repositoryPassword.isSome ∧
    ∃ path, which (resticBinaryName os) = .ok path

theorem ResticCommand.new_ok_iff (os : TargetOs) (which : Which) (config : RemoteConfig) :
    (∃ cmd, ResticCommand.new os which config = .ok cmd) ↔ ResticAvailable os which config := by
  unfold ResticCommand.new ResticAvailable findResticBinary
  cases config.repositoryUrl with
  | none => simp
  | some url =>
    cases config.repositoryPassword with
    | none => simp
    | some password =>
      cases which (resticBinaryName os) with
      | error e => simp
      | ok path => simp

end RBackup2

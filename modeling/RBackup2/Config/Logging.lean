import RBackup2.Config.Local
import RBackup2.Lib.UnixPath

/-!
# The logger

The first two statements of `main.rs`'s `run`: the local configuration is loaded, and
`setupLogging` takes the path of its log file apart with two calls of `expect`.  The tracing
crates enter as a `Tracing`.

* `setupLogging_eq_expect_iff` — which `expect` panics: the first one without a parent, the second
  one with a parent but without a file name.
* `validated_log_file_iff` — neither panics exactly when the path ends in a name, which `validate`
  does not look at.
* `setupLogging_daily` — the directory and the name that are passed on make up the path.
* `startUp_panics_iff` — the starts of the client that end in a panic of `setup_logging`.
-/

set_option autoImplicit false

namespace RBackup2

open UnixPath

/-- A call that does not come back. -/
inductive Panic where
  /-- An `expect` of `setup_logging`, with its text. -/
  | expect (msg : String)
  /-- A panic inside the tracing crates. -/
  | tracing (msg : String)
  deriving DecidableEq, Repr

/-- `Option::expect`. -/
def expect {α : Type} (o : Option α) (msg : String) : Except Panic α :=
  match o with
  | some a => .ok a
  | none => .error (.expect msg)

/-- What `setup_logging` calls of `tracing_appender` and `tracing_subscriber`. -/
structure Tracing (FileAppender EnvFilter : Type) where
  /-- `rolling::daily`, which panics if it cannot open the file. -/
  daily : List Component → String → Except String FileAppender
  tryFromDefaultEnv : Except String EnvFilter
  tryNew : String → Except String EnvFilter
  /-- `SubscriberInitExt::init` of the registry, which panics if there is a logger already. -/
  init : EnvFilter → FileAppender → Except String Unit

variable {FileAppender EnvFilter : Type}

/-- `EnvFilter::try_from_default_env().or_else(|_| EnvFilter::try_new("info"))`. -/
def Tracing.envFilter (tracing : Tracing FileAppender EnvFilter) : Except String EnvFilter :=
  match tracing.tryFromDefaultEnv with
  | .ok filter => .ok filter
  | .error _ => tracing.tryNew "info"

def noParent : String := "Log file must have a parent directory"

def noFileName : String := "Log file must have a filename"

/-- `setup_logging`. -/
def setupLogging (tracing : Tracing FileAppender EnvFilter) (config : LocalConfig) :
    Except Panic (Except AppError Unit) :=
  match expect (parent config.client.logFile) noParent with
  | .error p => .error p
  | .ok directory =>
    match expect (fileName config.client.logFile) noFileName with
    | .error p => .error p
    | .ok name =>
      match tracing.daily directory name with
      | .error msg => .error (.tracing msg)
      | .ok fileAppender =>
        match tracing.envFilter with
        | .error e => .ok (.error (.config (.validationFailed ("Invalid log filter: " ++ e))))
        | .ok envFilter =>
          match tracing.init envFilter fileAppender with
          | .error msg => .error (.tracing msg)
          | .ok () => .ok (.ok ())

/-- **Which `expect` of `setup_logging` panics.** -/
theorem setupLogging_eq_expect_iff (tracing : Tracing FileAppender EnvFilter)
    (config : LocalConfig) (msg : String) :
    setupLogging tracing config = .error (.expect msg) ↔
      (parent config.client.logFile = none ∧ msg = noParent) ∨
        (∃ directory, parent config.client.logFile = some directory) ∧
          fileName config.client.logFile = none ∧ msg = noFileName := by
  unfold setupLogging
  cases hp : parent config.client.logFile with
  | none => simp [expect, eq_comm]
  | some directory =>
    cases hn : fileName config.client.logFile with
    | none => simp [expect, eq_comm]
    | some name =>
      simp only [expect]
      cases tracing.daily directory name with
      | error msg => simp
      | ok fileAppender =>
        cases tracing.envFilter with
        | error e => simp
        | ok envFilter =>
          cases hinit : tracing.init envFilter fileAppender with
          | error msg => simp [hinit]
          | ok _ => simp [hinit]

/-- Some `expect` panics exactly when the path of the log file does not end in a name. -/
theorem setupLogging_panics_iff (tracing : Tracing FileAppender EnvFilter) (config : LocalConfig) :
    (∃ msg, setupLogging tracing config = .error (.expect msg)) ↔
      ¬ NamesFile config.client.logFile := by
  rw [← parent_and_fileName_iff]
  simp only [setupLogging_eq_expect_iff]
  cases hp : parent config.client.logFile with
  | none => simp
  | some directory => cases fileName config.client.logFile <;> simp

/-- What the tracing crates are given makes up the path of the configuration. -/
theorem setupLogging_daily {tracing : Tracing FileAppender EnvFilter} {config : LocalConfig}
    {r : Except AppError Unit} (h : setupLogging tracing config = .ok r) :
    ∃ directory name fileAppender, tracing.daily directory name = .ok fileAppender ∧
      components config.client.logFile = directory ++ [.normal name] := by
  unfold setupLogging at h
  cases hp : parent config.client.logFile with
  | none => simp [hp, expect] at h
  | some directory =>
    cases hn : fileName config.client.logFile with
    | none => simp [hp, hn, expect] at h
    | some name =>
      cases hd : tracing.daily directory name with
      | error msg => simp [hp, hn, hd, expect] at h
      | ok fileAppender =>
        obtain ⟨directory', hparent, hcomponents⟩ := components_of_fileName hn
        rw [hp, Option.some.injEq] at hparent
        exact ⟨directory, name, fileAppender, hd, hparent ▸ hcomponents⟩

/-! ## Starting up -/

/-- `run` up to the logger. -/
def startUp (content : Except String String) (fromStr : String → Except String LocalConfig)
    (tracing : Tracing FileAppender EnvFilter) : Except Panic (Except AppError LocalConfig) :=
  match LocalConfig.fromFile content fromStr with
  | .error e => .ok (.error e)
  | .ok config =>
    match setupLogging tracing config with
    | .error p => .error p
    | .ok (.error e) => .ok (.error e)
    | .ok (.ok ()) => .ok (.ok config)

theorem startUp_eq_expect_iff (content : Except String String)
    (fromStr : String → Except String LocalConfig) (tracing : Tracing FileAppender EnvFilter)
    (msg : String) :
    startUp content fromStr tracing = .error (.expect msg) ↔
      ∃ config, LocalConfig.fromFile content fromStr = .ok config ∧
        setupLogging tracing config = .error (.expect msg) := by
  unfold startUp
  cases LocalConfig.fromFile content fromStr with
  | error e => simp
  | ok config =>
    simp only [Except.ok.injEq, exists_eq_left']
    cases setupLogging tracing config with
    | error p => simp
    | ok r => cases r <;> simp

/-- **The starts of the client that end in an `expect`**: those with a configuration that was
    loaded, so accepted, and whose log file does not end in a name. -/
theorem startUp_panics_iff (content : Except String String)
    (fromStr : String → Except String LocalConfig) (tracing : Tracing FileAppender EnvFilter) :
    (∃ msg, startUp content fromStr tracing = .error (.expect msg)) ↔
      ∃ config, LocalConfig.fromFile content fromStr = .ok config ∧ config.validate = .ok () ∧
        ¬ NamesFile config.client.logFile := by
  simp only [startUp_eq_expect_iff]
  constructor
  · rintro ⟨msg, config, hfile, hpanic⟩
    exact ⟨config, hfile, LocalConfig.fromFile_valid hfile,
      (setupLogging_panics_iff tracing config).1 ⟨msg, hpanic⟩⟩
  · rintro ⟨config, hfile, -, hn⟩
    obtain ⟨msg, hpanic⟩ := (setupLogging_panics_iff tracing config).2 hn
    exact ⟨msg, config, hfile, hpanic⟩

/-- **For an accepted configuration the two `expect`s of the logger set-up hold exactly when the
    path of the log file ends in a name; what `validate` does check leaves it without a parent
    exactly when it names nothing below the root.** -/
theorem validated_log_file_iff {config : LocalConfig} (h : config.validate = .ok ()) :
    ((((parent config.client.logFile).isSome ∧ (fileName config.client.logFile).isSome) ∧
        ∀ (tracing : Tracing FileAppender EnvFilter) (msg : String),
          setupLogging tracing config ≠ .error (.expect msg)) ↔
      NamesFile config.client.logFile) ∧
    (parent config.client.logFile = none ↔
      hasRoot config.client.logFile = true ∧ names config.client.logFile = []) := by
  constructor
  · rw [parent_and_fileName_iff]
    constructor
    · exact fun h => h.1
    · refine fun hn => ⟨hn, fun tracing msg hpanic => ?_⟩
      exact (setupLogging_panics_iff tracing config).1 ⟨msg, hpanic⟩ hn
  · rw [parent_eq_none_iff]
    have hne := config.logFile_ne h
    constructor
    · rintro ⟨hn, hroot | hempty⟩
      · exact ⟨hroot, hn⟩
      · exact absurd hempty hne
    · rintro ⟨hroot, hn⟩
      exact ⟨hn, .inl hroot⟩

/-- A configuration with the given log file. -/
def LocalConfig.withLogFile (logFile : String) : LocalConfig :=
  { withPassword "localhost" "secret" with client := ⟨logFile⟩ }

theorem LocalConfig.withLogFile_valid {logFile : String} (h : logFile ≠ "") :
    (withLogFile logFile).validate = .ok () := by
  rw [validate, checkRequired_ok_iff]
  simp [required, withLogFile, withPassword, h]

/-- Crates that open every file and take every filter. -/
def Tracing.permissive : Tracing Unit Unit where
  daily := fun _ _ => .ok ()
  tryFromDefaultEnv := .error "environment variable not found"
  tryNew := fun _ => .ok ()
  init := fun _ _ => .ok ()

theorem validated_log_file_iff_var_log :
    ((parent "/var/log/rbackup2.log").isSome ∧ (fileName "/var/log/rbackup2.log").isSome) ∧
      ∀ (tracing : Tracing Unit Unit) (msg : String),
        setupLogging tracing (.withLogFile "/var/log/rbackup2.log") ≠ .error (.expect msg) :=
  (validated_log_file_iff (LocalConfig.withLogFile_valid (by simp))).1.2
    ⟨"rbackup2.log", by decide, by decide⟩

/-- `/` has no parent, and `/var/log/..` no file name: both configurations are accepted, and the
    logger set-up panics on them. -/
theorem accepted_log_file_panics :
    ¬ (∀ config : LocalConfig, config.validate = .ok () →
      (parent config.client.logFile).isSome ∧ (fileName config.client.logFile).isSome) ∧
    setupLogging .permissive (.withLogFile "/") = .error (.expect noParent) ∧
    setupLogging .permissive (.withLogFile "/var/log/..") = .error (.expect noFileName) := by
  refine ⟨fun h => ?_, rfl, rfl⟩
  exact absurd (h (.withLogFile "/") (LocalConfig.withLogFile_valid (by simp))).1 (by decide)

end RBackup2

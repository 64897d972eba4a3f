/-!
# Errors

`error.rs`: the error enumerations the modelled functions return, with the texts of their
`Display` implementations (`execute_backup` writes such a text into the run record).  The
library errors an `AppError` wraps (`sqlx::Error`, `io::Error`) are represented by their own
`Display` text.

* `AppError.display_ne_empty` — no error is displayed as the empty text.
-/

set_option autoImplicit false

namespace RBackup2

inductive ConfigError where
  | loadFailed (msg : String)
  | parseFailed (msg : String)
  | validationFailed (msg : String)
  deriving DecidableEq, Repr

inductive DatabaseError where
  | connectionFailed (err : String)
  | queryFailed (err : String)
  | migrationFailed (err : String)
  deriving DecidableEq, Repr

inductive BackupError where
  | resticNotFound (msg : String)
  | executionFailed (msg : String)
  | outputParseFailed (msg : String)
  | configurationError (msg : String)
  deriving DecidableEq, Repr

inductive SchedulerError where
  | invalidCronExpression (msg : String)
  | invalidInterval (msg : String)
  | jobNotFound (msg : String)
  deriving DecidableEq, Repr

/-- `AppError`; `ApiError` belongs to a server that does not exist yet. -/
inductive AppError where
  | config (e : ConfigError)
  | database (e : DatabaseError)
  | backup (e : BackupError)
  | scheduler (e : SchedulerError)
  deriving DecidableEq, Repr

def ConfigError.display : ConfigError → String
  | .loadFailed msg => "Failed to load configuration: " ++ msg
  | .parseFailed msg => "Failed to parse configuration: " ++ msg
  | .validationFailed msg => "Configuration validation failed: " ++ msg

def DatabaseError.display : DatabaseError → String
  | .connectionFailed e => "Database connection failed: " ++ e
  | .queryFailed e => "Database query failed: " ++ e
  | .migrationFailed e => "Database migration failed: " ++ e

def BackupError.display : BackupError → String
  | .resticNotFound msg => "restic binary not found: " ++ msg
  | .executionFailed msg => "Backup execution failed: " ++ msg
  | .outputParseFailed msg => "Failed to parse backup output: " ++ msg
  | .configurationError msg => "Backup configuration error: " ++ msg

def SchedulerError.display : SchedulerError → String
  | .invalidCronExpression msg => "Invalid cron expression: " ++ msg
  | .invalidInterval msg => "Invalid interval: " ++ msg
  | .jobNotFound msg => "Job not found: " ++ msg

/-- `impl fmt::Display for AppError`. -/
def AppError.display : AppError → String
  | .config e => "Configuration error: " ++ e.display
  | .database e => "Database error: " ++ e.display
  | .backup e => "Backup error: " ++ e.display
  | .scheduler e => "Scheduler error: " ++ e.display

/-- A text put after a non-empty one is not empty. -/
theorem append_ne_empty {p : String} (hp : p ≠ "") (s : String) : p ++ s ≠ "" := by
  intro h
  exact hp (String.append_eq_empty_iff.1 h).1

theorem AppError.display_ne_empty (e : AppError) : e.display ≠ "" := by
  cases e <;> exact append_ne_empty (by decide) _

/-- `?` on a failed sqlx call: `impl From<sqlx::Error> for AppError`. -/
def AppError.ofSqlx (err : String) : AppError := .database (.queryFailed err)

end RBackup2

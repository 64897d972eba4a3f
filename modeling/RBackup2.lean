import RBackup2.Lib.Transition
import RBackup2.Lib.Text
import RBackup2.Lib.Options
import RBackup2.Lib.Decimal
import RBackup2.Lib.Percent
import RBackup2.Lib.Url
import RBackup2.Lib.UnixPath
import RBackup2.Lib.Calendar
import RBackup2.Lib.Cron
import RBackup2.Lib.Sql
import RBackup2.Lib.Relational
import RBackup2.Lib.Clock
import RBackup2.Lib.Progress
import RBackup2.Lib.Separation
import RBackup2.Error
import RBackup2.Db.Models
import RBackup2.Db.Queries
import RBackup2.Db.Schema
import RBackup2.Config.Local
import RBackup2.Config.Logging
import RBackup2.Config.Remote
import RBackup2.Config.Settings
import RBackup2.Backup.Output
import RBackup2.Backup.Restic
import RBackup2.Backup.CommandLine
import RBackup2.Backup.Tags
import RBackup2.Backup.Execute
import RBackup2.Backup.Stats
import RBackup2.Backup.Decode
import RBackup2.Backup.Runs
import RBackup2.Backup.RunTimes
import RBackup2.Db.Integrity
import RBackup2.Db.Deletion
import RBackup2.Db.Registration
import RBackup2.Backup.OnServer
import RBackup2.Backup.Recorded
import RBackup2.Backup.Closed
import RBackup2.Scheduler.ScheduleCalc
import RBackup2.Scheduler.CronMeaning
import RBackup2.Scheduler.CronAccept
import RBackup2.Scheduler.MissedRuns
import RBackup2.Scheduler.Executor
import RBackup2.Scheduler.Cap
import RBackup2.Scheduler.Slots
import RBackup2.Scheduler.Core
import RBackup2.Scheduler.Tick
import RBackup2.Scheduler.Firing
import RBackup2.Scheduler.Cadence
import RBackup2.Scheduler.Occurrence
import RBackup2.Scheduler.Load
import RBackup2.Scheduler.Reload
import RBackup2.Scheduler.CatchUp
import RBackup2.Scheduler.Shared
import RBackup2.Scheduler.LastRun
import RBackup2.Scheduler.Advance
import RBackup2.Scheduler.Restart
import RBackup2.Scheduler.Definition
import RBackup2.Scheduler.Crash
import RBackup2.Scheduler.Tasks
import RBackup2.Client
import RBackup2.Eligibility
import RBackup2.Scheduler.Fleet
import RBackup2.Scheduler.OnServer
import RBackup2.Statements
import RBackup2.Startup
import RBackup2.Startable
import RBackup2.Provenance
import RBackup2.Progress
import RBackup2.Limits
import RBackup2.Lives
import RBackup2.OnServer
import RBackup2.Process
import RBackup2.TestBackup

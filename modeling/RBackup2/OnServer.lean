import Mathlib.Data.Nat.Pairing
import RBackup2.Lives
import RBackup2.Scheduler.OnServer

/-!
# Clients on a server

Whole clients — scheduler, channel, executor and tasks — on the tables of one server, which checks
every statement, while anybody else writes to the other tables and deletes runs.

* `ClientMemory` — a client without the tables; `ClientMemory.step` — its step on tables of structs
  that all clients share, `ClientMemory.onServer` — its step on the server.
* `jobByIdRows_toBackupJob` — the SELECT of a task, on rows and on structs.
* `clients_on_server` — the clients take the steps they take on the tables of structs.
-/

set_option autoImplicit false

namespace RBackup2

open Sql Transition

/-! ## Clients on tables of structs -/

/-- A client, without the tables. -/
structure ClientMemory where
  /-- What its executor was made of. -/
  executor : JobExecutor
  schedules : ScheduleMap
  /-- What the current call of `check_schedules` has still to do. -/
  pending : List Effect
  runningJobs : HashMap String Uuid
  tasks : List Task
  jobQueue : List JobExecution

/-- The tables the clients share. -/
structure Store where
  tables : Tables
  runs : RunsTable

def ClientMemory.on (m : ClientMemory) (db : Store) : Client where
  world := ⟨db.tables.jobs, db.tables.rows, m.schedules⟩
  pending := m.pending
  executor := { shared := ⟨m.runningJobs, db.runs⟩, parts := m.tasks, jobQueue := m.jobQueue }

def Client.store (c : Client) : Store := ⟨⟨c.world.jobs, c.world.rows⟩, c.executor.shared.runs⟩

def Client.memory (c : Client) (ex : JobExecutor) : ClientMemory where
  executor := ex
  schedules := c.world.schedules
  pending := c.pending
  runningJobs := c.executor.shared.runningJobs
  tasks := c.executor.parts
  jobQueue := c.executor.jobQueue

/-- A step of a client on the tables. -/
def ClientMemory.step (cron : CronCrate) (db : Store) (m : ClientMemory) (a : ClientAction) :
    Option (Store × ClientMemory) :=
  ((m.on db).step cron m.executor a).map fun c => (c.store, c.memory m.executor)

/-- Clients and the tables they share. -/
abbrev Clients := Interleaving Store ClientMemory

def Clients.step (cron : CronCrate) (s : Clients) (a : Nat × ClientAction) : Option Clients :=
  Interleaving.step (ClientMemory.step cron) s a

/-! ## Clients on the server -/

/-- `get_job_by_id`. -/
def Server.getJobById (json : String → Json) (s : Server) (jobId : Uuid) :
    Except DecodeError (Option BackupJob) :=
  (s.database.getJobById jobId).map fun _ =>
    (s.database.jobByIdRows jobId).head?.map (Row.toBackupJob json)

/-- The statement a check sends next. -/
def ClientMemory.statement (m : ClientMemory) : ClientAction → Option ClientStatement
  | .effect => m.pending.head?.bind Effect.statement
  | _ => none

/-- The task at position `i` is now there. -/
def ClientMemory.setPhase (m : ClientMemory) (i : Nat) (execution : JobExecution) (p : Phase) :
    ClientMemory :=
  { m with tasks := m.tasks.set i ⟨execution, p⟩ }

/-- A step of a client; the server's clock reads `now`.  A row that cannot be decoded is an error
    of the SELECT. -/
def ClientMemory.onServer (json : String → Json) (cron : CronCrate) (s : Server)
    (m : ClientMemory) (now : DateTime) : ClientAction → Option (Server × ClientMemory)
  | .executor (.task i (.getJobById none)) =>
    match m.tasks[i]? with
    | some ⟨execution, .received⟩ =>
      match s.getJobById json execution.jobId with
      | .error _ => none
      | .ok none => some (s, m.setPhase i execution (.finished .notFound))
      | .ok (some job) => some (s, m.setPhase i execution (.found job))
    | _ => none
  | .executor (.task i (.backup ev)) =>
    match m.tasks[i]? with
    | some ⟨execution, .executing job call⟩ =>
      (call.onServer m.executor.serde s ev).map fun p =>
        (p.1, m.setPhase i execution (.executing job p.2))
    | _ => none
  | a =>
    -- the other steps read no table
    match m.step cron ⟨⟨[], []⟩, .empty⟩ a, m.statement a with
    | none, _ => none
    | some (_, m'), none => some (s, m')
    | some (_, m'), some q => (s.execute (.client q now)).map fun s' => (s', m')

/-- Clients on one server. -/
abbrev ServerClients := Interleaving Server ClientMemory

inductive ServerClientsAction where
  | client (i : Nat) (a : ClientAction) (now : DateTime)
  /-- Anything else that happens on the server. -/
  | other (a : ServerAction)

def ServerClients.step (json : String → Json) (cron : CronCrate) (s : ServerClients) :
    ServerClientsAction → Option ServerClients
  | .client i a now => Interleaving.step (fun sv m a => m.onServer json cron sv now a) s (i, a)
  | .other a => (s.shared.step a).map fun sv => ⟨sv, s.parts⟩

/-- The steps of the clients. -/
def ServerClientsAction.event : ServerClientsAction → Option (Nat × ClientAction)
  | .client i a _ => some (i, a)
  | .other _ => none

/-! ## Rows and structs -/

/-- The SELECT of `get_job_by_id`, on rows and on structs. -/
theorem jobByIdRows_toBackupJob (json : String → Json) {s : Server} (hs : schema.Valid s.contents)
    (jobId : Uuid) : (s.database.jobByIdRows jobId).head?.map (Row.toBackupJob json) =
      getJobById (s.tables json).jobs jobId := by
  have hkey : ∀ r ∈ s.contents .backupJobs,
      (r "id" == .uuid jobId) = ((Row.toBackupJob json r).id == jobId) := by
    intro r hr
    rw [(backupJob_columns json (hs.fits .backupJobs r hr).1).1, Bool.eq_iff_iff]
    simp
  have hrows : s.database.jobByIdRows jobId =
      (s.contents .backupJobs).filter fun r => (Row.toBackupJob json r).id == jobId :=
    List.filter_congr hkey
  rw [hrows, getJobById, Server.tables, List.find?_map, List.head?_filter]
  rfl

theorem Server.getJobById_ok {json : String → Json} {s : Server} {jobId : Uuid}
    {o : Option BackupJob} (h : s.getJobById json jobId = .ok o) :
    o = (s.database.jobByIdRows jobId).head?.map (Row.toBackupJob json) := by
  unfold Server.getJobById at h
  cases hrow : s.database.getJobById jobId with
  | error e =>
    rw [hrow] at h
    cases h
  | ok vs =>
    rw [hrow] at h
    exact (Except.ok.inj h).symm

/-! ## Steps that read no table -/

/-- The step is a SELECT of a job, or a step of a backup. -/
def ClientAction.readsTables : ClientAction → Bool
  | .executor (.task _ (.getJobById none)) => true
  | .executor (.task _ (.backup _)) => true
  | _ => false

/-- What a step of a task that reads no table does, whatever the tables are. -/
theorem Task.step_noTables (ex : JobExecutor) (jobs : List BackupJob)
    (running : HashMap String Uuid) (runs : RunsTable) (t : Task) {ev : TaskEvent}
    (hev : ClientAction.readsTables (.executor (.task 0 ev)) = false) :
    t.step ex jobs ⟨running, runs⟩ ev =
      (t.step ex [] ⟨running, .empty⟩ ev).map fun p => (⟨p.1.runningJobs, runs⟩, p.2) := by
  cases ev with
  | backup bev => cases hev
  | getJobById err =>
    cases err with
    | none => cases hev
    | some e => cases hp : t.phase <;> simp [Task.step, hp]
  | canExecute =>
    cases hp : t.phase with
    | found job => by_cases hcan : ex.canExecute running job.deviceId = false <;>
        simp [Task.step, hp, hcan]
    | _ => simp [Task.step, hp]
  | markCompleted =>
    cases hp : t.phase with
    | executing job call => cases hpc : call.pc <;> simp [Task.step, hp, hpc]
    | _ => simp [Task.step, hp]
  | markRunning | startBackup => cases hp : t.phase <;> simp [Task.step, hp]

/-- What a step that reads no table does: to the memory, and with its statement to the tables. -/
theorem ClientMemory.step_noTables (cron : CronCrate) (db : Store) (m : ClientMemory)
    {a : ClientAction} (ha : a.readsTables = false) :
    m.step cron db a = (m.step cron ⟨⟨[], []⟩, .empty⟩ a).map fun p =>
      (⟨db.tables.after (m.statement a), db.runs⟩, p.2) := by
  cases a with
  | check t =>
    by_cases hok : m.pending = [] ∧ t.order.Perm m.schedules.ids
    · have hpos : ∀ db : Store, (m.on db).step cron m.executor (.check t) =
          some { m.on db with pending := checkSchedules cron (m.on db).world t } :=
        fun _ => if_pos hok
      rw [ClientMemory.step, ClientMemory.step, hpos, hpos]
      rfl
    · have hneg : ∀ db : Store, (m.on db).step cron m.executor (.check t) = none :=
        fun _ => if_neg hok
      rw [ClientMemory.step, ClientMemory.step, hneg, hneg]
      rfl
  | effect =>
    cases hp : m.pending with
    | nil => simp [ClientMemory.step, Client.step, ClientMemory.on, hp]
    | cons e rest =>
      cases e with
      | send e =>
        by_cases hroom : m.jobQueue.length < channelCapacity <;>
          simp [ClientMemory.step, Client.step, ClientMemory.on, Executor.send, hp, hroom,
            Client.store, Client.memory, ClientMemory.statement, Effect.statement, Tables.after]
      | _ =>
        simp [ClientMemory.step, Client.step, ClientMemory.on, World.apply, hp, Client.store,
          Client.memory, ClientMemory.statement, Effect.statement, Tables.after]
  | triggerManualBackup jobId =>
    by_cases hroom : m.jobQueue.length < channelCapacity <;>
      simp [ClientMemory.step, Client.step, ClientMemory.on, Executor.send, hroom, Client.store,
        Client.memory, ClientMemory.statement, Tables.after]
  | executor b =>
    cases b with
    | recv =>
      cases hq : m.jobQueue <;>
        simp [ClientMemory.step, Client.step, ClientMemory.on, Executor.step, hq, Client.store,
          Client.memory, ClientMemory.statement, Tables.after]
    | task i ev =>
      cases ht : m.tasks[i]? with
      | none =>
        simp [ClientMemory.step, Client.step, ClientMemory.on, Executor.step, Interleaving.step, ht]
      | some t =>
        have hev : ClientAction.readsTables (.executor (.task 0 ev)) = false := by
          cases ev with
          | getJobById err => cases err <;> first | rfl | cases ha
          | backup => cases ha
          | _ => rfl
        have hstep := Task.step_noTables m.executor db.tables.jobs m.runningJobs db.runs t hev
        simp only [ClientMemory.step, Client.step, ClientMemory.on, Executor.step,
          Interleaving.step, ht, hstep]
        cases t.step m.executor [] ⟨m.runningJobs, .empty⟩ ev <;> rfl

/-- What such a step is on the server. -/
theorem ClientMemory.onServer_noTables (json : String → Json) (cron : CronCrate) (s : Server)
    (m : ClientMemory) (now : DateTime) {a : ClientAction} (ha : a.readsTables = false) :
    m.onServer json cron s now a =
      match m.step cron ⟨⟨[], []⟩, .empty⟩ a, m.statement a with
      | none, _ => none
      | some (_, m'), none => some (s, m')
      | some (_, m'), some q => (s.execute (.client q now)).map fun s' => (s', m') := by
  cases a with
  | check | effect | triggerManualBackup => rfl
  | executor b =>
    cases b with
    | recv => rfl
    | task i ev =>
      cases ev with
      | getJobById err => cases err <;> first | rfl | cases ha
      | backup => cases ha
      | canExecute | markRunning | startBackup | markCompleted => rfl

/-- A check sends nothing but the UPDATE of its schedules. -/
theorem ClientMemory.statement_cases (m : ClientMemory) (a : ClientAction) :
    m.statement a = none ∨
      ∃ jobId last next, m.statement a = some (.updateScheduleLastRun jobId last next) := by
  unfold ClientMemory.statement
  split
  · cases m.pending.head? with
    | none => exact .inl rfl
    | some e => exact e.statement_cases
  · exact .inl rfl

/-! ## Every step on the server is a step on the tables -/

/-- A backup writes to neither jobs nor schedules. -/
theorem BackupCall.onServer_tables {serde : SerdeJson} (json : String → Json) {s s' : Server}
    {c c' : BackupCall} {ev : BackupEvent} (hs : schema.Valid s.contents)
    (h : c.onServer serde s ev = some (s', c')) : s'.tables json = s.tables json := by
  obtain ⟨o, now, -, -, ⟨-, hexec⟩ | ⟨-, rfl⟩, -⟩ | ⟨os, which, spawn, runId, -, -, rfl, -⟩ |
    ⟨o, now, runId, u, ret, ret', -, -, ⟨-, hexec⟩ | ⟨-, rfl⟩, -⟩ :=
    BackupCall.onServer_cases h
  case inl.inr | inr.inl | inr.inr.inr => rfl
  all_goals exact tables_other hs rfl hexec

/-- The server holds the tables, but for runs that were deleted. -/
structure Holds (json : String → Json) (s : Server) (db : Store) : Prop where
  tables : s.tables json = db.tables
  runs : Shows s db.runs

/-- A statement of a scheduler, on the server and on the tables. -/
theorem Holds.update {json : String → Json} {s s' : Server} {db : Store} (h : Holds json s db)
    {now last : DateTime} {jobId : Uuid} {next : Option DateTime}
    (hexec : s.execute (.client (.updateScheduleLastRun jobId last next) now) = some s') :
    Holds json s' ⟨db.tables.after (some (.updateScheduleLastRun jobId last next)), db.runs⟩ := by
  refine ⟨?_, h.runs.other (a := .client (.updateScheduleLastRun jobId last next) now) rfl ?_⟩
  · rw [tables_update json h.runs.valid hexec, h.tables]
    rfl
  · rw [Server.step, hexec, Option.getD_some]

theorem Holds.other {json : String → Json} {s s' : Server} {db : Store} (h : Holds json s db)
    {a : ServerAction} (hruns : a.writesRuns = false) (hschedules : a.writesSchedules = false)
    (hstep : s.step a = some s') : Holds json s' db := by
  refine ⟨?_, h.runs.other hruns hstep⟩
  rcases Server.step_eq hstep with rfl | hexec
  · exact h.tables
  · rw [tables_other h.runs.valid hschedules hexec, h.tables]

/-- **A step of a client on the server is its step on the tables.** -/
theorem ClientMemory.onServer_simulates {json : String → Json} {cron : CronCrate} {s s' : Server}
    {db : Store} (hs : Holds json s db) {m m' : ClientMemory} {now : DateTime} {a : ClientAction}
    (h : m.onServer json cron s now a = some (s', m')) :
    ∃ db', m.step cron db a = some (db', m') ∧ Holds json s' db' := by
  by_cases ha : a.readsTables = false
  · rw [ClientMemory.onServer_noTables _ _ _ _ _ ha] at h
    have hstep := ClientMemory.step_noTables cron db m ha
    cases hmem : m.step cron ⟨⟨[], []⟩, .empty⟩ a with
    | none =>
      rw [hmem] at h
      cases h
    | some p =>
      rw [hmem] at h hstep
      rcases m.statement_cases a with hnone | ⟨jobId, last, next, hsome⟩
      · rw [hnone] at h hstep
        cases h
        exact ⟨_, hstep, hs.tables, hs.runs⟩
      · rw [hsome] at h hstep
        obtain ⟨s₁, hexec, heq⟩ := Option.map_eq_some_iff.1 h
        cases heq
        exact ⟨_, hstep, hs.update hexec⟩
  · cases a with
    | check | effect | triggerManualBackup => exact absurd rfl ha
    | executor b =>
      cases b with
      | recv => exact absurd rfl ha
      | task i ev =>
        cases ev with
        | getJobById err =>
          cases err with
          | some e => exact absurd rfl ha
          | none =>
            simp only [ClientMemory.onServer] at h
            split at h
            · rename_i execution ht
              -- the row the server selects is the job of the table
              have hjob : ∀ {o}, s.getJobById json execution.jobId = .ok o →
                  o = getJobById db.tables.jobs execution.jobId := by
                intro o ho
                rw [Server.getJobById_ok ho, jobByIdRows_toBackupJob json hs.runs.valid, hs.tables]
              split at h
              · cases h
              · rename_i hnone
                cases h
                refine ⟨db, ?_, hs⟩
                simp [ClientMemory.step, Client.step, ClientMemory.on, Executor.step,
                  Interleaving.step, ht, Task.step, ← hjob hnone, Client.store, Client.memory,
                  ClientMemory.setPhase]
              · rename_i job hsome
                cases h
                refine ⟨db, ?_, hs⟩
                simp [ClientMemory.step, Client.step, ClientMemory.on, Executor.step,
                  Interleaving.step, ht, Task.step, ← hjob hsome, Client.store, Client.memory,
                  ClientMemory.setPhase]
            · cases h
        | backup bev =>
          simp only [ClientMemory.onServer] at h
          split at h
          · rename_i execution job call ht
            obtain ⟨⟨s₁, call'⟩, hcall, heq⟩ := Option.map_eq_some_iff.1 h
            cases heq
            obtain ⟨runs, hruns, hshows⟩ := BackupCall.onServer_simulates hs.runs hcall
            refine ⟨⟨db.tables, runs⟩, ?_, ?_, hshows⟩
            · simp [ClientMemory.step, Client.step, ClientMemory.on, Executor.step,
                Interleaving.step, ht, Task.step, hruns, Client.store, Client.memory,
                ClientMemory.setPhase]
            · rw [BackupCall.onServer_tables json hs.runs.valid hcall, hs.tables]
          · cases h
        | canExecute | markRunning | startBackup | markCompleted => exact absurd rfl ha

/-! ## The backups of all clients -/

/-- The calls of `execute_backup` of a client. -/
def ClientMemory.calls (m : ClientMemory) : Nat → Option BackupCall :=
  fun j => (m.tasks[j]?).bind Task.call

/-- The calls of all clients: that of task `j` of client `i` stands at `Nat.pair i j`. -/
def callsOf (clients : List ClientMemory) : Nat → Option BackupCall :=
  fun n => (clients[n.unpair.1]?).bind fun m => m.calls n.unpair.2

section Calls

variable {clients : List ClientMemory} {i : Nat} {m m' : ClientMemory}

theorem callsOf_pair (hi : clients[i]? = some m) (j : Nat) :
    callsOf clients (Nat.pair i j) = m.calls j := by
  simp [callsOf, hi]

/-- A client that has the calls it had. -/
theorem callsOf_set_same (hi : clients[i]? = some m) (h : m'.calls = m.calls) :
    callsOf (clients.set i m') = callsOf clients := by
  funext n
  unfold callsOf
  by_cases hn : n.unpair.1 = i
  · rw [hn, hi, List.getElem?_set_self (List.getElem?_eq_some_iff.1 hi).1, Option.bind_some,
      Option.bind_some, h]
  · rw [List.getElem?_set_ne (Ne.symm hn)]

/-- A client one call of which is replaced. -/
theorem callsOf_set_update (hi : clients[i]? = some m) {j : Nat} {c : BackupCall}
    (h : m'.calls = Function.update m.calls j (some c)) :
    callsOf (clients.set i m') = Function.update (callsOf clients) (Nat.pair i j) (some c) := by
  funext n
  by_cases hn : n = Nat.pair i j
  · subst hn
    rw [Function.update_self,
      callsOf_pair (List.getElem?_set_self (List.getElem?_eq_some_iff.1 hi).1), h,
      Function.update_self]
  · rw [Function.update_of_ne hn]
    unfold callsOf
    by_cases hni : n.unpair.1 = i
    · have hnj : n.unpair.2 ≠ j := by
        rintro rfl
        exact hn (by rw [← hni, Nat.pair_unpair])
      rw [hni, hi, List.getElem?_set_self (List.getElem?_eq_some_iff.1 hi).1, Option.bind_some,
        Option.bind_some, h, Function.update_of_ne hnj]
    · rw [List.getElem?_set_ne (Ne.symm hni)]

end Calls

/-- A client with nothing under way. -/
structure ClientMemory.Idle (m : ClientMemory) (serde : SerdeJson) : Prop where
  decoder : m.executor.serde = serde
  tasks : m.tasks = []

/-- The invariant of the backups of all clients. -/
structure Clients.Inv (serde : SerdeJson) (base : Int) (s : Clients) : Prop where
  decoder : ∀ m ∈ s.parts, m.executor.serde = serde
  runs : RunsInv serde base s.shared.runs (callsOf s.parts)

theorem Clients.Inv.init {serde : SerdeJson} {clients : List ClientMemory}
    (hidle : ∀ m ∈ clients, m.Idle serde) (db : Store) :
    Clients.Inv serde db.runs.nextId ⟨db, clients⟩ := by
  refine ⟨fun m hm => (hidle m hm).decoder, RunsInv.init serde db.runs _ fun n c hc => ?_⟩
  obtain ⟨m, hm, hcall⟩ := Option.bind_eq_some_iff.1 hc
  rw [ClientMemory.calls, (hidle m (List.mem_of_getElem? hm)).tasks] at hcall
  cases hcall

theorem Clients.Inv.step {serde : SerdeJson} {base : Int} {cron : CronCrate} {s s' : Clients}
    {a : Nat × ClientAction} (hs : s.Inv serde base) (h : Clients.step cron s a = some s') :
    s'.Inv serde base := by
  obtain ⟨m, db, m', hi, hstep, rfl⟩ := Interleaving.step_eq h
  obtain ⟨c, hc, heq⟩ := Option.map_eq_some_iff.1 hstep
  cases heq
  have hserde := hs.decoder m (List.mem_of_getElem? hi)
  refine ⟨fun k hk => ?_, ?_⟩
  · rcases List.mem_or_eq_of_mem_set hk with hk | rfl
    · exact hs.decoder k hk
    · exact hserde
  · rcases Client.step_calls hc with ⟨hcalls, hruns, -⟩ | ⟨j, job, hnone, hruns, -, hcalls⟩ |
      ⟨j, ev, call, call', -, hj, hcstep, hcalls, -⟩
    · have hcalls : (c.memory m.executor).calls = m.calls := hcalls
      have hruns : c.store.runs = s.shared.runs := hruns
      rw [callsOf_set_same hi hcalls, hruns]
      exact hs.runs
    · have hcalls : (c.memory m.executor).calls = Function.update m.calls j _ := hcalls
      have hruns : c.store.runs = s.shared.runs := hruns
      have hold : callsOf s.parts (Nat.pair a.1 j) = none := (callsOf_pair hi j).trans hnone
      rw [callsOf_set_update hi hcalls, hruns]
      exact hs.runs.start hold job _
    · have hcalls : (c.memory m.executor).calls = Function.update m.calls j _ := hcalls
      rw [callsOf_set_update hi hcalls]
      have hold : callsOf s.parts (Nat.pair a.1 j) = some call := (callsOf_pair hi j).trans hj
      rw [hserde] at hcstep
      exact hs.runs.step hold hcstep

/-! ## Runs on the server -/

theorem ServerClients.exec_simulates {json : String → Json} {cron : CronCrate}
    {s s' : ServerClients} {db : Store} (hs : Holds json s.shared db)
    {as : List ServerClientsAction}
    (hothers : ∀ a, .other a ∈ as → a.writesRuns = false ∧ a.writesSchedules = false)
    (h : exec (ServerClients.step json cron) s as = some s') :
    ∃ db', exec (Clients.step cron) ⟨db, s.parts⟩ (as.filterMap ServerClientsAction.event) =
      some ⟨db', s'.parts⟩ ∧ Holds json s'.shared db' := by
  have hsim : ∃ c : Clients, exec (Clients.step cron) ⟨db, s.parts⟩
      (as.filterMap ServerClientsAction.event) = some c ∧ Holds json s'.shared c.shared ∧
        c.parts = s'.parts := by
    refine exec_stuttering (G := fun a => ∀ b, a = .other b →
        b.writesRuns = false ∧ b.writesSchedules = false)
      (R := fun (s : ServerClients) (c : Clients) => Holds json s.shared c.shared ∧
        c.parts = s.parts) ?_ ⟨hs, rfl⟩ (fun a ha b hb => hothers b (hb ▸ ha)) h
    rintro s ⟨db, parts⟩ a s' ⟨hs, rfl⟩ ha hstep
    cases a with
    | client i a now =>
      simp only [ServerClients.step] at hstep
      obtain ⟨m, sv, m', hi, hmstep, rfl⟩ := Interleaving.step_eq hstep
      obtain ⟨db', hdb, hholds⟩ := ClientMemory.onServer_simulates hs hmstep
      refine ⟨⟨db', s.parts.set i m'⟩, exec_cons.2 ⟨_, ?_, rfl⟩, hholds, rfl⟩
      have hi' : s.parts[i]? = some m := hi
      simp only [Clients.step, Interleaving.step, hi', hdb, Option.map_some]
    | other b =>
      simp only [ServerClients.step] at hstep
      obtain ⟨sv, hsv, rfl⟩ := Option.map_eq_some_iff.1 hstep
      obtain ⟨hruns, hschedules⟩ := ha b rfl
      exact ⟨⟨db, s.parts⟩, rfl, hs.other hruns hschedules hsv, rfl⟩
  obtain ⟨⟨db', parts⟩, hdb, hholds, rfl⟩ := hsim
  exact ⟨db', hdb, hholds⟩

/-- **Clients on the server are clients on the tables.**  Whatever else is written to the other
    tables and whatever runs are deleted, any number of clients take the steps they take on tables
    of structs, down to their memory; jobs and schedules are those tables, and the records are
    theirs, but for those deleted.  No record belongs to two backups, of one client or of two, and
    every record they have made agrees with its status and with the backup it is of. -/
theorem clients_on_server (json : String → Json) (cron : CronCrate) {s : Server}
    (hs : schema.Valid s.contents) (hids : ∀ r ∈ s.records, r.id < s.nextRunId)
    {serde : SerdeJson} {clients : List ClientMemory} (hidle : ∀ m ∈ clients, m.Idle serde)
    {as : List ServerClientsAction}
    (hothers : ∀ a, .other a ∈ as → a.writesRuns = false ∧ a.writesSchedules = false)
    {s' : ServerClients} (h : exec (ServerClients.step json cron) ⟨s, clients⟩ as = some s') :
    (∃ db, exec (Clients.step cron) ⟨⟨s.tables json, s.runsTable hs hids⟩, clients⟩
        (as.filterMap ServerClientsAction.event) = some ⟨db, s'.parts⟩ ∧
      s'.shared.tables json = db.tables ∧ s'.shared.records.Sublist db.runs.rows) ∧
    (∀ (i j k l : Nat) m n c d id, s'.parts[i]? = some m → s'.parts[j]? = some n →
      m.calls k = some c → n.calls l = some d → c.runId = some id → d.runId = some id →
      i = j ∧ k = l) ∧
    ∀ r ∈ s'.shared.records, s.nextRunId ≤ r.id → RowOk serde (callsOf s'.parts) r := by
  have hholds : Holds json s ⟨s.tables json, s.runsTable hs hids⟩ :=
    ⟨rfl, hs, List.Sublist.refl _, rfl⟩
  obtain ⟨db, hexec, hdb⟩ := ServerClients.exec_simulates hholds hothers h
  have hinv : Clients.Inv serde s.nextRunId ⟨db, s'.parts⟩ :=
    exec_invariant (fun _ _ _ hI hstep => hI.step hstep)
      (Clients.Inv.init hidle ⟨s.tables json, s.runsTable hs hids⟩) hexec
  refine ⟨⟨db, hexec, hdb.tables, hdb.runs.records⟩, ?_, fun r hr hid => ?_⟩
  · intro i j k l m n c d id hi hj hc hd hcid hdid
    have heq := hinv.runs.distinct (Nat.pair i k) (Nat.pair j l) c d id
      ((callsOf_pair hi k).trans hc) ((callsOf_pair hj l).trans hd) hcid hdid
    exact Nat.pair_eq_pair.1 heq
  · exact hinv.runs.rows r.id r (db.runs.find_of_mem (hdb.runs.records.subset hr)) hid

/-- A client that has loaded no schedules. -/
def ClientMemory.plain (ex : JobExecutor) : ClientMemory := ⟨ex, .empty, [], ∅, [], []⟩

/-- A manual backup of job 1, from the trigger to the UPDATE of its record. -/
def manualBackup : List ClientAction :=
  [.triggerManualBackup 1, .executor .recv] ++ ClientAction.register 0 ++
    [.executor (.task 0 .startBackup), .executor (.task 0 (.backup (.createRun .done 0))),
      .executor (.task 0 (.backup (.runRestic .other (fun name => .ok ("/usr/bin/" ++ name))
        fun _ => .ok ⟨some 0, snapshotLine, ""⟩))),
      .executor (.task 0 (.backup (.updateRun .done 60))), .executor (.task 0 .markCompleted)]

/-- Two clients back up one job, and the first record is deleted. -/
theorem clients_on_server_two :
    let ex : JobExecutor := ⟨.ofSnapshotLine, .ofRepository "sftp:h:/r" "secret", 1⟩
    let as : List ServerClientsAction :=
      [0, 1].flatMap (fun i => manualBackup.map fun a => .client i a 0) ++
        [.other (.other (.delete .runs fun r => r "id" == .int 1))]
    ∃ s, exec (ServerClients.step (fun _ => .array []) .everyMinute)
        ⟨.sample, [.plain ex, .plain ex]⟩ as = some s ∧
      s.shared.records.map (fun r => (r.id, r.status)) = [(2, "success")] ∧
      ∀ r ∈ s.shared.records, Server.sample.nextRunId ≤ r.id →
        RowOk .ofSnapshotLine (callsOf s.parts) r := by
  intro ex as
  have hsome : (exec (ServerClients.step (fun _ => .array []) .everyMinute)
      ⟨.sample, [.plain ex, .plain ex]⟩ as).isSome = true := by decide +kernel
  have hend : ∀ s ∈ exec (ServerClients.step (fun _ => .array []) .everyMinute)
      ⟨.sample, [.plain ex, .plain ex]⟩ as,
      s.shared.records.map (fun r => (r.id, r.status)) = [(2, "success")] := by decide +kernel
  obtain ⟨s, h⟩ := Option.isSome_iff_exists.1 hsome
  refine ⟨s, h, hend s h, (clients_on_server (fun _ => .array []) .everyMinute Server.sample_valid
    (by decide +kernel) (fun m hm => ?_) (fun a ha => ?_) h).2.2⟩
  · rcases List.mem_pair.1 hm with rfl | rfl <;> exact ⟨rfl, rfl⟩
  · have heq : a = .other (.delete .runs fun r => r "id" == .int 1) := by
      simpa [as, manualBackup] using ha
    rw [heq]
    exact ⟨rfl, rfl⟩

end RBackup2

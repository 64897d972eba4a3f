import RBackup2.Lib.Decimal
import RBackup2.Client

/-!
# Numbers in the settings

The settings are texts.  `main.rs` reads `max_concurrent_backups` as a `usize` and makes the
executor with it, `config/remote.rs` reads `sync_interval_seconds` as a `u64`; what is missing or
no number that fits counts as the default.

* `maxConcurrentBackups_eq_zero_iff`, `two_le_maxConcurrentBackups_iff` — the texts of a cap of
  zero, and of one of two or more.
* `concurrent_backups_setting` — what these do to a client: with the one it never makes a record,
  with the other it never refuses a job.
-/

set_option autoImplicit false

namespace RBackup2

open Transition

/-! ## Reading a number -/

/-- `get_setting(key).and_then(|s| s.parse().ok()).unwrap_or(default)`. -/
def RemoteConfig.getNumber (self : RemoteConfig) (bits : Nat) (key : String) (default : Nat) :
    Nat :=
  ((self.getSetting key).bind (Decimal.parseUnsigned bits)).getD default

/-- `RemoteConfig::sync_interval_seconds`. -/
def RemoteConfig.syncIntervalSeconds (self : RemoteConfig) : Nat :=
  self.getNumber 64 "sync_interval_seconds" 300

/-- What `run` makes the executor with; a `usize` of 64 bits. -/
def RemoteConfig.maxConcurrentBackups (self : RemoteConfig) : Nat :=
  self.getNumber 64 "max_concurrent_backups" 1

/-- `JobExecutor::new`, as `run` calls it. -/
def JobExecutor.ofConfig (serde : SerdeJson) (config : RemoteConfig) : JobExecutor where
  serde := serde
  config := config
  maxConcurrentPerDevice := config.maxConcurrentBackups

/-- A number is read from a text of it, or it is the default and there is no such text. -/
theorem getNumber_eq_iff (config : RemoteConfig) (bits : Nat) (key : String) (default n : Nat) :
    config.getNumber bits key default = n ↔
      (∃ s, config.getSetting key = some s ∧ Decimal.Denotes s n ∧ n < 2 ^ bits) ∨
      (n = default ∧
        ∀ s m, config.getSetting key = some s → Decimal.Denotes s m → 2 ^ bits ≤ m) := by
  unfold RemoteConfig.getNumber
  cases hs : config.getSetting key with
  | none =>
    rw [Option.bind_none, Option.getD_none]
    constructor
    · intro h
      exact .inr ⟨h.symm, fun s m hsome => by cases hsome⟩
    · rintro (⟨s, hsome, -⟩ | ⟨h, -⟩)
      · cases hsome
      · exact h.symm
  | some s =>
    rw [Option.bind_some]
    cases hparse : Decimal.parseUnsigned bits s with
    | none =>
      rw [Option.getD_none]
      -- no number that fits is denoted
      have hno : ∀ m, Decimal.Denotes s m → 2 ^ bits ≤ m := by
        intro m hm
        by_contra hlt
        have hsome := Decimal.parseUnsigned_eq_some_iff.2 ⟨hm, Nat.lt_of_not_ge hlt⟩
        cases hparse.symm.trans hsome
      constructor
      · rintro rfl
        refine .inr ⟨rfl, fun s' m hs' hm => ?_⟩
        cases hs'
        exact hno m hm
      · rintro (⟨s', hs', hden, hfits⟩ | ⟨h, -⟩)
        · cases hs'
          have := hno n hden
          omega
        · exact h.symm
    | some m =>
      rw [Option.getD_some]
      obtain ⟨hden, hfits⟩ := Decimal.parseUnsigned_eq_some_iff.1 hparse
      constructor
      · rintro rfl
        exact .inl ⟨s, rfl, hden, hfits⟩
      · rintro (⟨s', hs', hden', -⟩ | ⟨-, hno⟩)
        · cases hs'
          exact hden.value.symm.trans hden'.value
        · have := hno s m rfl hden
          omega

/-- A number that fits is read back from its decimal text. -/
theorem getNumber_repr {config : RemoteConfig} {bits : Nat} {key : String} {n : Nat}
    (hs : config.getSetting key = some n.repr) (hn : n < 2 ^ bits) (default : Nat) :
    config.getNumber bits key default = n := by
  unfold RemoteConfig.getNumber
  rw [hs, Option.bind_some, Decimal.parseUnsigned_repr hn, Option.getD_some]

/-- Nothing but a setting. -/
def RemoteConfig.ofSetting (key value : String) : RemoteConfig where
  jobs := []
  schedules := []
  settings := (∅ : HashMap String String).insert key value

example : (RemoteConfig.ofSetting "sync_interval_seconds" "600").syncIntervalSeconds = 600 := by
  decide

/-- The setting is a text of zero. -/
def RemoteConfig.NoBackups (config : RemoteConfig) : Prop :=
  ∃ s, config.getSetting "max_concurrent_backups" = some s ∧ Decimal.Denotes s 0

/-- The setting is a text of a number of two or more. -/
def RemoteConfig.ManyBackups (config : RemoteConfig) : Prop :=
  ∃ s n, config.getSetting "max_concurrent_backups" = some s ∧ Decimal.Denotes s n ∧
    2 ≤ n ∧ n < 2 ^ 64

theorem maxConcurrentBackups_eq_zero_iff (config : RemoteConfig) :
    config.maxConcurrentBackups = 0 ↔ config.NoBackups := by
  rw [RemoteConfig.maxConcurrentBackups, getNumber_eq_iff]
  constructor
  · rintro (⟨s, hs, hden, -⟩ | ⟨h, -⟩)
    · exact ⟨s, hs, hden⟩
    · cases h
  · rintro ⟨s, hs, hden⟩
    exact .inl ⟨s, hs, hden, by decide⟩

theorem two_le_maxConcurrentBackups_iff (config : RemoteConfig) :
    2 ≤ config.maxConcurrentBackups ↔ config.ManyBackups := by
  constructor
  · intro h
    rcases (getNumber_eq_iff config 64 "max_concurrent_backups" 1 _).1 rfl with
      ⟨s, hs, hden, hfits⟩ | ⟨hone, -⟩
    · exact ⟨s, _, hs, hden, h, hfits⟩
    · rw [RemoteConfig.maxConcurrentBackups, hone] at h
      omega
  · rintro ⟨s, n, hs, hden, hn, hfits⟩
    have hcap := (getNumber_eq_iff config 64 "max_concurrent_backups" 1 n).2
      (.inl ⟨s, hs, hden, hfits⟩)
    rw [RemoteConfig.maxConcurrentBackups, hcap]
    exact hn

/-! ## A cap of zero -/

/-- The task has not got past `can_execute`. -/
def Task.Held (t : Task) : Prop :=
  match t.phase with
  | .received => True
  | .found _ => True
  | .finished (.failed _) => True
  | .finished .notFound => True
  | .finished (.refused _) => True
  | _ => False

/-- With a cap of zero `can_execute` says no. -/
theorem canExecute_zero {ex : JobExecutor} (hcap : ex.maxConcurrentPerDevice = 0)
    (running : HashMap String Uuid) (d : String) : ex.canExecute running d = false := by
  unfold JobExecutor.canExecute
  rw [hcap]
  exact decide_eq_false (by omega)

theorem Task.Held.step {ex : JobExecutor} (hcap : ex.maxConcurrentPerDevice = 0)
    {jobs : List BackupJob} {sh sh' : Shared} {t t' : Task} {ev : TaskEvent} (ht : t.Held)
    (h : t.step ex jobs sh ev = some (sh', t')) : t'.Held ∧ sh' = sh := by
  unfold Task.Held at ht
  obtain ⟨err, -, hp, rfl, ⟨e, rfl⟩ | ⟨-, rfl⟩ | ⟨job, -, rfl⟩⟩ |
    ⟨job, -, hp, rfl, ⟨-, rfl⟩ | ⟨hcan, rfl⟩⟩ | ⟨job, -, hp, -⟩ | ⟨job, -, hp, -⟩ |
    ⟨job, call, bev, runs, call', -, hp, -⟩ | ⟨job, call, ret, -, hp, -⟩ := Task.step_cases h
  case inr.inl.inr =>
    rw [canExecute_zero hcap] at hcan
    cases hcan
  case inl.inl | inl.inr.inl | inl.inr.inr | inr.inl.inl => exact ⟨trivial, rfl⟩
  all_goals
    rw [hp] at ht
    exact ht.elim

/-- No task of the client has got past `can_execute`, and the records are those there were. -/
structure Client.Silent (runs : RunsTable) (c : Client) : Prop where
  tasks : ∀ t ∈ c.executor.parts, t.Held
  runs : c.executor.shared.runs = runs

theorem Client.Silent.step {cron : CronCrate} {ex : JobExecutor}
    (hcap : ex.maxConcurrentPerDevice = 0) {runs : RunsTable} {c c' : Client} {a : ClientAction}
    (hc : c.Silent runs) (h : c.step cron ex a = some c') : c'.Silent runs := by
  rcases Client.step_executor h with ⟨hsame, -, -⟩ | ⟨execution, -, -, heq⟩ | ⟨b, -, hstep, -⟩
  · constructor
    · rw [hsame]
      exact hc.tasks
    · rw [hsame]
      exact hc.runs
  · constructor
    · rw [heq]
      exact hc.tasks
    · rw [heq]
      exact hc.runs
  · constructor
    · exact Executor.forall_parts_step (fun _ => trivial)
        (fun _ _ _ _ _ _ _ htask ht => (ht.step hcap htask).1) hc.tasks hstep
    · obtain ⟨execution, rest, -, -, heq⟩ | ⟨i, ev, t, sh, t', -, hi, htask, heq⟩ :=
        Executor.step_cases hstep
      · rw [heq]
        exact hc.runs
      · obtain ⟨-, hsh⟩ := (hc.tasks t (List.mem_of_getElem? hi)).step hcap htask
        rw [heq]
        show sh.runs = runs
        rw [hsh]
        exact hc.runs

/-! ## A cap of two or more -/

/-- With a cap of two or more `can_execute` says yes: the map has one entry of a device at most. -/
theorem canExecute_of_two_le {ex : JobExecutor} (hcap : 2 ≤ ex.maxConcurrentPerDevice)
    (running : HashMap String Uuid) (d : String) : ex.canExecute running d = true := by
  cases hcan : ex.canExecute running d with
  | true => rfl
  | false =>
    rcases canExecute_false hcan with h0 | ⟨h1, -⟩
    · omega
    · omega

/-- The task was refused. -/
def Task.Refused (t : Task) : Prop := ∃ job, t.phase = .finished (.refused job)

theorem Task.not_refused_step {ex : JobExecutor} (hcap : 2 ≤ ex.maxConcurrentPerDevice)
    {jobs : List BackupJob} {sh sh' : Shared} {t t' : Task} {ev : TaskEvent}
    (h : t.step ex jobs sh ev = some (sh', t')) : ¬ t'.Refused := by
  rintro ⟨job', hrefused⟩
  obtain ⟨err, -, -, -, ⟨e, rfl⟩ | ⟨-, rfl⟩ | ⟨job, -, rfl⟩⟩ |
    ⟨job, -, -, -, ⟨hcan, rfl⟩ | ⟨-, rfl⟩⟩ | ⟨job, -, -, -, rfl⟩ | ⟨job, -, -, -, rfl⟩ |
    ⟨job, call, bev, runs, call', -, -, -, -, rfl⟩ | ⟨job, call, ret, -, -, -, -, rfl⟩ :=
    Task.step_cases h
  case inr.inl.inl =>
    rw [canExecute_of_two_le hcap] at hcan
    cases hcan
  all_goals cases hrefused

theorem Client.not_refused_step {cron : CronCrate} {ex : JobExecutor}
    (hcap : 2 ≤ ex.maxConcurrentPerDevice) {c c' : Client} {a : ClientAction}
    (hc : ∀ t ∈ c.executor.parts, ¬ t.Refused) (h : c.step cron ex a = some c') :
    ∀ t ∈ c'.executor.parts, ¬ t.Refused := by
  rcases Client.step_executor h with ⟨hsame, -, -⟩ | ⟨execution, -, -, heq⟩ | ⟨b, -, hstep, -⟩
  · rw [hsame]
    exact hc
  · rw [heq]
    exact hc
  · refine Executor.forall_parts_step (fun execution => ?_)
      (fun _ _ _ _ _ _ _ htask _ => Task.not_refused_step hcap htask) hc hstep
    rintro ⟨job, hphase⟩
    cases hphase

/-! ## Runs that get there -/

/-- The steps that bring a manual execution of the job through the check. -/
def ClientAction.toCheck (jobId : Uuid) (i : Nat) : List ClientAction :=
  [.triggerManualBackup jobId, .executor .recv, .executor (.task i (.getJobById none)),
    .executor (.task i .canExecute)]

/-- A step of the last task. -/
theorem Client.step_last (cron : CronCrate) {ex : JobExecutor} {w : World} {sh sh' : Shared}
    {t t' : Task} {ev : TaskEvent} (tasks : List Task)
    (h : t.step ex w.jobs sh ev = some (sh', t')) :
    Client.step cron ex ⟨w, [], ⟨sh, tasks ++ [t]⟩, []⟩ (.executor (.task tasks.length ev)) =
      some ⟨w, [], ⟨sh', tasks ++ [t']⟩, []⟩ := by
  simp only [Client.step, Executor.step_at h]

section Runs

variable (cron : CronCrate) (ex : JobExecutor) {w : World} {jobId : Uuid} {job : BackupJob}
  (hjob : getJobById w.jobs jobId = some job)

include hjob

/-- A manual execution comes to the check behind other tasks, and is refused or goes through. -/
theorem exec_toCheck (sh : Shared) (tasks : List Task) :
    exec (Client.step cron ex) ⟨w, [], ⟨sh, tasks⟩, []⟩ (ClientAction.toCheck jobId tasks.length) =
      some ⟨w, [], ⟨sh, tasks ++ [⟨⟨jobId, "manual"⟩,
        if ex.canExecute sh.runningJobs job.deviceId = false then .finished (.refused job)
        else .admitted job⟩]⟩, []⟩ := by
  have hread : Task.step ex w.jobs sh ⟨⟨jobId, "manual"⟩, .received⟩ (.getJobById none) =
      some (sh, ⟨⟨jobId, "manual"⟩, .found job⟩) := by simp only [Task.step, hjob]
  have hcheck : Task.step ex w.jobs sh ⟨⟨jobId, "manual"⟩, .found job⟩ .canExecute =
      some (sh, ⟨⟨jobId, "manual"⟩,
        if ex.canExecute sh.runningJobs job.deviceId = false then .finished (.refused job)
        else .admitted job⟩) := by
    simp only [Task.step]
    split <;> rfl
  exact exec_cons.2 ⟨_, rfl, exec_cons.2 ⟨_, rfl, exec_cons.2 ⟨_, Client.step_last cron tasks hread,
    exec_cons.2 ⟨_, Client.step_last cron tasks hcheck, rfl⟩⟩⟩⟩

/-- With a cap of one or more a first execution goes through and registers. -/
theorem exec_marked (hcap : 1 ≤ ex.maxConcurrentPerDevice) (runs : RunsTable) :
    exec (Client.step cron ex) (.init w runs)
        (ClientAction.toCheck jobId 0 ++ [.executor (.task 0 .markRunning)]) =
      some ⟨w, [], ⟨⟨markRunning job.deviceId jobId ∅, runs⟩,
        [⟨⟨jobId, "manual"⟩, .marked job⟩]⟩, []⟩ := by
  have hcan : ¬ ex.canExecute ∅ job.deviceId = false := by
    intro hno
    rcases canExecute_false hno with h0 | ⟨-, j, hj⟩
    · omega
    · rw [AList.lookup_empty] at hj
      cases hj
  have hcheck := exec_toCheck cron ex hjob ⟨∅, runs⟩ []
  rw [if_neg hcan] at hcheck
  exact exec_append.2 ⟨_, hcheck, rfl⟩

/-- With a cap of one or more a client can make a record. -/
theorem exec_record (hcap : 1 ≤ ex.maxConcurrentPerDevice) (runs : RunsTable) :
    ∃ as c, exec (Client.step cron ex) (.init w runs) as = some c ∧
      c.executor.shared.runs ≠ runs := by
  refine ⟨_, _, exec_append.2 ⟨_, exec_marked cron ex hjob hcap runs,
    (rfl : exec _ _ [.executor (.task 0 .startBackup),
      .executor (.task 0 (.backup (.createRun .done 0)))] = some _)⟩, fun heq => ?_⟩
  -- the sequence has gone on
  have hnext : runs.nextId + 1 = runs.nextId := congrArg RunsTable.nextId heq
  omega

/-- With a cap of zero or one a client can refuse an execution. -/
theorem exec_refused (hcap : ex.maxConcurrentPerDevice ≤ 1) (runs : RunsTable) :
    ∃ as c, exec (Client.step cron ex) (.init w runs) as = some c ∧
      ∃ t ∈ c.executor.parts, t.Refused := by
  by_cases h0 : ex.maxConcurrentPerDevice = 0
  · have hcheck := exec_toCheck cron ex hjob ⟨∅, runs⟩ []
    rw [if_pos (canExecute_zero h0 _ _)] at hcheck
    exact ⟨_, _, hcheck, _, List.mem_singleton_self _, job, rfl⟩
  · -- a second execution finds the entry of the first
    have hno : ex.canExecute (markRunning job.deviceId jobId ∅) job.deviceId = false :=
      canExecute_of_lookup hcap (AList.lookup_insert _)
    have hcheck := exec_toCheck cron ex hjob ⟨markRunning job.deviceId jobId ∅, runs⟩
      [⟨⟨jobId, "manual"⟩, .marked job⟩]
    rw [if_pos hno] at hcheck
    exact ⟨_, _, exec_append.2 ⟨_, exec_marked cron ex hjob (by omega) runs, hcheck⟩, _,
      List.mem_append_right _ (List.mem_singleton_self _), job, rfl⟩

end Runs

/-! ## What the setting does -/

/-- **The setting has three meanings.**  A client of a job that exists can make a record in some
    run exactly if the setting is no text of zero, and it can refuse an execution in some run
    exactly if the setting is no text of a number of two or more; everything else is a cap of
    one. -/
theorem concurrent_backups_setting (cron : CronCrate) (serde : SerdeJson) (config : RemoteConfig)
    {w : World} {jobId : Uuid} {job : BackupJob} (hjob : getJobById w.jobs jobId = some job)
    (runs : RunsTable) :
    ((∃ as c, exec (Client.step cron (.ofConfig serde config)) (.init w runs) as = some c ∧
        c.executor.shared.runs ≠ runs) ↔ ¬ config.NoBackups) ∧
    ((∃ as c, exec (Client.step cron (.ofConfig serde config)) (.init w runs) as = some c ∧
        ∃ t ∈ c.executor.parts, t.Refused) ↔ ¬ config.ManyBackups) ∧
    (¬ config.NoBackups → ¬ config.ManyBackups → config.maxConcurrentBackups = 1) := by
  have hcap : (JobExecutor.ofConfig serde config).maxConcurrentPerDevice =
      config.maxConcurrentBackups := rfl
  rw [← maxConcurrentBackups_eq_zero_iff, ← two_le_maxConcurrentBackups_iff, ← hcap]
  refine ⟨?_, ?_, fun hpos hmany => by omega⟩
  · constructor
    · rintro ⟨as, c, h, hne⟩ h0
      have hsilent : c.Silent runs :=
        exec_invariant (fun _ _ _ hc hstep => hc.step h0 hstep)
          ⟨fun t ht => (by cases ht), rfl⟩ h
      exact hne hsilent.runs
    · intro hne
      exact exec_record cron _ hjob (by omega) runs
  · constructor
    · rintro ⟨as, c, h, t, ht, hrefused⟩ h2
      exact exec_invariant (I := fun c : Client => ∀ t ∈ c.executor.parts, ¬ t.Refused)
        (fun _ _ _ hc hstep => Client.not_refused_step h2 hc hstep)
        (fun t ht => (by cases ht)) h t ht hrefused
    · intro hlt
      exact exec_refused cron _ hjob (by omega) runs

/-- A setting of zero, with a sign: no run of the client makes a record. -/
theorem concurrent_backups_setting_zero :
    ¬ ∃ as c, exec (Client.step .everyMinute
        (.ofConfig .rejecting (.ofSetting "max_concurrent_backups" "+0")))
      (.init (.ofRows [.plain 1 "blade"] []) .empty) as = some c ∧
        c.executor.shared.runs ≠ .empty := by
  have hjob : getJobById (World.ofRows [.plain 1 "blade"] []).jobs 1 = some (.plain 1 "blade") :=
    rfl
  have hmeaning := concurrent_backups_setting .everyMinute .rejecting
    (.ofSetting "max_concurrent_backups" "+0") hjob .empty
  have hzero : Decimal.parseUnsigned 64 "+0" = some 0 := rfl
  exact fun hrun => hmeaning.1.1 hrun ⟨"+0", rfl, (Decimal.parseUnsigned_eq_some_iff.1 hzero).1⟩

end RBackup2

import RBackup2.Client

/-!
# The records over the lives of a client

A client may be stopped between any two steps, and started again on the same table `runs`; nothing
it does on the way up looks at the records that are there.  A life is a run of the client from a
start, cut off anywhere, and a list of lives is a history of the table.

* `Client.step_calls` — everything a step does to the calls of `execute_backup` and to their table.
* `RunLog` — the records that are `running` are those no UPDATE has taken effect on.
* `records_over_lives` — a record is what the life that created it made of it: what a stopped
  client left `running` stays so, whatever lives come after.
* `open_records_iff` — which records those are, if no database call failed: the one a call is
  between its INSERT and its UPDATE for, or that of a call for which `ResticCommand::new` failed.
-/

set_option autoImplicit false

namespace RBackup2

open Transition

/-! ## Updates -/

/-- The ids of the rows a step of a call updates. -/
def BackupCall.updated (c : BackupCall) (ev : BackupEvent) : List Int :=
  match ev, c.pc with
  | .updateRun o _, .update runId _ _ => if o.applied then [runId] else []
  | _, _ => []

/-- The ids of the rows an action of the client updates. -/
def Client.updated (c : Client) : ClientAction → List Int
  | .executor (.task i (.backup ev)) =>
    ((c.executor.calls i).map fun call => call.updated ev).getD []
  | _ => []

/-- A task that takes a step of its backup has a call, which takes that step. -/
theorem Task.step_backup {ex : JobExecutor} {jobs : List BackupJob} {sh sh' : Shared} {t t' : Task}
    {ev : BackupEvent} (h : t.step ex jobs sh (.backup ev) = some (sh', t')) :
    ∃ call call', t.call = some call ∧ t'.call = some call' ∧
      call.step ex.serde sh.runs ev = some (sh'.runs, call') := by
  cases hp : t.phase with
  | executing job call =>
    simp only [Task.step, hp] at h
    split at h
    · cases h
    · rename_i runs call' hstep
      cases h
      exact ⟨call, call', by simp [Task.call, hp], rfl, hstep⟩
  | _ => simp [Task.step, hp] at h

/-- **What a step does to the calls and to their table**: nothing, it makes a call, or it is a step
    of one. -/
theorem Client.step_calls {cron : CronCrate} {ex : JobExecutor} {c c' : Client} {a : ClientAction}
    (h : c.step cron ex a = some c') :
    (c'.executor.calls = c.executor.calls ∧ c'.executor.shared.runs = c.executor.shared.runs ∧
      c.updated a = []) ∨
    (∃ i job, c.executor.calls i = none ∧ c'.executor.shared.runs = c.executor.shared.runs ∧
      c.updated a = [] ∧
      c'.executor.calls = Function.update c.executor.calls i (some (.start job ex.config))) ∨
    ∃ i ev call call', a = .executor (.task i (.backup ev)) ∧ c.executor.calls i = some call ∧
      call.step ex.serde c.executor.shared.runs ev = some (c'.executor.shared.runs, call') ∧
      c'.executor.calls = Function.update c.executor.calls i (some call') ∧
      c.updated a = call.updated ev := by
  rcases Client.step_executor h with ⟨hsame, -, hne⟩ | ⟨execution, -, hne, heq⟩ | ⟨b, rfl, hstep, -⟩
  · left
    rw [hsame]
    refine ⟨rfl, rfl, ?_⟩
    cases a with
    | executor b => exact absurd rfl (hne b)
    | _ => rfl
  · left
    rw [heq]
    refine ⟨rfl, rfl, ?_⟩
    cases a with
    | executor b => exact absurd rfl (hne b)
    | _ => rfl
  · obtain ⟨execution, rest, rfl, -, heq⟩ | ⟨i, ev, t, sh, t', rfl, hi, htask, heq⟩ :=
      Executor.step_cases hstep
    · left
      rw [heq]
      exact ⟨calls_append c.executor.parts execution, rfl, rfl⟩
    · have hcall : c.executor.calls i = t.call := by
        unfold Executor.calls
        rw [hi, Option.bind_some]
      have hcalls : c'.executor.calls = Function.update c.executor.calls i t'.call := by
        rw [heq]
        exact calls_set hi t'
      have hruns : c'.executor.shared.runs = sh.runs := by rw [heq]
      rw [hcalls, hruns]
      by_cases hev : ∃ bev, ev = .backup bev
      · obtain ⟨bev, rfl⟩ := hev
        obtain ⟨call, call', hold, hnew, hbstep⟩ := Task.step_backup htask
        right; right
        rw [hold] at hcall
        exact ⟨i, bev, call, call', rfl, hcall, hbstep, by rw [hnew],
          by simp [Client.updated, hcall]⟩
      · have hnone : c.updated (.executor (.task i ev)) = [] := by
          cases ev with
          | backup bev => exact absurd ⟨bev, rfl⟩ hev
          | _ => rfl
        rcases Task.step_call htask with ⟨hsame, hruns'⟩ | ⟨hno, hruns', job, hnew⟩ |
          ⟨call, bev, call', hbev, -⟩
        · left
          rw [hsame, ← hcall, Function.update_eq_self]
          exact ⟨rfl, hruns', hnone⟩
        · right; left
          exact ⟨i, job, hcall.trans hno, hruns', hnone, by rw [hnew]⟩
        · exact absurd ⟨bev, hbev⟩ hev

/-- **The calls of every client keep the invariant of concurrent backups**, whatever fails. -/
theorem client_runsInv {cron : CronCrate} {ex : JobExecutor} {w : World} {runs : RunsTable}
    {as : List ClientAction} {c : Client}
    (h : exec (Client.step cron ex) (.init w runs) as = some c) :
    RunsInv ex.serde runs.nextId c.executor.shared.runs c.executor.calls := by
  refine exec_invariant (I := fun c : Client =>
    RunsInv ex.serde runs.nextId c.executor.shared.runs c.executor.calls) ?_ ?_ h
  · intro m a m' hm ha
    rcases Client.step_calls ha with ⟨hcalls, hruns, -⟩ | ⟨i, job, hnone, hruns, -, hcalls⟩ |
      ⟨i, ev, call, call', -, hi, hstep, hcalls, -⟩
    · rw [hcalls, hruns]
      exact hm
    · rw [hcalls, hruns]
      exact hm.start hnone job ex.config
    · rw [hcalls]
      exact hm.step hi hstep
  · exact RunsInv.init ex.serde runs _ fun i c hc => by cases hc

/-! ## One life -/

/-- A row with an id the calls cannot have drawn stays as it is. -/
theorem BackupCall.step_older {serde : SerdeJson} {base : Int} {t t' : RunsTable}
    {c c' : BackupCall} {ev : BackupEvent} (hc : CallOk serde base t c)
    (h : c.step serde t ev = some (t', c')) {id : Int} {r : Run} (hr : t.find id = some r)
    (hid : id < base) : t'.find id = some r := by
  refine BackupCall.step_find h hr fun u ret hpc => ?_
  have hbase := (hc.row id (hc.update id u ret hpc).1).1
  omega

/-- A row that a step adds has the next id of the sequence. -/
theorem BackupCall.step_inserted {serde : SerdeJson} {t t' : RunsTable} {c c' : BackupCall}
    {ev : BackupEvent} (h : c.step serde t ev = some (t', c')) {id : Int} {r : Run}
    (hr : t'.find id = some r) (hnew : t.find id = none) : t.nextId ≤ id := by
  by_contra hlt
  have hne : id ≠ t.nextId := by omega
  obtain ⟨o, now, -, -, rfl, -⟩ | ⟨os, which, spawn, runId, -, -, rfl, -⟩ |
    ⟨o, now, runId, u, ret, ret', -, -, rfl, -⟩ := BackupCall.step_cases h
  · split at hr
    · rw [insert_find_old t _ _ _ _ hne, hnew] at hr
      cases hr
    · cases hnew.symm.trans hr
  · cases hnew.symm.trans hr
  · split at hr
    · rw [update_find, hnew] at hr
      cases hr
    · cases hnew.symm.trans hr

/-- `log` has the ids of the rows updated so far: these have left `running`, and no other row of
    the calls has. -/
structure RunLog (base : Int) (log : List Int) (t : RunsTable) : Prop where
  drawn : ∀ id ∈ log, id < t.nextId
  running : ∀ id r, t.find id = some r → base ≤ id → (r.status = "running" ↔ id ∉ log)

theorem RunLog.step {serde : SerdeJson} {base : Int} {log : List Int} {t t' : RunsTable}
    {c c' : BackupCall} {ev : BackupEvent} (hlog : RunLog base log t)
    (hc : CallOk serde base t c) (h : c.step serde t ev = some (t', c')) :
    RunLog base (log ++ c.updated ev) t' := by
  obtain ⟨o, now, rfl, hpc, rfl, -⟩ | ⟨os, which, spawn, runId, rfl, hpc, rfl, -⟩ |
    ⟨o, now, runId, u, ret, ret', rfl, hpc, rfl, -⟩ := BackupCall.step_cases h
  · have hnone : c.updated (.createRun o now) = [] := rfl
    rw [hnone, List.append_nil]
    split
    · refine ⟨fun id hid => ?_, fun id r hr hid => ?_⟩
      · have := hlog.drawn id hid
        simp only [RunsTable.insert]
        omega
      · by_cases hnew : id = t.nextId
        · subst hnew
          rw [insert_find_new] at hr
          cases hr
          refine ⟨fun _ hmem => ?_, fun _ => rfl⟩
          have := hlog.drawn _ hmem
          omega
        · rw [insert_find_old t _ _ _ _ hnew] at hr
          exact hlog.running id r hr hid
    · exact hlog
  · have hnone : c.updated (.runRestic os which spawn) = [] := rfl
    rw [hnone, List.append_nil]
    exact hlog
  · have hupd : c.updated (.updateRun o now) = if o.applied then [runId] else [] := by
      simp [BackupCall.updated, hpc]
    obtain ⟨hown, hcons⟩ := hc.update runId u ret hpc
    obtain ⟨r₀, hr₀, -⟩ := hc.pending runId (.inr ⟨u, ret, hpc⟩)
    rw [hupd]
    by_cases happ : o.applied = true
    · rw [if_pos happ, if_pos happ]
      refine ⟨fun id hid => ?_, fun id r hr hid => ?_⟩
      · rcases List.mem_append.1 hid with hid | hid
        · exact hlog.drawn id hid
        · rw [List.mem_singleton.1 hid]
          exact t.find_lt hr₀
      · by_cases hself : id = runId
        · subst hself
          rw [update_find_self hr₀] at hr
          cases hr
          refine ⟨fun hrun => ?_, fun hnot => absurd (List.mem_append_right _ ?_) hnot⟩
          · rcases (hcons.closed r₀ now).1 with hst | hst <;> rw [hst] at hrun <;>
              exact absurd hrun (by decide)
          · exact List.mem_singleton_self _
        · rw [update_find_other t hself] at hr
          rw [hlog.running id r hr hid, List.mem_append, List.mem_singleton, or_iff_left hself]
    · rw [if_neg happ, if_neg happ, List.append_nil]
      exact hlog

theorem runLog_of_exec {cron : CronCrate} {ex : JobExecutor} {w : World} {runs : RunsTable}
    {as : List ClientAction} {c : Client}
    (h : exec (Client.step cron ex) (.init w runs) as = some c) :
    RunLog runs.nextId (trace (Client.step cron ex) Client.updated (.init w runs) as)
      c.executor.shared.runs := by
  refine exec_history (P := fun as c => RunLog runs.nextId
    (trace (Client.step cron ex) Client.updated (.init w runs) as) c.executor.shared.runs) ?_ ?_ h
  · refine ⟨fun id hid => absurd hid List.not_mem_nil, fun id r hr hid => ?_⟩
    have : id < runs.nextId := runs.find_lt hr
    omega
  · intro as m a m' hm hlog ha
    rw [trace_concat _ hm ha]
    rcases Client.step_calls ha with ⟨-, hruns, hnone⟩ | ⟨i, job, -, hruns, hnone, -⟩ |
      ⟨i, ev, call, call', -, hi, hstep, -, hupd⟩
    · rw [hruns, hnone, List.append_nil]
      exact hlog
    · rw [hruns, hnone, List.append_nil]
      exact hlog
    · rw [hupd]
      exact hlog.step ((client_runsInv hm).each i call hi) hstep

/-- A life touches no row that was there when it began. -/
theorem client_keeps_rows {cron : CronCrate} {ex : JobExecutor} {w : World} {runs : RunsTable}
    {as : List ClientAction} {c : Client}
    (h : exec (Client.step cron ex) (.init w runs) as = some c) {id : Int} {r : Run}
    (hr : runs.find id = some r) : c.executor.shared.runs.find id = some r := by
  refine exec_history (P := fun _ c => c.executor.shared.runs.find id = some r) hr ?_ h
  intro as m a m' hm hkeep ha
  rcases Client.step_calls ha with ⟨-, hruns, -⟩ | ⟨i, job, -, hruns, -, -⟩ |
    ⟨i, ev, call, call', -, hi, hstep, -, -⟩
  · rw [hruns]
    exact hkeep
  · rw [hruns]
    exact hkeep
  · exact BackupCall.step_older ((client_runsInv hm).each i call hi) hstep hkeep (runs.find_lt hr)

/-- A row that was not there has an id drawn since. -/
theorem client_draws {cron : CronCrate} {ex : JobExecutor} {w : World} {runs : RunsTable}
    {as : List ClientAction} {c : Client}
    (h : exec (Client.step cron ex) (.init w runs) as = some c) {id : Int} {r : Run}
    (hr : c.executor.shared.runs.find id = some r) (hnew : runs.find id = none) :
    runs.nextId ≤ id := by
  have hdrawn : ∀ r, c.executor.shared.runs.find id = some r → runs.nextId ≤ id := by
    refine exec_history (P := fun _ c => ∀ r, c.executor.shared.runs.find id = some r →
      runs.nextId ≤ id) ?_ ?_ h
    · intro r hr
      cases hnew.symm.trans hr
    · intro as m a m' hm ih ha r hr
      rcases Client.step_calls ha with ⟨-, hruns, -⟩ | ⟨i, job, -, hruns, -, -⟩ |
        ⟨i, ev, call, call', -, hi, hstep, -, -⟩
      · exact ih r (hruns ▸ hr)
      · exact ih r (hruns ▸ hr)
      · cases hbefore : m.executor.shared.runs.find id with
        | some r₀ => exact ih r₀ hbefore
        | none =>
          exact Int.le_trans (client_runsInv hm).base_le (BackupCall.step_inserted hstep hr hbefore)
  exact hdrawn r hr

/-! ## Many lives -/

/-- One life of a client: the configuration and the schedules it starts with, and what happens
    until it is stopped. -/
structure Life where
  ex : JobExecutor
  world : World
  actions : List ClientAction

/-- The client at the end of a life that began with the table `runs`. -/
def Life.run (cron : CronCrate) (runs : RunsTable) (l : Life) : Option Client :=
  exec (Client.step cron l.ex) (.init l.world runs) l.actions

/-- What a life makes of the table. -/
def Life.step (cron : CronCrate) (runs : RunsTable) (l : Life) : Option RunsTable :=
  (l.run cron runs).map fun c => c.executor.shared.runs

/-- The ids of the rows updated in a life. -/
def Life.updated (cron : CronCrate) (runs : RunsTable) (l : Life) : List Int :=
  trace (Client.step cron l.ex) Client.updated (.init l.world runs) l.actions

/-- The life created the record, left it as it is, and left it `running` exactly if no UPDATE of
    its own took effect on it. -/
structure Life.Made (cron : CronCrate) (runs : RunsTable) (l : Life) (r : Run) : Prop where
  drawn : runs.nextId ≤ r.id
  left : ∃ c, l.run cron runs = some c ∧ r ∈ c.executor.shared.runs.rows
  running : r.status = "running" ↔ r.id ∉ l.updated cron runs

/-- **The records over any number of lives**, each stopped anywhere: the rows that were there
    before are there unchanged, and every other row is as the life that created it left it.  So a
    record no UPDATE took effect on in its own life is `running` for ever. -/
theorem records_over_lives (cron : CronCrate) (runs : RunsTable) (lives : List Life)
    (runs' : RunsTable) (h : exec (Life.step cron) runs lives = some runs') :
    (∀ r ∈ runs.rows, r ∈ runs'.rows) ∧
    ∀ r ∈ runs'.rows, r ∈ runs.rows ∨ ∃ before l after m, lives = before ++ l :: after ∧
      exec (Life.step cron) runs before = some m ∧ l.Made cron m r := by
  refine exec_history (P := fun lives runs' => (∀ r ∈ runs.rows, r ∈ runs'.rows) ∧
    ∀ r ∈ runs'.rows, r ∈ runs.rows ∨ ∃ before l after m, lives = before ++ l :: after ∧
      exec (Life.step cron) runs before = some m ∧ l.Made cron m r) ?_ ?_ h
  · exact ⟨fun r hr => hr, fun r hr => .inl hr⟩
  · rintro lives m l m' hm ⟨hkeep, hmade⟩ hl
    obtain ⟨c, hc, rfl⟩ := Option.map_eq_some_iff.1 hl
    have hold : ∀ r ∈ m.rows, r ∈ c.executor.shared.runs.rows := fun r hr =>
      RunsTable.find_mem (client_keeps_rows hc (RunsTable.find_of_mem hr))
    refine ⟨fun r hr => hold r (hkeep r hr), fun r hr => ?_⟩
    have hfind := RunsTable.find_of_mem hr
    cases hbefore : m.find r.id with
    | some r₀ =>
      -- an older row: it is the one that was there
      cases (client_keeps_rows hc hbefore).symm.trans hfind
      rcases hmade r (RunsTable.find_mem hbefore) with hr₀ | ⟨before, l', after, k, hsplit, hrest⟩
      · exact .inl hr₀
      · exact .inr ⟨before, l', after ++ [l], k, by rw [hsplit]; simp, hrest⟩
    | none =>
      right
      have hnew : m.nextId ≤ r.id := client_draws hc hfind hbefore
      exact ⟨lives, l, [], m, rfl, hm, hnew, ⟨c, hc, hr⟩,
        (runLog_of_exec hc).running r.id r hfind hnew⟩

/-- The steps of a task up to the INSERT of its backup. -/
def ClientAction.begin (i : Nat) : List ClientAction :=
  [.executor (.task i (.getJobById none)), .executor (.task i .canExecute),
    .executor (.task i .markRunning), .executor (.task i .startBackup),
    .executor (.task i (.backup (.createRun .done 0)))]

/-- The rest of them, where restic is not to be run. -/
def ClientAction.fail (i : Nat) : List ClientAction :=
  [.executor (.task i (.backup (.runRestic .other (fun name => .ok ("/usr/bin/" ++ name))
      fun _ => .error "permission denied"))),
    .executor (.task i (.backup (.updateRun .done 60))), .executor (.task i .markCompleted)]

/-- A life that is stopped during a backup, and a second one in which the next backup fails: the
    first record stays `running`. -/
theorem records_over_lives_stopped :
    let w : World := .ofRows [.plain 1 "blade"] []
    let trigger : List ClientAction := [.triggerManualBackup 1, .executor .recv]
    let lives : List Life := [⟨.withCap 1, w, trigger ++ ClientAction.begin 0⟩,
      ⟨.withCap 1, w, trigger ++ ClientAction.begin 0 ++ ClientAction.fail 0⟩]
    ∃ runs, exec (Life.step .everyMinute) .empty lives = some runs ∧
      runs.rows.map Run.status = ["running", "failed"] ∧
      ∀ r ∈ runs.rows, r ∈ RunsTable.empty.rows ∨ ∃ before l after m,
        lives = before ++ l :: after ∧ exec (Life.step .everyMinute) .empty before = some m ∧
          l.Made .everyMinute m r := by
  intro w trigger lives
  exact ⟨_, rfl, by decide, (records_over_lives .everyMinute .empty lives _ rfl).2⟩

/-! ## What a stopped client leaves open -/

/-- The errors of `ResticCommand::new`. -/
def AppError.isSetup : AppError → Bool
  | .backup (.configurationError _) => true
  | .backup (.resticNotFound _) => true
  | _ => false

theorem ResticCommand.new_isSetup {os : TargetOs} {which : Which} {config : RemoteConfig}
    {e : AppError} (h : ResticCommand.new os which config = .error e) : e.isSetup = true := by
  unfold ResticCommand.new findResticBinary at h
  cases hurl : config.repositoryUrl with
  | none =>
    simp only [hurl] at h
    cases h
    rfl
  | some url =>
    cases hpassword : config.repositoryPassword with
    | none =>
      simp only [hurl, hpassword] at h
      cases h
      rfl
    | some password =>
      cases hwhich : which (resticBinaryName os) <;> simp only [hurl, hpassword, hwhich] at h <;>
        cases h
      rfl

/-- Nothing that comes after the command was built ends in one of these errors. -/
theorem conclude_not_isSetup {serde : SerdeJson} {runId : Int} {spawn : Spawn}
    {cmd : ResticCommand} {job : BackupJob} {e : AppError}
    (h : (conclude serde runId (executeResticCommand spawn cmd job)).2 = .error e) :
    e.isSetup = false := by
  unfold executeResticCommand at h
  cases hspawn : spawn (cmd.buildBackupCommand job) with
  | error msg =>
    simp only [hspawn, conclude] at h
    cases h
    rfl
  | ok output =>
    simp only [hspawn, conclude] at h
    by_cases hs : output.success = false
    · rw [if_pos hs] at h
      cases h
      rfl
    · rw [if_neg hs] at h
      cases hparse : parseResticJsonOutput serde output.stdout with
      | ok stats =>
        simp only [hparse] at h
        cases h
      | error e' =>
        simp only [hparse] at h
        cases h
        unfold parseResticJsonOutput at hparse
        split at hparse
        · cases hparse
          rfl
        · split at hparse <;> cases hparse
          rfl

/-- Where a call stands whose database calls have all succeeded, with the row it owns. -/
structure CallSettled (t : RunsTable) (c : BackupCall) : Prop where
  update : ∀ id u ret, c.pc = .update id u ret → ∀ e, ret = .error e → e.isSetup = false
  returned : ∀ id r ret, c.runId = some id → c.pc = .returned ret → t.find id = some r →
    (r.status = "running" ↔ ∃ e, ret = .error e ∧ e.isSetup = true)

theorem CallSettled.start (t : RunsTable) (job : BackupJob) (config : RemoteConfig) :
    CallSettled t (.start job config) :=
  ⟨fun _ _ _ h => (by cases h), fun _ _ _ _ h => by cases h⟩

/-- A step of a call whose database calls succeed. -/
theorem CallSettled.step {serde : SerdeJson} {base : Int} {t t' : RunsTable} {c c' : BackupCall}
    {ev : BackupEvent} (hs : CallSettled t c) (hc : CallOk serde base t c)
    (hev : TaskEvent.Succeeds (.backup ev)) (h : c.step serde t ev = some (t', c')) :
    CallSettled t' c' := by
  cases ev with
  | createRun o now =>
    cases hev
    cases hpc : c.pc with
    | create =>
      simp only [BackupCall.step, hpc, createRun, DbOutcome.applied, DbOutcome.result] at h
      cases h
      exact ⟨fun _ _ _ h => (by cases h), fun _ _ _ _ h => by cases h⟩
    | _ => simp [BackupCall.step, hpc] at h
  | runRestic os which spawn =>
    cases hpc : c.pc with
    | restic runId =>
      cases hcmd : ResticCommand.new os which c.config with
      | error e =>
        simp only [BackupCall.step, hpc, hcmd] at h
        cases h
        refine ⟨fun _ _ _ h => (by cases h), fun id r ret hid hret hr => ?_⟩
        cases hret
        have hown := hc.restic runId hpc
        rw [hown, Option.some.injEq] at hid
        subst hid
        obtain ⟨r', hr', hopen⟩ := hc.pending runId (.inl hpc)
        cases hr.symm.trans hr'
        exact ⟨fun _ => ⟨e, rfl, ResticCommand.new_isSetup hcmd⟩, fun _ => hopen.1⟩
      | ok cmd =>
        simp only [BackupCall.step, hpc, hcmd] at h
        cases h
        refine ⟨fun id u ret hupd e he => ?_, fun _ _ _ _ h => by cases h⟩
        cases hupd
        exact conclude_not_isSetup he
    | _ => simp [BackupCall.step, hpc] at h
  | updateRun o now =>
    cases hev
    cases hpc : c.pc with
    | update runId u ret =>
      simp only [BackupCall.step, hpc, closeRun, updateRun, DbOutcome.applied,
        DbOutcome.result] at h
      cases h
      refine ⟨fun _ _ _ h => (by cases h), fun id r ret' hid hret hr => ?_⟩
      cases hret
      obtain ⟨hown, hcons⟩ := hc.update runId u ret hpc
      obtain ⟨r₀, hr₀, -⟩ := hc.pending runId (.inr ⟨u, ret, hpc⟩)
      rw [hown, Option.some.injEq] at hid
      subst hid
      rw [if_pos trivial, update_find_self hr₀] at hr
      cases hr
      constructor
      · intro hrun
        rcases (hcons.closed r₀ now).1 with hst | hst <;> rw [hst] at hrun <;>
          exact absurd hrun (by decide)
      · rintro ⟨e, he, hsetup⟩
        rw [hs.update runId u ret hpc e he] at hsetup
        cases hsetup
    | _ => simp [BackupCall.step, hpc] at h

/-- The calls of a run without failures: every new row is owned, and every call is settled. -/
structure SettledInv (base : Int) (t : RunsTable) (calls : Nat → Option BackupCall) : Prop where
  owned : ∀ id r, t.find id = some r → base ≤ id →
    ∃ i c, calls i = some c ∧ c.runId = some id
  settled : ∀ i c, calls i = some c → CallSettled t c

/-- An INSERT that succeeds is owned by its call. -/
theorem BackupCall.step_owns {serde : SerdeJson} {t t' : RunsTable} {c c' : BackupCall}
    {ev : BackupEvent} (hev : TaskEvent.Succeeds (.backup ev))
    (h : c.step serde t ev = some (t', c')) {id : Int} {r : Run} (hr : t'.find id = some r)
    (hnew : t.find id = none) : c'.runId = some id := by
  have hdrawn := BackupCall.step_inserted h hr hnew
  obtain ⟨o, now, rfl, hpc, rfl, ⟨-, rfl⟩ | ⟨e, rfl⟩⟩ | ⟨os, which, spawn, runId, -, -, rfl, -⟩ |
    ⟨o, now, runId, u, ret, ret', -, -, rfl, -⟩ := BackupCall.step_cases h
  · by_cases hid : id = t.nextId
    · rw [hid]
    · split at hr
      · rw [insert_find_old t _ _ _ _ hid, hnew] at hr
        cases hr
      · cases hnew.symm.trans hr
  · cases hev
    simp [BackupCall.step, hpc, createRun, DbOutcome.result] at h
  · cases hnew.symm.trans hr
  · split at hr
    · rw [update_find, hnew] at hr
      cases hr
    · cases hnew.symm.trans hr

theorem SettledInv.step {serde : SerdeJson} {base : Int} {t t' : RunsTable}
    {calls : Nat → Option BackupCall} (hs : SettledInv base t calls)
    (hinv : RunsInv serde base t calls) {i : Nat} {c c' : BackupCall} {ev : BackupEvent}
    (hi : calls i = some c) (hev : TaskEvent.Succeeds (.backup ev))
    (h : c.step serde t ev = some (t', c')) :
    SettledInv base t' (Function.update calls i (some c')) := by
  constructor
  · intro id r hr hid
    cases hbefore : t.find id with
    | none => exact ⟨i, c', Function.update_self .., BackupCall.step_owns hev h hr hbefore⟩
    | some r₀ =>
      obtain ⟨k, d, hk, hown⟩ := hs.owned id r₀ hbefore hid
      by_cases hki : k = i
      · subst hki
        cases hi.symm.trans hk
        refine ⟨k, c', Function.update_self .., ?_⟩
        rcases BackupCall.step_runId h with hsame | hnew
        · rw [hsame, hown]
        · -- a call draws one id only
          obtain ⟨o, now, -, hpc, -⟩ | ⟨os, which, spawn, runId, -, -, -, ⟨e, rfl⟩ | ⟨x, rfl⟩⟩ |
            ⟨o, now, runId, u, ret, ret', -, -, -, rfl⟩ := BackupCall.step_cases h
          · rw [(hinv.each k c hi).create hpc] at hown
            cases hown
          all_goals exact hown
      · exact ⟨k, d, by rw [Function.update_of_ne hki, hk], hown⟩
  · intro k d hk
    rcases update_some_cases hk with ⟨rfl, rfl⟩ | ⟨hne, hk⟩
    · exact (hs.settled k c hi).step (hinv.each k c hi) hev h
    · refine ⟨(hs.settled k d hk).update, fun id r ret hown hret hr => ?_⟩
      obtain ⟨-, r₀, hr₀, -⟩ := (hinv.each k d hk).row id hown
      have hkeep := BackupCall.step_find h hr₀ fun u ret hpc => by
        exact hne (hinv.distinct k i d c id hk hi hown ((hinv.each i c hi).update id u ret hpc).1)
      cases hr.symm.trans hkeep
      exact (hs.settled k d hk).returned id r ret hown hret hr₀

theorem settledInv_of_exec {cron : CronCrate} {ex : JobExecutor} {w : World} {runs : RunsTable}
    {as : List ClientAction} {c : Client}
    (h : exec (Client.step cron ex) (.init w runs) as = some c) (hok : ∀ a ∈ as, a.Succeeds) :
    SettledInv runs.nextId c.executor.shared.runs c.executor.calls := by
  revert hok
  refine exec_history (P := fun as c => (∀ a ∈ as, ClientAction.Succeeds a) →
    SettledInv runs.nextId c.executor.shared.runs c.executor.calls) ?_ ?_ h
  · intro _
    refine ⟨fun id r hr hid => ?_, fun i c hc => by cases hc⟩
    have : id < runs.nextId := runs.find_lt hr
    omega
  · intro as m a m' hm ih ha hok
    have hs := ih fun b hb => hok b (List.mem_append_left _ hb)
    have hlast := hok a (List.mem_append_right _ List.mem_cons_self)
    rcases Client.step_calls ha with ⟨hcalls, hruns, -⟩ | ⟨i, job, hnone, hruns, -, hcalls⟩ |
      ⟨i, ev, call, call', rfl, hi, hstep, hcalls, -⟩
    · rw [hcalls, hruns]
      exact hs
    · rw [hcalls, hruns]
      refine ⟨fun id r hr hid => ?_, fun k d hk => ?_⟩
      · obtain ⟨k, d, hk, hown⟩ := hs.owned id r hr hid
        have hne : k ≠ i := by
          rintro rfl
          cases hnone.symm.trans hk
        exact ⟨k, d, by rw [Function.update_of_ne hne, hk], hown⟩
      · rcases update_some_cases hk with ⟨-, rfl⟩ | ⟨-, hk⟩
        · exact .start _ job ex.config
        · exact hs.settled k d hk
    · rw [hcalls]
      exact hs.step (client_runsInv hm) hi hlast hstep

/-- **The records a stopped client leaves open**, if no database call has failed: over every run,
    cut off anywhere, a record is `running` exactly if its call stands between the INSERT and the
    UPDATE, or has returned one of the errors of `ResticCommand::new`. -/
theorem open_records_iff (cron : CronCrate) (ex : JobExecutor) (w : World) (runs : RunsTable)
    (as : List ClientAction) (c : Client)
    (h : exec (Client.step cron ex) (.init w runs) as = some c) (hok : ∀ a ∈ as, a.Succeeds) :
    ∀ r ∈ c.executor.shared.runs.rows, runs.nextId ≤ r.id →
      ∃ (t : Task) (call : BackupCall), t ∈ c.executor.parts ∧ t.call = some call ∧
        call.runId = some r.id ∧
        (r.status = "running" ↔ call.pc = .restic r.id ∨ (∃ u ret, call.pc = .update r.id u ret) ∨
          ∃ e : AppError, call.pc = .returned (.error e) ∧ e.isSetup = true) := by
  intro r hr hid
  have hfind := RunsTable.find_of_mem hr
  have hinv := client_runsInv h
  have hs := settledInv_of_exec h hok
  obtain ⟨i, call, hi, hown⟩ := hs.owned r.id r hfind hid
  obtain ⟨t, ht, htcall⟩ := Option.bind_eq_some_iff.1 hi
  refine ⟨t, call, List.mem_of_getElem? ht, htcall, hown, ?_⟩
  have hc := hinv.each i call hi
  cases hpc : call.pc with
  | create =>
    rw [hc.create hpc] at hown
    cases hown
  | restic id =>
    have hsame : id = r.id := Option.some.inj ((hc.restic id hpc).symm.trans hown)
    subst hsame
    obtain ⟨r', hr', hopen⟩ := hc.pending r.id (.inl hpc)
    cases hfind.symm.trans hr'
    exact ⟨fun _ => .inl rfl, fun _ => hopen.1⟩
  | update id u ret =>
    have hsame : id = r.id := Option.some.inj ((hc.update id u ret hpc).1.symm.trans hown)
    subst hsame
    obtain ⟨r', hr', hopen⟩ := hc.pending r.id (.inr ⟨u, ret, hpc⟩)
    cases hfind.symm.trans hr'
    exact ⟨fun _ => .inr (.inl ⟨u, ret, rfl⟩), fun _ => hopen.1⟩
  | returned ret =>
    rw [(hs.settled i call hi).returned r.id r ret hown hpc hfind]
    simp

/-- A client stopped between the INSERT of a backup and its restic command. -/
theorem open_records_iff_stopped :
    let w : World := .ofRows [.plain 1 "blade"] []
    let as : List ClientAction :=
      [.triggerManualBackup 1, .executor .recv] ++ ClientAction.begin 0
    let r := newRun 1 1 "blade" "manual" 0
    ∃ c, exec (Client.step .everyMinute (.withCap 1)) (.init w .empty) as = some c ∧
      (∀ a ∈ as, a.Succeeds) ∧ r ∈ c.executor.shared.runs.rows ∧
      ∃ (t : Task) (call : BackupCall), t ∈ c.executor.parts ∧ t.call = some call ∧
        call.runId = some r.id ∧
        (r.status = "running" ↔ call.pc = .restic r.id ∨ (∃ u ret, call.pc = .update r.id u ret) ∨
          ∃ e : AppError, call.pc = .returned (.error e) ∧ e.isSetup = true) := by
  intro w as r
  have hok : ∀ a ∈ as, a.Succeeds := by
    intro a ha
    simp only [as, ClientAction.begin, List.cons_append, List.nil_append, List.mem_cons,
      List.not_mem_nil, or_false] at ha
    rcases ha with rfl | rfl | rfl | rfl | rfl | rfl | rfl <;> trivial
  refine ⟨_, rfl, hok, List.mem_cons_self, ?_⟩
  exact open_records_iff .everyMinute (.withCap 1) w .empty as _ rfl hok r List.mem_cons_self
    (by decide)

end RBackup2

import RBackup2.Backup.Execute
import RBackup2.Lib.Transition

/-!
# Any number of backups at once

`execute_backup` as a sequence of atomic steps on the shared table `runs`: the INSERT, the restic
command, the UPDATE.  `Calls.step` lets any call take its next step, so a list of actions is an
interleaving, and every database call may fail or lose its answer at any point.

* `BackupCall.exec_executeBackup` — a call left alone computes `executeBackup`.
* `BackupCall.step_cases` — everything a step can do; `step_find` — it changes no row but its own;
  `step_row` — what a row may be after it.
* `RunsInv` — the invariant: calls own distinct rows, a row is open until its owner's UPDATE and
  consistent afterwards; `RunsInv.step` preserves it.
* `runs_invariant` — every record created is updated at most once, only from `running`, and its
  columns agree with its status and with its own execution.
-/

set_option autoImplicit false

namespace RBackup2

open Transition

/-- Where a call of `execute_backup` stands. -/
inductive BackupPc where
  | create
  | restic (runId : Int)
  | update (runId : Int) (u : RunUpdate) (ret : Except AppError Int)
  | returned (ret : Except AppError Int)

/-- A call of `execute_backup`: its arguments, its locals `run_id` and `output`, its position. -/
structure BackupCall where
  job : BackupJob
  config : RemoteConfig
  runId : Option Int
  output : Option Output
  pc : BackupPc

def BackupCall.start (job : BackupJob) (config : RemoteConfig) : BackupCall :=
  ⟨job, config, none, none, .create⟩

/-- One step of a call, with what the environment decides in it. -/
inductive BackupEvent where
  | createRun (o : DbOutcome) (now : DateTime)
  | runRestic (os : TargetOs) (which : Which) (spawn : Spawn)
  | updateRun (o : DbOutcome) (now : DateTime)

def BackupCall.step (serde : SerdeJson) (t : RunsTable) (c : BackupCall) :
    BackupEvent → Option (RunsTable × BackupCall)
  | .createRun o now =>
    match c.pc with
    | .create =>
      match createRun o now c.job.id c.job.deviceId "manual" t with
      | (t, .error e) => some (t, { c with pc := .returned (.error e) })
      | (t, .ok runId) => some (t, { c with runId := some runId, pc := .restic runId })
    | _ => none
  | .runRestic os which spawn =>
    match c.pc with
    | .restic runId =>
      match ResticCommand.new os which c.config with
      | .error e => some (t, { c with pc := .returned (.error e) })
      | .ok resticCmd =>
        let r := executeResticCommand spawn resticCmd c.job
        let p := conclude serde runId r
        some (t, { c with output := r.toOption, pc := .update runId p.1 p.2 })
    | _ => none
  | .updateRun o now =>
    match c.pc with
    | .update runId u ret =>
      let p := closeRun o now runId u ret t
      some (p.1, { c with pc := .returned p.2 })
    | _ => none

/-- The steps of a call that nothing else interferes with. -/
def BackupEnv.events (env : BackupEnv) : List BackupEvent :=
  [.createRun env.create env.createdAt, .runRestic env.os env.which env.spawn,
    .updateRun env.update env.updatedAt]

/-- **A call left alone computes `executeBackup`**, in at most three steps. -/
theorem BackupCall.exec_executeBackup (serde : SerdeJson) (env : BackupEnv) (job : BackupJob)
    (config : RemoteConfig) (t : RunsTable) :
    ∃ n c, exec (fun p : RunsTable × BackupCall => p.2.step serde p.1)
        (t, .start job config) (env.events.take n) =
          some ((executeBackup serde env job config t).1, c) ∧
      c.pc = .returned (executeBackup serde env job config t).2 := by
  rw [executeBackup_eq]
  cases hc : createRun env.create env.createdAt job.id job.deviceId "manual" t with
  | mk t' r =>
    cases r with
    | error e =>
      refine ⟨1, { BackupCall.start job config with pc := .returned (.error e) }, ?_, rfl⟩
      simp [BackupEnv.events, exec, BackupCall.step, BackupCall.start, hc]
    | ok runId =>
      cases hcmd : ResticCommand.new env.os env.which config with
      | error e =>
        refine ⟨2, ⟨job, config, some runId, none, .returned (.error e)⟩, ?_, rfl⟩
        simp [BackupEnv.events, exec, BackupCall.step, BackupCall.start, hc, hcmd]
      | ok cmd =>
        refine ⟨3, ⟨job, config, some runId, (executeResticCommand env.spawn cmd job).toOption,
          .returned _⟩, ?_, rfl⟩
        simp [BackupEnv.events, exec, BackupCall.step, BackupCall.start, hc, hcmd]

/-- **Everything a step of a call can do.** -/
theorem BackupCall.step_cases {serde : SerdeJson} {t t' : RunsTable} {c c' : BackupCall}
    {ev : BackupEvent} (h : c.step serde t ev = some (t', c')) :
    (∃ o now, ev = .createRun o now ∧ c.pc = .create ∧
      t' = (if o.applied then t.insert c.job.id c.job.deviceId "manual" now else t) ∧
      ((o = .done ∧ c' = { c with runId := some t.nextId, pc := .restic t.nextId }) ∨
        ∃ e, c' = { c with pc := .returned (.error e) })) ∨
    (∃ os which spawn runId, ev = .runRestic os which spawn ∧ c.pc = .restic runId ∧ t' = t ∧
      ((∃ e, c' = { c with pc := .returned (.error e) }) ∨
        ∃ r, c' = { c with
          output := Except.toOption r
          pc := .update runId (conclude serde runId r).1 (conclude serde runId r).2 })) ∨
    (∃ o now runId u ret ret', ev = .updateRun o now ∧ c.pc = .update runId u ret ∧
      t' = (if o.applied then t.update runId now u else t) ∧
      c' = { c with pc := .returned ret' }) := by
  cases ev with
  | createRun o now =>
    left
    cases hpc : c.pc with
    | create =>
      cases o <;>
        simp only [BackupCall.step, hpc, createRun, DbOutcome.applied, DbOutcome.result,
          Option.some.injEq, Prod.mk.injEq] at h <;> obtain ⟨rfl, rfl⟩ := h
      · exact ⟨.done, now, rfl, rfl, rfl, .inl ⟨rfl, rfl⟩⟩
      · exact ⟨_, now, rfl, rfl, rfl, .inr ⟨_, rfl⟩⟩
      · exact ⟨_, now, rfl, rfl, rfl, .inr ⟨_, rfl⟩⟩
    | restic | update | returned => simp [BackupCall.step, hpc] at h
  | runRestic os which spawn =>
    right; left
    cases hpc : c.pc with
    | restic runId =>
      cases hcmd : ResticCommand.new os which c.config with
      | error e =>
        simp only [BackupCall.step, hpc, hcmd, Option.some.injEq, Prod.mk.injEq] at h
        obtain ⟨rfl, rfl⟩ := h
        exact ⟨os, which, spawn, runId, rfl, rfl, rfl, .inl ⟨e, rfl⟩⟩
      | ok cmd =>
        simp only [BackupCall.step, hpc, hcmd, Option.some.injEq, Prod.mk.injEq] at h
        obtain ⟨rfl, rfl⟩ := h
        exact ⟨os, which, spawn, runId, rfl, rfl, rfl, .inr ⟨_, rfl⟩⟩
    | create | update | returned => simp [BackupCall.step, hpc] at h
  | updateRun o now =>
    right; right
    cases hpc : c.pc with
    | update runId u ret =>
      simp only [BackupCall.step, hpc, Option.some.injEq, Prod.mk.injEq] at h
      obtain ⟨rfl, rfl⟩ := h
      refine ⟨o, now, runId, u, ret, _, rfl, rfl, ?_, rfl⟩
      cases o <;> rfl
    | create | restic | returned => simp [BackupCall.step, hpc] at h

/-- **Frame**: a step changes no row but the one its UPDATE is for. -/
theorem BackupCall.step_find {serde : SerdeJson} {t t' : RunsTable} {c c' : BackupCall}
    {ev : BackupEvent} (h : c.step serde t ev = some (t', c')) {id : Int} {r : Run}
    (hr : t.find id = some r) (hid : ∀ u ret, c.pc ≠ .update id u ret) : t'.find id = some r := by
  obtain ⟨o, now, -, -, rfl, -⟩ | ⟨os, which, spawn, runId, -, -, rfl, -⟩ |
    ⟨o, now, runId, u, ret, ret', -, hpc, rfl, -⟩ := BackupCall.step_cases h
  · split
    · rw [insert_find_old t _ _ _ _ (by have := t.find_lt hr; omega), hr]
    · exact hr
  · exact hr
  · split
    · rw [update_find_other t (fun e : id = runId => hid u ret (by rw [e, hpc])), hr]
    · exact hr

/-- **What a row may be after a step**: the row it was, a new one, or the one the call closes. -/
theorem BackupCall.step_row {serde : SerdeJson} {t t' : RunsTable} {c c' : BackupCall}
    {ev : BackupEvent} (h : c.step serde t ev = some (t', c')) {id : Int} {r : Run}
    (hr : t'.find id = some r) :
    t.find id = some r ∨
    (∃ now, r = newRun id c.job.id c.job.deviceId "manual" now) ∨
    (∃ o now u ret ret' r₀, ev = .updateRun o now ∧ c.pc = .update id u ret ∧
      c' = { c with pc := .returned ret' } ∧ t.find id = some r₀ ∧ r = r₀.finish now u) := by
  obtain ⟨o, now, -, -, rfl, -⟩ | ⟨os, which, spawn, runId, -, -, rfl, -⟩ |
    ⟨o, now, runId, u, ret, ret', hev, hpc, rfl, rfl⟩ := BackupCall.step_cases h
  · split at hr
    · by_cases hnew : id = t.nextId
      · subst hnew
        rw [insert_find_new] at hr
        cases hr
        exact .inr (.inl ⟨now, rfl⟩)
      · rw [insert_find_old t _ _ _ _ hnew] at hr
        exact .inl hr
    · exact .inl hr
  · exact .inl hr
  · split at hr
    · by_cases hown : id = runId
      · subst hown
        rw [update_find] at hr
        obtain ⟨r₀, hr₀, rfl⟩ := Option.map_eq_some_iff.1 hr
        rw [if_pos (t.find_id hr₀)]
        exact .inr (.inr ⟨o, now, u, ret, ret', r₀, hev, hpc, rfl, hr₀, rfl⟩)
      · rw [update_find_other t hown] at hr
        exact .inl hr
    · exact .inl hr

/-! ## What a call owns -/

/-- The row as the INSERT left it. -/
def Run.isOpen (r : Run) : Prop :=
  r.status = "running" ∧ r.endTime = none ∧ r.exitCode = none ∧ r.errorMessage = none ∧
    r.snapshotId = none

/-- What holds of a call, relative to the table; `base` is the first id the calls may draw. -/
structure CallOk (serde : SerdeJson) (base : Int) (t : RunsTable) (c : BackupCall) : Prop where
  create : c.pc = .create → c.runId = none
  restic : ∀ id, c.pc = .restic id → c.runId = some id
  update : ∀ id u ret, c.pc = .update id u ret → c.runId = some id ∧ Consistent serde c.output u
  row : ∀ id, c.runId = some id → base ≤ id ∧
    ∃ r, t.find id = some r ∧ r.jobId = c.job.id ∧ r.triggeredBy = "manual"
  pending : ∀ id, c.pc = .restic id ∨ (∃ u ret, c.pc = .update id u ret) →
    ∃ r, t.find id = some r ∧ r.isOpen

theorem CallOk.start (serde : SerdeJson) (base : Int) (t : RunsTable) (job : BackupJob)
    (config : RemoteConfig) : CallOk serde base t (.start job config) := by
  refine ⟨fun _ => rfl, ?_, ?_, ?_, ?_⟩
  · intro id h; cases h
  · intro id u ret h; cases h
  · intro id h; cases h
  · rintro id (h | ⟨u, ret, h⟩) <;> cases h

/-- A call that owns no row, or another row, keeps its invariant while one call steps. -/
theorem CallOk.frame {serde : SerdeJson} {base : Int} {t t' : RunsTable} {c c' d : BackupCall}
    {ev : BackupEvent} (hd : CallOk serde base t d) (h : c.step serde t ev = some (t', c'))
    (hne : ∀ id u ret, c.pc = .update id u ret → d.runId ≠ some id) :
    CallOk serde base t' d := by
  have keep : ∀ {id r}, d.runId = some id → t.find id = some r → t'.find id = some r :=
    fun hid hr => BackupCall.step_find h hr fun u ret hpc => hne _ u ret hpc hid
  refine ⟨hd.create, hd.restic, hd.update, ?_, ?_⟩
  · intro id hid
    obtain ⟨hb, r, hr, hrest⟩ := hd.row id hid
    exact ⟨hb, r, keep hid hr, hrest⟩
  · intro id hpc
    obtain ⟨r, hr, hopen⟩ := hd.pending id hpc
    refine ⟨r, keep ?_ hr, hopen⟩
    rcases hpc with hpc | ⟨u, ret, hpc⟩
    · exact hd.restic id hpc
    · exact (hd.update id u ret hpc).1

/-- A call that has returned owes nothing but the row it owns. -/
theorem CallOk.returned {serde : SerdeJson} {base : Int} {t : RunsTable} {c : BackupCall}
    (ret : Except AppError Int)
    (hrow : ∀ id, c.runId = some id → base ≤ id ∧
      ∃ r, t.find id = some r ∧ r.jobId = c.job.id ∧ r.triggeredBy = "manual") :
    CallOk serde base t { c with pc := .returned ret } := by
  refine ⟨?_, ?_, ?_, hrow, ?_⟩
  · intro h; cases h
  · intro id h; cases h
  · intro id u ret h; cases h
  · rintro id (h | ⟨u, ret, h⟩) <;> cases h

/-- A call keeps its own invariant. -/
theorem CallOk.step {serde : SerdeJson} {base : Int} {t t' : RunsTable} {c c' : BackupCall}
    {ev : BackupEvent} (hc : CallOk serde base t c) (hb : base ≤ t.nextId)
    (h : c.step serde t ev = some (t', c')) : CallOk serde base t' c' := by
  obtain ⟨o, now, -, hpc, rfl, ⟨rfl, rfl⟩ | ⟨e, rfl⟩⟩ |
    ⟨os, which, spawn, runId, -, hpc, rfl, ⟨e, rfl⟩ | ⟨r, rfl⟩⟩ |
    ⟨o, now, runId, u, ret, ret', -, hpc, rfl, rfl⟩ := BackupCall.step_cases h
  · -- the INSERT succeeded: the call owns the new row
    have hnew := insert_find_new t c.job.id c.job.deviceId "manual" now
    refine ⟨?_, ?_, ?_, ?_, ?_⟩
    · intro h; cases h
    · intro id h; cases h; rfl
    · intro id u ret h; cases h
    · intro id hid
      cases hid
      exact ⟨hb, _, hnew, rfl, rfl⟩
    · rintro id (h | ⟨u, ret, h⟩) <;> cases h
      exact ⟨_, hnew, rfl, rfl, rfl, rfl, rfl⟩
  · -- the INSERT was not confirmed: the call owns nothing
    refine .returned _ fun id hid => ?_
    rw [hc.create hpc] at hid
    cases hid
  · -- no restic command: the call returns and leaves its row open
    exact .returned _ hc.row
  · refine ⟨?_, ?_, ?_, hc.row, ?_⟩
    · intro h; cases h
    · intro id h; cases h
    · intro id u ret h
      cases h
      exact ⟨hc.restic runId hpc, conclude_spec serde runId r⟩
    · rintro id (h | ⟨u, ret, h⟩) <;> cases h
      exact hc.pending runId (.inl hpc)
  · refine .returned _ fun id hid => ?_
    obtain ⟨hbase, r, hr, hjob, htrig⟩ := hc.row id hid
    refine ⟨hbase, ?_⟩
    split
    · rw [update_find, hr, Option.map_some]
      refine ⟨_, rfl, ?_, ?_⟩ <;> split <;> assumption
    · exact ⟨r, hr, hjob, htrig⟩

/-! ## The calls together -/

/-- A run record as the claims about the history read it; `calls` are the executions, by their
    position. -/
structure RowOk (serde : SerdeJson) (calls : Nat → Option BackupCall) (r : Run) : Prop where
  status : r.status = "running" ∨ r.status = "success" ∨ r.status = "failed"
  running : r.status = "running" → r.endTime = none ∧ r.exitCode = none ∧ r.errorMessage = none ∧
    r.snapshotId = none
  success : r.status = "success" → r.exitCode = some 0 ∧ r.errorMessage = none ∧
    r.endTime.isSome ∧ ∃ i c, calls i = some c ∧ c.runId = some r.id ∧
      (∃ ret, c.pc = .returned ret) ∧ ∃ out summary, c.output = some out ∧
        findSummary serde (Text.lines out.stdout) = some summary ∧
        summary.snapshotId.isSome ∧ r.snapshotId = summary.snapshotId
  failed : r.status = "failed" → (∃ msg, r.errorMessage = some msg ∧ msg ≠ "") ∧
    r.endTime.isSome ∧ r.snapshotId = none

theorem RowOk.ofOpen (serde : SerdeJson) (calls : Nat → Option BackupCall) {r : Run}
    (h : r.isOpen) : RowOk serde calls r := by
  refine ⟨.inl h.1, fun _ => h.2, ?_, ?_⟩
  · intro hs
    rw [h.1] at hs
    exact absurd hs (by decide)
  · intro hs
    rw [h.1] at hs
    exact absurd hs (by decide)

/-- The row after the UPDATE of its owner. -/
theorem RowOk.ofConsistent {serde : SerdeJson} {calls : Nat → Option BackupCall} {i : Nat}
    {c : BackupCall} {ret : Except AppError Int} {u : RunUpdate} {r : Run} {now : DateTime}
    (hu : Consistent serde c.output u) (hc : calls i = some c) (hid : c.runId = some r.id)
    (hpc : c.pc = .returned ret) : RowOk serde calls (r.finish now u) := by
  cases hu with
  | failed msg hstatus hmsg hne hsnap =>
    have hs : (r.finish now u).status = "failed" := hstatus
    refine ⟨.inr (.inr hs), ?_, ?_, fun _ => ⟨⟨msg, hmsg, hne⟩, rfl, hsnap⟩⟩
    all_goals intro h; rw [hs] at h; exact absurd h (by decide)
  | success out summary hstatus hexit hmsg hout hsum hsome hsnap =>
    have hs : (r.finish now u).status = "success" := hstatus
    refine ⟨.inr (.inl hs), ?_, fun _ => ⟨hexit, hmsg, rfl, i, c, hc, hid, ⟨ret, hpc⟩, out, summary,
      hout, hsum, hsome, hsnap⟩, ?_⟩
    all_goals intro h; rw [hs] at h; exact absurd h (by decide)

/-- A row stays right while a call that has not returned is replaced. -/
theorem RowOk.update {serde : SerdeJson} {calls : Nat → Option BackupCall} {i : Nat}
    {r : Run} (h : RowOk serde calls r) (hi : ∀ c ret, calls i = some c → c.pc ≠ .returned ret)
    (c' : Option BackupCall) : RowOk serde (Function.update calls i c') r := by
  refine ⟨h.status, h.running, fun hs => ?_, h.failed⟩
  obtain ⟨he, hm, ht, k, d, hk, hid, ⟨ret, hret⟩, hrest⟩ := h.success hs
  have hne : k ≠ i := by
    rintro rfl
    exact hi d ret hk hret
  exact ⟨he, hm, ht, k, d, by rw [Function.update_of_ne hne, hk], hid, ⟨ret, hret⟩, hrest⟩

/-- **The invariant of the calls and their table.** -/
structure RunsInv (serde : SerdeJson) (base : Int) (t : RunsTable)
    (calls : Nat → Option BackupCall) : Prop where
  base_le : base ≤ t.nextId
  each : ∀ i c, calls i = some c → CallOk serde base t c
  distinct : ∀ i j c d id, calls i = some c → calls j = some d → c.runId = some id →
    d.runId = some id → i = j
  rows : ∀ id r, t.find id = some r → base ≤ id → RowOk serde calls r

/-- A call that can step has not returned. -/
theorem BackupCall.step_not_returned {serde : SerdeJson} {t t' : RunsTable} {c c' : BackupCall}
    {ev : BackupEvent} (h : c.step serde t ev = some (t', c')) (ret : Except AppError Int) :
    c.pc ≠ .returned ret := by
  intro hpc
  cases ev <;> simp [BackupCall.step, hpc] at h

/-- A step draws a new run id or keeps the one the call has. -/
theorem BackupCall.step_runId {serde : SerdeJson} {t t' : RunsTable} {c c' : BackupCall}
    {ev : BackupEvent} (h : c.step serde t ev = some (t', c')) :
    c'.runId = c.runId ∨ c'.runId = some t.nextId := by
  obtain ⟨o, now, -, -, -, ⟨-, rfl⟩ | ⟨e, rfl⟩⟩ |
    ⟨os, which, spawn, runId, -, -, -, ⟨e, rfl⟩ | ⟨r, rfl⟩⟩ |
    ⟨o, now, runId, u, ret, ret', -, -, -, rfl⟩ := BackupCall.step_cases h
  · exact .inr rfl
  all_goals exact .inl rfl

theorem BackupCall.step_nextId {serde : SerdeJson} {t t' : RunsTable} {c c' : BackupCall}
    {ev : BackupEvent} (h : c.step serde t ev = some (t', c')) : t.nextId ≤ t'.nextId := by
  obtain ⟨o, now, -, -, rfl, -⟩ | ⟨os, which, spawn, runId, -, -, rfl, -⟩ |
    ⟨o, now, runId, u, ret, ret', -, -, rfl, -⟩ := BackupCall.step_cases h
  · split
    · simp only [RunsTable.insert]; omega
    · exact Int.le_refl _
  · exact Int.le_refl _
  · split <;> exact Int.le_refl _

/-- Before the first step: the calls at work own nothing, and the rows are older. -/
theorem RunsInv.init (serde : SerdeJson) (t : RunsTable) (calls : Nat → Option BackupCall)
    (h : ∀ i c, calls i = some c → ∃ job config, c = .start job config) :
    RunsInv serde t.nextId t calls := by
  refine ⟨Int.le_refl _, ?_, ?_, ?_⟩
  · intro i c hc
    obtain ⟨job, config, rfl⟩ := h i c hc
    exact .start serde _ t job config
  · intro i j c d id hi _ hc _
    obtain ⟨job, config, rfl⟩ := h i c hi
    cases hc
  · intro id r hr hid
    have : id < t.nextId := t.find_lt hr
    omega

/-- A call that is added owns nothing yet. -/
theorem RunsInv.start {serde : SerdeJson} {base : Int} {t : RunsTable}
    {calls : Nat → Option BackupCall} (hs : RunsInv serde base t calls) {i : Nat}
    (hi : calls i = none) (job : BackupJob) (config : RemoteConfig) :
    RunsInv serde base t (Function.update calls i (some (.start job config))) := by
  refine ⟨hs.base_le, ?_, ?_, ?_⟩
  · intro k c hk
    rcases update_some_cases hk with ⟨-, rfl⟩ | ⟨-, hk⟩
    · exact .start serde base t job config
    · exact hs.each k c hk
  · intro j k c d id hj hk hc hd
    rcases update_some_cases hj with ⟨-, rfl⟩ | ⟨-, hj⟩
    · cases hc
    · rcases update_some_cases hk with ⟨-, rfl⟩ | ⟨-, hk⟩
      · cases hd
      · exact hs.distinct j k c d id hj hk hc hd
  · intro id r hr hid
    refine (hs.rows id r hr hid).update (fun c ret hc => ?_) _
    rw [hi] at hc
    cases hc

/-- The rows after a step of call `i`. -/
theorem RunsInv.rows_step {serde : SerdeJson} {base : Int} {t t' : RunsTable}
    {calls : Nat → Option BackupCall} (hs : RunsInv serde base t calls) {i : Nat}
    {c c' : BackupCall} {ev : BackupEvent} (hi : calls i = some c)
    (h : c.step serde t ev = some (t', c')) {id : Int} {r : Run} (hr : t'.find id = some r)
    (hid : base ≤ id) : RowOk serde (Function.update calls i (some c')) r := by
  obtain hold | ⟨now, rfl⟩ | ⟨o, now, u, ret, ret', r₀, -, hpc, rfl, hr₀, rfl⟩ :=
    BackupCall.step_row h hr
  · refine (hs.rows id r hold hid).update (fun d ret hd => ?_) _
    rw [hi] at hd
    cases hd
    exact BackupCall.step_not_returned h ret
  · exact .ofOpen serde _ ⟨rfl, rfl, rfl, rfl, rfl⟩
  · obtain ⟨hrun, hu⟩ := (hs.each i c hi).update id u ret hpc
    refine .ofConsistent (i := i) (c := { c with pc := .returned ret' }) hu ?_ ?_ rfl
    · rw [Function.update_self]
    · rw [t.find_id hr₀]
      exact hrun

/-- **Every step of every call preserves the invariant.** -/
theorem RunsInv.step {serde : SerdeJson} {base : Int} {t t' : RunsTable}
    {calls : Nat → Option BackupCall} (hs : RunsInv serde base t calls) {i : Nat}
    {c c' : BackupCall} {ev : BackupEvent} (hi : calls i = some c)
    (h : c.step serde t ev = some (t', c')) :
    RunsInv serde base t' (Function.update calls i (some c')) := by
  have hc := hs.each i c hi
  -- the run id of the stepping call is new, or its own
  have huniq : ∀ {k d id}, k ≠ i → calls k = some d → d.runId = some id → c'.runId ≠ some id := by
    intro k d id hk hd hid hc'
    rcases BackupCall.step_runId h with hrun | hrun
    · exact hk (hs.distinct k i d c id hd hi hid (hrun ▸ hc'))
    · obtain ⟨-, r, hr, -⟩ := (hs.each k d hd).row id hid
      have := t.find_lt hr
      rw [hrun, Option.some.injEq] at hc'
      omega
  refine ⟨Int.le_trans hs.base_le (BackupCall.step_nextId h), ?_, ?_, ?_⟩
  · intro k d hk
    rcases update_some_cases hk with ⟨-, rfl⟩ | ⟨hne, hk⟩
    · exact hc.step hs.base_le h
    · refine (hs.each k d hk).frame h fun id u ret hpc hid => ?_
      exact hne (hs.distinct k i d c id hk hi hid (hc.update id u ret hpc).1)
  · intro j k d e id hj hk hd he
    rcases update_some_cases hj with ⟨rfl, rfl⟩ | ⟨hjne, hj'⟩ <;>
      rcases update_some_cases hk with ⟨rfl, rfl⟩ | ⟨hkne, hk'⟩
    · rfl
    · exact absurd hd (huniq hkne hk' he)
    · exact absurd he (huniq hjne hj' hd)
    · exact hs.distinct j k d e id hj' hk' hd he
  · intro id r hr hid
    exact hs.rows_step hi h hr hid

/-! ## The history of the records -/

/-- The table and the calls at work on it. -/
abbrev Calls := Interleaving RunsTable BackupCall

/-- Calls of `execute_backup` with the given arguments, none of which has done anything yet. -/
def Calls.init (t : RunsTable) (args : List (BackupJob × RemoteConfig)) : Calls :=
  ⟨t, args.map fun a => .start a.1 a.2⟩

/-- Call `i` takes a step. -/
def Calls.step (serde : SerdeJson) (s : Calls) (a : Nat × BackupEvent) : Option Calls :=
  Interleaving.step (fun t c => c.step serde t) s a

/-- The invariant of the calls of a list. -/
def Calls.Inv (serde : SerdeJson) (base : Int) (s : Calls) : Prop :=
  RunsInv serde base s.shared fun i => s.parts[i]?

theorem Calls.Inv.init (serde : SerdeJson) (t : RunsTable)
    (args : List (BackupJob × RemoteConfig)) : Calls.Inv serde t.nextId (.init t args) := by
  refine RunsInv.init serde t _ fun i c hc => ?_
  obtain ⟨a, -, rfl⟩ := List.mem_map.1 (List.mem_of_getElem? hc)
  exact ⟨a.1, a.2, rfl⟩

theorem Calls.Inv.step {serde : SerdeJson} {base : Int} {s s' : Calls} {a : Nat × BackupEvent}
    (hs : Calls.Inv serde base s) (h : Calls.step serde s a = some s') :
    Calls.Inv serde base s' := by
  obtain ⟨c, t', c', hi, hstep, rfl⟩ := Interleaving.step_eq h
  have := RunsInv.step hs hi hstep
  rwa [← getElem?_set_update hi] at this

/-- The ids of the rows an action updates. -/
def updatedRows (s : Calls) (a : Nat × BackupEvent) : List Int :=
  match a.2, (s.parts[a.1]?).map BackupCall.pc with
  | .updateRun o _, some (.update runId _ _) => if o.applied then [runId] else []
  | _, _ => []

/-- An action that updates a row does so while the row is open, and closes it. -/
theorem updatedRows_spec {serde : SerdeJson} {base : Int} {s s' : Calls} {a : Nat × BackupEvent}
    (hs : Calls.Inv serde base s) (h : Calls.step serde s a = some s') {id : Int}
    (hid : id ∈ updatedRows s a) : updatedRows s a = [id] ∧
      (∃ r, s.shared.find id = some r ∧ r.status = "running") ∧
      ∃ r, s'.shared.find id = some r ∧ r.status ≠ "running" := by
  obtain ⟨c, t', c', hi, hstep, rfl⟩ := Interleaving.step_eq h
  have hc := hs.each a.1 c hi
  simp only [updatedRows, hi, Option.map_some] at hid ⊢
  obtain ⟨o, now, hev, -, -, -⟩ | ⟨os, which, spawn, runId, hev, -, -, -⟩ |
    ⟨o, now, runId, u, ret, ret', hev, hpc, rfl, rfl⟩ := BackupCall.step_cases hstep
  · rw [hev] at hid; cases hid
  · rw [hev] at hid; cases hid
  · rw [hev, hpc] at hid ⊢
    simp only at hid ⊢
    split at hid
    · rename_i happ
      rw [List.mem_singleton] at hid
      subst hid
      obtain ⟨r, hr, hopen⟩ := hc.pending id (.inr ⟨u, ret, hpc⟩)
      refine ⟨by rw [if_pos happ], ⟨r, hr, hopen.1⟩, r.finish now u, ?_, ?_⟩
      · rw [if_pos happ, update_find_self hr]
      · rcases ((hc.update id u ret hpc).2.closed r now).1 with hst | hst <;> rw [hst] <;> decide
    · cases hid

/-- A row that has left `running` is never updated again, so it stays as it is. -/
theorem closed_step {serde : SerdeJson} {base : Int} {s s' : Calls} {a : Nat × BackupEvent}
    (hs : Calls.Inv serde base s) (h : Calls.step serde s a = some s') {id : Int} {r : Run}
    (hr : s.shared.find id = some r) (hst : r.status ≠ "running") :
    s'.shared.find id = some r ∧ id ∉ updatedRows s a := by
  obtain ⟨c, t', c', hi, hstep, rfl⟩ := Interleaving.step_eq h
  have hc := hs.each a.1 c hi
  refine ⟨BackupCall.step_find hstep hr fun u ret hpc => ?_, fun hid => ?_⟩
  · obtain ⟨r', hr', hopen⟩ := hc.pending id (.inr ⟨u, ret, hpc⟩)
    cases hr.symm.trans hr'
    exact hst hopen.1
  · obtain ⟨-, ⟨r', hr', hrun⟩, -⟩ := updatedRows_spec hs h hid
    cases hr.symm.trans hr'
    exact hst hrun

/-- What is known after some actions: the invariant, and that the rows updated so far are
    distinct and have left `running`. -/
structure RunsHistory (serde : SerdeJson) (base : Int) (log : List Int) (s : Calls) : Prop where
  inv : Calls.Inv serde base s
  nodup : log.Nodup
  left : ∀ id ∈ log, ∃ r, s.shared.find id = some r ∧ r.status ≠ "running"

theorem RunsHistory.step {serde : SerdeJson} {base : Int} {log : List Int} {s s' : Calls}
    {a : Nat × BackupEvent} (hs : RunsHistory serde base log s)
    (h : Calls.step serde s a = some s') :
    RunsHistory serde base (log ++ updatedRows s a) s' := by
  have keep : ∀ id ∈ log, (∃ r, s'.shared.find id = some r ∧ r.status ≠ "running") ∧
      id ∉ updatedRows s a := by
    intro id hid
    obtain ⟨r, hr, hst⟩ := hs.left id hid
    obtain ⟨hr', hnot⟩ := closed_step hs.inv h hr hst
    exact ⟨⟨r, hr', hst⟩, hnot⟩
  refine ⟨hs.inv.step h, ?_, ?_⟩
  · refine List.nodup_append.2 ⟨hs.nodup, ?_, fun id hid k hk e => (keep id hid).2 (e ▸ hk)⟩
    cases hu : updatedRows s a with
    | nil => exact List.nodup_nil
    | cons id rest =>
      have hid : id ∈ updatedRows s a := by rw [hu]; exact List.mem_cons_self
      have := (updatedRows_spec hs.inv h hid).1
      rw [← hu, this]
      exact List.nodup_singleton _
  · intro id hid
    rcases List.mem_append.1 hid with hid | hid
    · exact (keep id hid).1
    · exact (updatedRows_spec hs.inv h hid).2.2

theorem runsHistory_of_exec {serde : SerdeJson} {t : RunsTable}
    {args : List (BackupJob × RemoteConfig)} {as : List (Nat × BackupEvent)} {s : Calls}
    (h : exec (Calls.step serde) (.init t args) as = some s) :
    RunsHistory serde t.nextId (trace (Calls.step serde) updatedRows (.init t args) as) s := by
  refine exec_history (P := fun as s => RunsHistory serde t.nextId
    (trace (Calls.step serde) updatedRows (.init t args) as) s) ?_ ?_ h
  · exact ⟨.init serde t args, List.nodup_nil, fun _ h => by cases h⟩
  · intro as m a m' hm hP ha
    rw [trace_concat updatedRows hm ha]
    exact hP.step ha

/-- **The history of the run records**, over every interleaving of any number of calls of
    `execute_backup` and every outcome of restic and of the database: a record is updated at most
    once, and only while it is `running`; and the columns of every record created agree with its
    status and with the execution that created it. -/
theorem runs_invariant (serde : SerdeJson) (t : RunsTable) (args : List (BackupJob × RemoteConfig))
    (as : List (Nat × BackupEvent)) (s : Calls)
    (h : exec (Calls.step serde) (.init t args) as = some s) :
    (∀ r ∈ s.shared.rows, t.nextId ≤ r.id → RowOk serde (fun i => s.parts[i]?) r) ∧
    (trace (Calls.step serde) updatedRows (.init t args) as).Nodup ∧
    ∀ pre a post m, as = pre ++ a :: post → exec (Calls.step serde) (.init t args) pre = some m →
      ∀ id ∈ updatedRows m a, ∃ r, m.shared.find id = some r ∧ r.status = "running" := by
  have hs := runsHistory_of_exec h
  refine ⟨fun r hr hid => hs.inv.rows r.id r (s.shared.find_of_mem hr) hid, hs.nodup, ?_⟩
  rintro pre a post m rfl hpre id hid
  obtain ⟨m', hm', hrest⟩ := exec_append.1 h
  obtain ⟨m'', hstep, -⟩ := exec_cons.1 hrest
  cases hpre.symm.trans hm'
  exact (updatedRows_spec (runsHistory_of_exec hpre).inv hstep hid).2.1

/-- Two backups at once: the first succeeds, the answer to the second one's UPDATE is lost. -/
theorem runs_invariant_two_calls :
    let config := RemoteConfig.ofRepository "sftp:user@host:/path" "secret"
    let args := [(BackupJob.plain 1 "blade", config), (BackupJob.plain 2 "blade", config)]
    let which : Which := fun name => .ok ("/usr/bin/" ++ name)
    let as : List (Nat × BackupEvent) :=
      [(0, .createRun .done 0), (1, .createRun .done 1),
        (0, .runRestic .other which fun _ => .ok ⟨some 0, snapshotLine, ""⟩),
        (1, .runRestic .other which fun _ => .ok ⟨some 3, "", "Warning"⟩),
        (0, .updateRun .done 5), (1, .updateRun (.lost "connection closed") 6)]
    ∃ s, exec (Calls.step .ofSnapshotLine) (.init .empty args) as = some s ∧
      s.shared.rows.map Run.status = ["success", "failed"] ∧
      ∀ r ∈ s.shared.rows, RunsTable.empty.nextId ≤ r.id →
        RowOk .ofSnapshotLine (fun i => s.parts[i]?) r := by
  intro config args which as
  exact ⟨_, rfl, by decide, (runs_invariant .ofSnapshotLine .empty args as _ rfl).1⟩

end RBackup2

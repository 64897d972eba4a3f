import RBackup2.Scheduler.Shared

/-!
# Sleeping past the definition

A load keeps a stored `next_run_at` as it is, so a schedule may sleep past the next occurrence of
its own definition.  Whether it does depends on where the stored time came from: the client has
computed it from the definition the schedule had at the time, or somebody else has stored it.

* `SharedScheduler.history` — loads and checks, cut off anywhere, with the edits of others between
  any two of their steps.
* `ComputedFrom` — a time that is due by a definition, counted from an earlier reading.
* `Derived` — every stored time is one that somebody else has stored or such a time.
* `loaded_within_definition` — with one schedule to a job, a loaded schedule is due by its
  definition, unless its time was stored by others or computed from a definition that was edited
  since.
-/

set_option autoImplicit false

namespace RBackup2

open Transition

/-! ## Histories -/

inductive HistoryAction where
  /-- A step of a load or of a check. -/
  | scheduler (a : SchedulerAction)
  /-- Others leave these jobs and schedules. -/
  | edit (jobs : List BackupJob) (rows : List Schedule)
  /-- The process ends, wherever its tasks stand, and the next one starts. -/
  | restart

def SharedScheduler.history (cron : CronCrate) (deviceId : String) (s : SharedScheduler) :
    HistoryAction → Option SharedScheduler
  | .scheduler a => s.step cron deviceId a
  | .edit jobs rows => some { s with world := { s.world with jobs := jobs, rows := rows } }
  | .restart => some (.init ⟨s.world.jobs, s.world.rows, .empty⟩)

section Histories

variable (cron : CronCrate) (deviceId : String) (jobs : List BackupJob) (rows₀ : List Schedule)
  (as : List HistoryAction)

/-- The tables the client did not write: the first one, and those that others leave. -/
def TableOf (rows : List Schedule) : Prop := rows = rows₀ ∨ ∃ jobs, .edit jobs rows ∈ as

/-- The schedule has had the definition. -/
def Defined (d : Schedule) : Prop := ∃ rows, TableOf rows₀ as rows ∧ ∃ r ∈ rows, r.SameDefinition d

/-- One schedule to a job, in all these tables. -/
def OneToAJob : Prop :=
  ∀ rows rows', TableOf rows₀ as rows → TableOf rows₀ as rows' → ∀ r ∈ rows, ∀ r' ∈ rows',
    r.jobId = r'.jobId → r.id = r'.id

/-- The step computes the time, as the column keeps it: a check for a schedule in memory, a load for
    a row it has selected. -/
def Computes (s : SharedScheduler) (d : Schedule) (m : DateTime) : HistoryAction → Prop
  | .scheduler (.check t) => s.world.schedules.get d.id = some d ∧ ∃ next,
      calculateNextRun cron d (some (t.queue d.id).now) (t.queue d.id).now = .ok next ∧
        m = timestamptz next
  | .scheduler (.lock env) => (∃ rows, s.reloading = .selected rows ∧ d ∈ rows) ∧ ∃ next,
      calculateNextRun cron d d.lastRunAt (env.now d.id) = .ok next ∧ m = timestamptz next
  | _ => False

/-- **A step of the history has computed the time** for the schedule, by the definition it had. -/
def ComputedFrom (d : Schedule) (m : DateTime) : Prop :=
  Happened (SharedScheduler.history cron deviceId) (.init ⟨jobs, rows₀, .empty⟩)
    (fun _ s a => Computes cron s d m a) as

/-- The table has the time for the schedule. -/
def HasTime (rows : List Schedule) (id : Int) (m : DateTime) : Prop :=
  ∃ r ∈ rows, r.id = id ∧ r.nextRunAt = some m

/-- Others store the time, where there was another or none. -/
def Stores (s : SharedScheduler) (id : Int) (m : DateTime) : HistoryAction → Prop
  | .edit _ rows => HasTime rows id m ∧ ¬ HasTime s.world.rows id m
  | _ => False

/-- The time was there at the start, or others have stored it. -/
def StoredByOthers (id : Int) (m : DateTime) : Prop :=
  HasTime rows₀ id m ∨
    Happened (SharedScheduler.history cron deviceId) (.init ⟨jobs, rows₀, .empty⟩)
      (fun _ s a => Stores s id m a) as

end Histories

/-- The two run at the same times. -/
def Schedule.RunsLike (d s : Schedule) : Prop :=
  d.scheduleType = s.scheduleType ∧ d.cronExpression = s.cronExpression ∧
    d.intervalSeconds = s.intervalSeconds

instance (d s : Schedule) : Decidable (d.RunsLike s) := inferInstanceAs (Decidable (_ ∧ _ ∧ _))

/-- The reading is not after another, also as the column keeps it. -/
def NotAfter (reading now : DateTime) : Prop := reading ≤ now ∧ timestamptz reading ≤ now

instance (reading now : DateTime) : Decidable (NotAfter reading now) :=
  inferInstanceAs (Decidable (_ ∧ _))

/-- The readings of the step are not after `now`, and a load finds no last run in its future. -/
def Punctual (now : DateTime) (s : SharedScheduler) : HistoryAction → Prop
  | .scheduler (.lock env) => (∀ id, NotAfter (env.now id) now) ∧
      ∀ rows, s.reloading = .selected rows → ∀ r ∈ rows, r.isInterval = true →
        ∀ l, r.lastRunAt = some l → l ≤ env.now r.id
  | .scheduler (.check t) => ∀ id, NotAfter (t.queue id).now now
  | _ => True

/-- A later call yields no earlier time. -/
def CronCrate.Monotone (cron : CronCrate) : Prop :=
  ∀ p now now' t t', now ≤ now' → cron.next p now = some t → cron.next p now' = some t' → t ≤ t'

/-! ## What has been computed is due -/

/-- From 2000 on the column rounds down; before that it rounds whole seconds later alike. -/
theorem timestamptz_add_le {reading now : DateTime} (h : NotAfter reading now) {n : Int}
    (hn : 0 < n) : timestamptz (reading + seconds n) ≤ now + seconds n := by
  obtain ⟨hle, hcol⟩ := h
  have hseconds : seconds n = 1000 * (1000000 * n) := by
    unfold seconds
    lia
  by_cases hepoch : pgEpoch ≤ reading + seconds n
  · rw [timestamptz, Int.tdiv_eq_ediv_of_nonneg (by lia)]
    lia
  · have hneg : ∀ x : DateTime, x < pgEpoch →
        (x - pgEpoch).tdiv 1000 = -((pgEpoch - x) / 1000) := by
      intro x hx
      rw [← Int.neg_sub pgEpoch x, Int.neg_tdiv, Int.tdiv_eq_ediv_of_nonneg (by lia)]
    rw [timestamptz, hneg _ (by lia)]
    rw [timestamptz, hneg _ (by lia)] at hcol
    lia

/-- The next occurrence counted from a reading, as the column keeps it, is within the one counted
    from a later reading. -/
theorem calculateNextRun_later {cron : CronCrate} (hwhole : cron.WholeSeconds)
    (hmono : cron.Monotone) {now reading : DateTime} (hbefore : NotAfter reading now)
    {d : Schedule} {t₀ t : DateTime}
    (ht₀ : calculateNextRun cron d (some reading) reading = .ok t₀)
    (ht : calculateNextRun cron d (some now) now = .ok t) : timestamptz t₀ ≤ t := by
  rcases calculateNextRun_ok ht with ⟨hc, e, p, he, hp, hnext⟩ | ⟨hi, n, hn, hpos, rfl⟩
  · rcases calculateNextRun_ok ht₀ with ⟨-, e', p', he', hp', hnext'⟩ | ⟨hi, -⟩
    · cases he.symm.trans he'
      cases hp.symm.trans hp'
      obtain ⟨k, rfl⟩ := hwhole p reading t₀ hnext'
      rw [timestamptz_eq_self (by simp only [WholeMicros, seconds]; lia)]
      exact hmono p reading now _ t hbefore.1 hnext' hnext
    · rw [Schedule.not_isCron_of_isInterval hi] at hc
      cases hc
  · obtain ⟨-, rfl⟩ := calculateNextRun_interval hi hn ht₀
    exact timestamptz_add_le hbefore hpos

theorem calculateNextRun_runsLike {d s : Schedule} (h : d.RunsLike s) (cron : CronCrate)
    (last : Option DateTime) (now : DateTime) :
    calculateNextRun cron s last now = calculateNextRun cron d last now := by
  obtain ⟨htype, hcron, hinterval⟩ := h
  simp only [calculateNextRun, calculateNextCronRun, calculateNextIntervalRun, Schedule.isCron,
    Schedule.isInterval, htype, hcron, hinterval]

/-- **A time the client has computed** is within the next occurrence of the definition it was
    computed from, counted from any later reading. -/
theorem Computes.le {cron : CronCrate} (hwhole : cron.WholeSeconds) (hmono : cron.Monotone)
    {now : DateTime} {s : SharedScheduler} {d : Schedule} {m t : DateTime} {a : HistoryAction}
    (h : Computes cron s d m a) (hg : Punctual now s a)
    (ht : calculateNextRun cron d (some now) now = .ok t) : m ≤ t := by
  cases a with
  | edit | restart => cases h
  | scheduler a =>
    cases a with
    | select | reloadEffect | unlock | effect => cases h
    | check tick =>
      obtain ⟨-, next, hnext, rfl⟩ := h
      exact calculateNextRun_later hwhole hmono (hg d.id) hnext ht
    | lock env =>
      obtain ⟨⟨rows, hrows, hd⟩, next, hnext, rfl⟩ := h
      -- counted from the last run it is no later than counted from the reading
      obtain ⟨t₀, ht₀⟩ := exists_calculateNextRun_some hnext
      obtain ⟨next', hnext', hle⟩ := calculateNextRun_last ht₀
      cases hnext.symm.trans hnext'
      exact Int.le_trans (timestamptz_mono (hle.2 (hg.2 rows hrows d hd)))
        (calculateNextRun_later hwhole hmono (hg.1 d.id) ht₀ ht)

/-! ## Where the stored times come from -/

section Derived

variable (cron : CronCrate) (deviceId : String) (jobs : List BackupJob) (rows₀ : List Schedule)
  (as : List HistoryAction)

/-- The time was stored by others, or computed for the schedule. -/
def Origin (id : Int) (m : DateTime) : Prop :=
  StoredByOthers cron deviceId jobs rows₀ as id m ∨
    ∃ d, Defined rows₀ as d ∧ d.id = id ∧ ComputedFrom cron deviceId jobs rows₀ as d m

/-- What the effect puts into the table or into memory has an origin. -/
def Effect.Derived : Effect → Prop
  | .updateRows jobId _ (some next) => ∃ d, Defined rows₀ as d ∧ d.jobId = jobId ∧
      ComputedFrom cron deviceId jobs rows₀ as d (timestamptz next)
  | .insert s => Defined rows₀ as s
  | _ => True

/-- **Every stored time has an origin**, and so has everything that is still to be stored. -/
structure Derived (s : SharedScheduler) : Prop where
  ids : (s.world.rows.map Schedule.id).Nodup
  rows : ∀ r ∈ s.world.rows, Defined rows₀ as r ∧
    ∀ m, r.nextRunAt = some m → Origin cron deviceId jobs rows₀ as r.id m
  selected : ∀ rows, s.reloading = .selected rows → ∀ r ∈ rows, Defined rows₀ as r
  locked : ∀ es, s.reloading = .locked es → ∀ e ∈ es, e.Derived cron deviceId jobs rows₀ as
  memory : ∀ id u, s.world.schedules.get id = some u → Defined rows₀ as u
  pending : ∀ e ∈ s.pending, e.Derived cron deviceId jobs rows₀ as

variable {cron deviceId jobs rows₀ as}

theorem TableOf.concat {rows : List Schedule} (h : TableOf rows₀ as rows)
    (bs : List HistoryAction) : TableOf rows₀ (as ++ bs) rows := by
  rcases h with h | ⟨jobs, hmem⟩
  · exact .inl h
  · exact .inr ⟨jobs, List.mem_append_left bs hmem⟩

theorem Defined.concat {d : Schedule} (h : Defined rows₀ as d) (bs : List HistoryAction) :
    Defined rows₀ (as ++ bs) d := by
  obtain ⟨rows, ht, hr⟩ := h
  exact ⟨rows, ht.concat bs, hr⟩

theorem Defined.congr {d d' : Schedule} (hd : Defined rows₀ as d) (h : d.SameDefinition d') :
    Defined rows₀ as d' := by
  obtain ⟨rows, ht, r, hr, hdef⟩ := hd
  exact ⟨rows, ht, r, hr, hdef.trans h⟩

/-- Schedules of one job are one schedule. -/
theorem Defined.id_eq {d d' : Schedule} (hone : OneToAJob rows₀ as) (hd : Defined rows₀ as d)
    (hd' : Defined rows₀ as d') (hjob : d.jobId = d'.jobId) : d.id = d'.id := by
  obtain ⟨rows, ht, r, hr, hdef⟩ := hd
  obtain ⟨rows', ht', r', hr', hdef'⟩ := hd'
  rw [hdef.id, hdef'.id]
  refine hone rows rows' ht ht' r hr r' hr' ?_
  rw [← hdef.jobId, ← hdef'.jobId]
  exact hjob

theorem Origin.concat {id : Int} {m : DateTime} (h : Origin cron deviceId jobs rows₀ as id m)
    (bs : List HistoryAction) : Origin cron deviceId jobs rows₀ (as ++ bs) id m := by
  rcases h with (hfirst | hedit) | ⟨d, hd, hid, hcomp⟩
  · exact .inl (.inl hfirst)
  · exact .inl (.inr (hedit.append bs))
  · exact .inr ⟨d, hd.concat bs, hid, hcomp.append bs⟩

theorem Effect.Derived.concat {e : Effect} (h : e.Derived cron deviceId jobs rows₀ as)
    (bs : List HistoryAction) : e.Derived cron deviceId jobs rows₀ (as ++ bs) := by
  cases e with
  | updateRows jobId last next =>
    cases next with
    | none => trivial
    | some next =>
      obtain ⟨d, hd, hjob, hcomp⟩ := h
      exact ⟨d, hd.concat bs, hjob, hcomp.append bs⟩
  | insert s => exact Defined.concat h bs
  | send | advance | clear => trivial

theorem Derived.concat {s : SharedScheduler} (hs : Derived cron deviceId jobs rows₀ as s)
    (bs : List HistoryAction) : Derived cron deviceId jobs rows₀ (as ++ bs) s where
  ids := hs.ids
  rows r hr := ⟨(hs.rows r hr).1.concat bs, fun m hm => ((hs.rows r hr).2 m hm).concat bs⟩
  selected rows hrows r hr := (hs.selected rows hrows r hr).concat bs
  locked es hes e he := (hs.locked es hes e he).concat bs
  memory id u hu := (hs.memory id u hu).concat bs
  pending e he := (hs.pending e he).concat bs

theorem Derived.init (hadm : SchedulesAdmitted rows₀) :
    Derived cron deviceId jobs rows₀ [] (.init ⟨jobs, rows₀, .empty⟩) where
  ids := hadm.ids_nodup
  rows r hr :=
    ⟨⟨rows₀, .inl rfl, r, hr, .refl r⟩, fun m hm => .inl (.inl ⟨r, hr, rfl, hm⟩)⟩
  selected rows h := (by cases h)
  locked es h := (by cases h)
  memory id u hu := by
    change ScheduleMap.empty.get id = some u at hu
    rw [ScheduleMap.get_empty] at hu
    cases hu
  pending e he := (by cases he)

/-! ### What a step preserves -/

/-- What a load writes, it has computed for a row it has selected. -/
theorem reloadLoop_derived {env : ReloadEnv} {rows : List Schedule}
    (hdef : ∀ r ∈ rows, Defined rows₀ as r)
    (hcomp : ∀ d ∈ rows, ∀ next, calculateNextRun cron d d.lastRunAt (env.now d.id) = .ok next →
      ComputedFrom cron deviceId jobs rows₀ as d (timestamptz next)) :
    ∀ e ∈ (reloadLoop cron env rows).1, e.Derived cron deviceId jobs rows₀ as := by
  intro e he
  obtain ⟨row, -, hrow, he⟩ := mem_reloadLoop he
  rcases mem_loadEffects he with rfl | ⟨hnone, rfl⟩
  · exact (hdef row hrow).congr (row.loaded_sameDefinition cron env)
  · unfold Schedule.loaded
    rw [hnone]
    cases hcalc : calculateNextRun cron row row.lastRunAt (env.now row.id) with
    | error err =>
      simp only [hnone]
      trivial
    | ok next => exact ⟨row, hdef row hrow, rfl, hcomp row hrow next hcalc⟩

/-- What a check writes, it has computed for a schedule in memory. -/
theorem checkSchedules_derived {v : World} {t : Tick} (hp : t.order.Perm v.schedules.ids)
    (hdef : ∀ id u, v.schedules.get id = some u → Defined rows₀ as u)
    (hcomp : ∀ d, v.schedules.get d.id = some d → ∀ next,
      calculateNextRun cron d (some (t.queue d.id).now) (t.queue d.id).now = .ok next →
        ComputedFrom cron deviceId jobs rows₀ as d (timestamptz next)) :
    ∀ e ∈ checkSchedules cron v t, e.Derived cron deviceId jobs rows₀ as := by
  intro e he
  obtain ⟨u, hu, -, he⟩ := mem_checkLoop.1 he
  have hget := (World.mem_snapshot hp).1 hu
  rcases queueJob_effects he with rfl | ⟨next, hnext, rfl | rfl⟩
  · trivial
  · exact ⟨u, hdef u.id u hget, rfl, hcomp u hget next hnext⟩
  · trivial

/-- An effect with an origin leaves rows and schedules with one. -/
theorem Derived.apply {v : World} {e : Effect} (hone : OneToAJob rows₀ as)
    (he : e.Derived cron deviceId jobs rows₀ as) (hids : (v.rows.map Schedule.id).Nodup)
    (hrows : ∀ r ∈ v.rows, Defined rows₀ as r ∧
      ∀ m, r.nextRunAt = some m → Origin cron deviceId jobs rows₀ as r.id m)
    (hmem : ∀ id u, v.schedules.get id = some u → Defined rows₀ as u) :
    ((v.apply e).rows.map Schedule.id).Nodup ∧
      (∀ r ∈ (v.apply e).rows, Defined rows₀ as r ∧
        ∀ m, r.nextRunAt = some m → Origin cron deviceId jobs rows₀ as r.id m) ∧
      ∀ id u, (v.apply e).schedules.get id = some u → Defined rows₀ as u := by
  cases e with
  | send => exact ⟨hids, hrows, hmem⟩
  | clear =>
    refine ⟨hids, hrows, fun id u hu => ?_⟩
    change ScheduleMap.empty.get id = some u at hu
    rw [ScheduleMap.get_empty] at hu
    cases hu
  | insert s =>
    refine ⟨hids, hrows, fun id u hu => ?_⟩
    rcases ScheduleMap.get_insert_cases hu with rfl | hu
    · exact he
    · exact hmem id u hu
  | advance k last next =>
    refine ⟨hids, hrows, fun id u hu => ?_⟩
    change (v.schedules.advance k last next).get id = some u at hu
    rw [ScheduleMap.get_advance] at hu
    split at hu
    · obtain ⟨x, hx, rfl⟩ := Option.map_eq_some_iff.1 hu
      exact (hmem k x hx).congr (.setTimes x _ _)
    · exact hmem id u hu
  | updateRows jobId last next =>
    refine ⟨?_, fun r hr => ?_, hmem⟩
    · have hkeys := congrArg (List.map Prod.fst) (updateScheduleLastRun_keys jobId last next v.rows)
      rw [List.map_map, List.map_map] at hkeys
      exact hkeys ▸ hids
    · obtain ⟨x, hx, rfl⟩ := List.mem_map.1 hr
      obtain ⟨hdef, horigin⟩ := hrows x hx
      by_cases hjob : x.jobId = jobId
      · rw [if_pos hjob]
        refine ⟨hdef.congr (.setTimes x _ _), fun m hm => .inr ?_⟩
        cases next with
        | none => cases hm
        | some next =>
          cases hm
          obtain ⟨d, hd, hdjob, hcomp⟩ := he
          have hid : d.id = x.id := hd.id_eq hone hdef (hdjob.trans hjob.symm)
          exact ⟨d, hd, hid, hcomp⟩
      · rw [if_neg hjob]
        exact ⟨hdef, horigin⟩

theorem Derived.step {s s' : SharedScheduler} {a : SchedulerAction} (hone : OneToAJob rows₀ as)
    (hs : Derived cron deviceId jobs rows₀ as s)
    (hcomp : ∀ d m, Computes cron s d m (.scheduler a) →
      ComputedFrom cron deviceId jobs rows₀ as d m)
    (h : s.step cron deviceId a = some s') : Derived cron deviceId jobs rows₀ as s' := by
  obtain ⟨-, -, rfl⟩ | ⟨env, rows, rfl, hr, rfl⟩ | ⟨e, rest, -, hr, rfl⟩ | ⟨-, -, rfl⟩ |
    ⟨t, rfl, -, -, hp, rfl⟩ | ⟨e, rest, -, hp, -, rfl⟩ := SharedScheduler.step_cases h
  · refine ⟨hs.ids, hs.rows, ?_, fun es h => (by cases h), hs.memory, hs.pending⟩
    intro rows hrows r hr
    cases hrows
    exact (hs.rows r (List.mem_filter.1 hr).1).1
  · refine ⟨hs.ids, hs.rows, fun rows h => (by cases h), ?_, hs.memory, hs.pending⟩
    intro es hes e he
    cases hes
    rcases List.mem_cons.1 he with rfl | he
    · trivial
    · exact reloadLoop_derived (hs.selected rows hr) (fun d hd next hnext =>
        hcomp d _ ⟨⟨rows, hr, hd⟩, next, hnext, rfl⟩) e he
  · obtain ⟨he, hrest⟩ := List.forall_mem_cons.1 (hs.locked _ hr)
    obtain ⟨hids, hrows, hmem⟩ := Derived.apply hone he hs.ids hs.rows hs.memory
    refine ⟨hids, hrows, fun rows h => (by cases h), ?_, hmem, hs.pending⟩
    intro es hes
    cases hes
    exact hrest
  · exact ⟨hs.ids, hs.rows, fun rows h => (by cases h), fun es h => (by cases h), hs.memory,
      hs.pending⟩
  · exact ⟨hs.ids, hs.rows, hs.selected, hs.locked, hs.memory,
      checkSchedules_derived hp hs.memory fun d hd next hnext =>
        hcomp d _ ⟨hd, next, hnext, rfl⟩⟩
  · have hpending := hs.pending
    rw [hp] at hpending
    obtain ⟨he, hrest⟩ := List.forall_mem_cons.1 hpending
    obtain ⟨hids, hrows, hmem⟩ := Derived.apply hone he hs.ids hs.rows hs.memory
    exact ⟨hids, hrows, hs.selected, hs.locked, hmem, hrest⟩

/-- **What a step of a history preserves.** -/
theorem Derived.history {s s' : SharedScheduler} {a : HistoryAction}
    (hs : Derived cron deviceId jobs rows₀ as s)
    (hrun : exec (SharedScheduler.history cron deviceId) (.init ⟨jobs, rows₀, .empty⟩) as = some s)
    (hadm : ∀ rows, TableOf rows₀ (as ++ [a]) rows → SchedulesAdmitted rows)
    (hone : OneToAJob rows₀ (as ++ [a])) (h : s.history cron deviceId a = some s') :
    Derived cron deviceId jobs rows₀ (as ++ [a]) s' := by
  have hs' := hs.concat [a]
  cases a with
  | scheduler a => exact hs'.step hone (fun d m hm => .now hrun hm) h
  | edit jobs' rows =>
    cases h
    have htable : TableOf rows₀ (as ++ [.edit jobs' rows]) rows := .inr ⟨jobs', by simp⟩
    refine ⟨(hadm rows htable).ids_nodup, fun r hr => ?_, hs'.selected, hs'.locked, hs'.memory,
      hs'.pending⟩
    refine ⟨⟨rows, htable, r, hr, .refl r⟩, fun m hm => ?_⟩
    by_cases hthere : HasTime s.world.rows r.id m
    · -- the time was there before the edit
      obtain ⟨x, hx, hid, hxm⟩ := hthere
      exact hid ▸ (hs'.rows x hx).2 m hxm
    · exact .inl (.inr (.now hrun ⟨⟨r, hr, rfl, hm⟩, hthere⟩))
  | restart =>
    cases h
    refine ⟨hs'.ids, hs'.rows, fun rows h => (by cases h), fun es h => (by cases h), ?_,
      fun e he => (by cases he)⟩
    intro id u hu
    change ScheduleMap.empty.get id = some u at hu
    rw [ScheduleMap.get_empty] at hu
    cases hu

/-- **Every stored time has an origin**, in every state of every history. -/
theorem derived_of_exec {s : SharedScheduler}
    (hadm : ∀ rows, TableOf rows₀ as rows → SchedulesAdmitted rows) (hone : OneToAJob rows₀ as)
    (h : exec (SharedScheduler.history cron deviceId) (.init ⟨jobs, rows₀, .empty⟩) as = some s) :
    Derived cron deviceId jobs rows₀ as s := by
  refine exec_history (P := fun as s => (∀ rows, TableOf rows₀ as rows → SchedulesAdmitted rows) →
    OneToAJob rows₀ as → Derived cron deviceId jobs rows₀ as s) ?_ ?_ h hadm hone
  · intro hadm _
    exact .init (hadm rows₀ (.inl rfl))
  · intro as m a m' hm ih hstep hadm hone
    refine Derived.history ?_ hm hadm hone hstep
    exact ih (fun rows ht => hadm rows (ht.concat [a])) fun rows rows' ht ht' =>
      hone rows rows' (ht.concat [a]) (ht'.concat [a])

end Derived

/-! ## What a load finds -/

theorem CronCrate.everyMinute_monotone : CronCrate.everyMinute.Monotone := by
  intro p now now' t t' hle h h'
  cases h
  cases h'
  simp only [seconds] at *
  lia

end RBackup2

import RBackup2.Scheduler.LastRun

/-!
# Advances and a concurrent load

One load and one check on the same scheduler.  Both read the database before they write the map:
a load that has read the row of a schedule before `queue_job` updates it, and takes the lock after
`queue_job` has written the map, puts the old time back into memory.

* `ReadsAdvance` — the condition on a step: a load that takes the lock after the in-memory write
  for a schedule has read the time which that write has computed.
* `AdvanceKept` — what then holds after each step of the two calls.
* `advance_survives_reload` — once both calls are done, every loaded schedule that was enqueued has
  the time that `queue_job` computed for it, and does not fire before it.
-/

set_option autoImplicit false

namespace RBackup2

open Transition

/-- The step by which a load enters its locked section. -/
def SchedulerAction.isLock : SchedulerAction → Bool
  | .lock _ => true
  | _ => false

def SchedulerAction.isCheck : SchedulerAction → Bool
  | .check _ => true
  | _ => false

/-- No two schedules in memory are of one job. -/
def World.OneSchedulePerJob (w : World) : Prop :=
  ∀ id id' u u', w.schedules.get id = some u → w.schedules.get id' = some u' →
    u.jobId = u'.jobId → id = id'

/-- **The condition on a step**: where the lock is taken after the in-memory write for a schedule
    that is about to be loaded, the row that was selected for it still has the time that is in the
    table, the UPDATE that came with the write was for its job, and the time is one the column can
    hold. -/
def ReadsAdvance (cron : CronCrate) (s : SharedScheduler) : SchedulerAction → Prop
  | .lock env => ∀ rows, s.reloading = .selected rows → ∀ row ∈ rowsBeforeFault cron env rows,
      ∀ last next, .advance row.id last next ∈ s.past →
        (∃ r ∈ s.world.rows, r.id = row.id ∧ r.jobId = row.jobId ∧ r.nextRunAt = row.nextRunAt) ∧
        .updateRows row.jobId last (some next) ∈ s.past ∧ WholeMicros next
  | _ => True

/-! ## The effects of one check -/

/-- The effects write one next time for each schedule. -/
def AdvanceOnce (es : List Effect) : Prop :=
  ∀ id last next last' next', .advance id last next ∈ es → .advance id last' next' ∈ es →
    next = next'

/-- The effects write one next time for the schedules of each job. -/
def UpdateOnce (es : List Effect) : Prop :=
  ∀ jobId last next last' next', .updateRows jobId last next ∈ es →
    .updateRows jobId last' next' ∈ es → next = next'

theorem advanceOnce_checkSchedules (cron : CronCrate) {w : World} {t : Tick}
    (hp : t.order.Perm w.schedules.ids) : AdvanceOnce (checkSchedules cron w t) := by
  intro id last next last' next' he he'
  obtain ⟨u, hu, -, he⟩ := mem_checkLoop.1 he
  obtain ⟨u', hu', -, he'⟩ := mem_checkLoop.1 he'
  rcases queueJob_effects he with he | ⟨n, hn, he | he⟩
  · cases he
  · cases he
  · rcases queueJob_effects he' with he' | ⟨n', hn', he' | he'⟩
    · cases he'
    · cases he'
    · -- two schedules of one id are the same schedule
      have hget := (World.mem_snapshot hp).1 hu
      have hget' := (World.mem_snapshot hp).1 hu'
      obtain ⟨hid, -, rfl⟩ := Effect.advance.inj he
      obtain ⟨hid', -, rfl⟩ := Effect.advance.inj he'
      rw [← hid'.symm.trans hid, hget'] at hget
      cases hget
      exact Except.ok.inj (hn.symm.trans hn')

theorem updateOnce_checkSchedules (cron : CronCrate) {w : World} (hjob : w.OneSchedulePerJob)
    {t : Tick} (hp : t.order.Perm w.schedules.ids) : UpdateOnce (checkSchedules cron w t) := by
  intro jobId last next last' next' he he'
  obtain ⟨u, hu, -, he⟩ := mem_checkLoop.1 he
  obtain ⟨u', hu', -, he'⟩ := mem_checkLoop.1 he'
  rcases queueJob_effects he with he | ⟨n, hn, he | he⟩
  · cases he
  · rcases queueJob_effects he' with he' | ⟨n', hn', he' | he'⟩
    · cases he'
    · have hget := (World.mem_snapshot hp).1 hu
      have hget' := (World.mem_snapshot hp).1 hu'
      obtain ⟨hj, -, rfl⟩ := Effect.updateRows.inj he
      obtain ⟨hj', -, rfl⟩ := Effect.updateRows.inj he'
      have hid := hjob _ _ u u' hget hget' (hj.symm.trans hj')
      rw [hid, hget'] at hget
      cases hget
      cases hn.symm.trans hn'
      rfl
    · cases he'
  · cases he

/-- No check has begun, or the effects done and to come are those of the one that has. -/
def CheckedOnce (cron : CronCrate) (deviceId : String) (w : World) (as : List SchedulerAction)
    (s : SharedScheduler) : Prop :=
  (as.countP SchedulerAction.isCheck = 0 ∧ s.past = [] ∧ s.pending = []) ∨
  ∃ pre t post m, as = pre ++ .check t :: post ∧
    exec (SharedScheduler.step cron deviceId) (.init w) pre = some m ∧
    t.order.Perm m.world.schedules.ids ∧ s.past ++ s.pending = checkSchedules cron m.world t

section CheckedOnce

variable {cron : CronCrate} {deviceId : String} {w : World} {as : List SchedulerAction}
  {s : SharedScheduler}

theorem CheckedOnce.past_eq (h : CheckedOnce cron deviceId w as s)
    (hzero : as.countP SchedulerAction.isCheck = 0) : s.past = [] := by
  rcases h with ⟨-, hpast, -⟩ | ⟨pre, t, post, m, rfl, -⟩
  · exact hpast
  · simp [SchedulerAction.isCheck] at hzero

theorem CheckedOnce.advanceOnce (h : CheckedOnce cron deviceId w as s) :
    AdvanceOnce (s.past ++ s.pending) := by
  rcases h with ⟨-, hpast, hpending⟩ | ⟨pre, t, post, m, -, -, hp, heq⟩
  · rw [hpast, hpending]
    exact fun _ _ _ _ _ h => (by cases h)
  · rw [heq]
    exact advanceOnce_checkSchedules cron hp

/-- A check sends, updates the table and writes the map. -/
theorem CheckedOnce.effect_cases (h : CheckedOnce cron deviceId w as s) {e : Effect}
    (he : e ∈ s.pending) : as.countP SchedulerAction.isCheck ≠ 0 ∧
      ((∃ q, e = .send q) ∨ (∃ jobId last next, e = .updateRows jobId last next) ∨
        ∃ id last next, e = .advance id last next) := by
  rcases h with ⟨-, -, hpending⟩ | ⟨pre, t, post, m, rfl, -, -, heq⟩
  · rw [hpending] at he
    cases he
  · refine ⟨by simp [SchedulerAction.isCheck], ?_⟩
    have hmem : e ∈ checkSchedules cron m.world t := by
      rw [← heq]
      exact List.mem_append_right _ he
    obtain ⟨u, -, -, hu⟩ := mem_checkLoop.1 hmem
    rcases queueJob_effects hu with rfl | ⟨next, -, rfl | rfl⟩
    · exact .inl ⟨_, rfl⟩
    · exact .inr (.inl ⟨_, _, _, rfl⟩)
    · exact .inr (.inr ⟨_, _, _, rfl⟩)

end CheckedOnce

/-- A step that begins no check moves effects from those to come to those done. -/
theorem SharedScheduler.effects_step {cron : CronCrate} {deviceId : String}
    {s s' : SharedScheduler} {a : SchedulerAction} (h : s.step cron deviceId a = some s')
    (ha : a.isCheck = false) : s'.past ++ s'.pending = s.past ++ s.pending := by
  obtain ⟨-, -, rfl⟩ | ⟨env, rows, -, -, rfl⟩ | ⟨e, rest, -, -, rfl⟩ | ⟨-, -, rfl⟩ |
    ⟨t, rfl, -⟩ | ⟨e, rest, -, hp, -, rfl⟩ := SharedScheduler.step_cases h
  · rfl
  · rfl
  · rfl
  · rfl
  · cases ha
  · show (s.past ++ [e]) ++ rest = s.past ++ s.pending
    rw [hp, List.append_assoc, List.singleton_append]

theorem checkedOnce_of_exec {cron : CronCrate} {deviceId : String} {w : World}
    {as : List SchedulerAction} {s : SharedScheduler}
    (h : exec (SharedScheduler.step cron deviceId) (.init w) as = some s)
    (hone : as.countP SchedulerAction.isCheck ≤ 1) : CheckedOnce cron deviceId w as s := by
  refine exec_history (P := fun as s => as.countP SchedulerAction.isCheck ≤ 1 →
    CheckedOnce cron deviceId w as s) (fun _ => .inl ⟨rfl, rfl, rfl⟩) ?_ h hone
  intro as m a m' hm ih hstep hone
  rw [List.countP_append, List.countP_singleton] at hone
  cases ha : a.isCheck with
  | true =>
    rw [ha, if_pos rfl] at hone
    obtain ⟨t, rfl⟩ : ∃ t, a = .check t := by
      cases a with
      | check t => exact ⟨t, rfl⟩
      | select | lock | reloadEffect | unlock | effect => cases ha
    rcases ih (by omega) with ⟨-, hpast, -⟩ | ⟨pre, t', post, m₀, rfl, -⟩
    · obtain ⟨-, hp, rfl⟩ := SharedScheduler.check_eq hstep
      refine .inr ⟨as, t, [], m, rfl, hm, hp, ?_⟩
      show m.past ++ checkSchedules cron m.world t = _
      rw [hpast, List.nil_append]
    · simp [SchedulerAction.isCheck] at hone
  | false =>
    have heffects := SharedScheduler.effects_step hstep ha
    rcases ih (by omega) with ⟨hzero, hpast, hpending⟩ | ⟨pre, t, post, m₀, rfl, hm₀, hp, heq⟩
    · left
      rw [hpast, hpending, List.append_nil, List.append_eq_nil_iff] at heffects
      refine ⟨?_, heffects⟩
      rw [List.countP_append, List.countP_singleton, ha]
      simpa using hzero
    · exact .inr ⟨pre, t, post ++ [a], m₀, by simp, hm₀, hp, heffects.trans heq⟩

/-! ## The invariant -/

/-- An effect of a load leaves no schedule in memory behind the writes that were made for it. -/
def Effect.KeepsAdvances (past : List Effect) : Effect → Prop
  | .insert x => ∀ last next, .advance x.id last next ∈ past → x.nextRunAt = some next
  | .advance _ _ _ => False
  | _ => True

theorem Effect.KeepsAdvances.anti {past past' : List Effect} {e : Effect}
    (he : e.KeepsAdvances past)
    (h : ∀ id last next, .advance id last next ∈ past' → .advance id last next ∈ past) :
    e.KeepsAdvances past' := by
  cases e with
  | insert x => exact fun last next hx => he last next (h x.id last next hx)
  | advance => exact he.elim
  | send | updateRows | clear => trivial

/-- **An in-memory write is kept**, wherever the load is that goes on meanwhile; `locks` and
    `checks` count the loads and the checks so far. -/
structure AdvanceKept (w : World) (locks checks : Nat) (s : SharedScheduler) : Prop where
  unlocked : locks = 0 → s.reloading.free = true
  loaded : locks = 0 → checks = 0 → s.world.schedules = w.schedules
  updates : locks = 0 → UpdateOnce (s.past ++ s.pending)
  /-- Before the load writes anything, the table has the times of the UPDATEs. -/
  rows : locks = 0 → ∀ jobId last next, .updateRows jobId last next ∈ s.past →
    ∀ r ∈ s.world.rows, r.jobId = jobId → r.nextRunAt = next.map timestamptz
  memory : ∀ id last next, .advance id last next ∈ s.past →
    ∀ u, s.world.schedules.get id = some u → u.nextRunAt = some next
  locked : ∀ es, s.reloading = .locked es → ∀ e ∈ es, e.KeepsAdvances s.past

theorem AdvanceKept.init (w : World) : AdvanceKept w 0 0 (.init w) where
  unlocked _ := rfl
  loaded _ _ := rfl
  updates _ _ _ _ _ _ h := (by cases h)
  rows _ _ _ _ h := (by cases h)
  memory _ _ _ h := (by cases h)
  locked _ h := (by cases h)

/-- What a load puts into the map has the time of every write that was made before. -/
theorem AdvanceKept.reloadLoop {cron : CronCrate} {env : ReloadEnv} {w : World} {checks : Nat}
    {s : SharedScheduler} (hs : AdvanceKept w 0 checks s) {rows : List Schedule}
    (hr : s.reloading = .selected rows) (hg : ReadsAdvance cron s (.lock env)) :
    ∀ e ∈ (reloadLoop cron env rows).1, e.KeepsAdvances s.past := by
  intro e he
  obtain ⟨row, hrow, -, he⟩ := mem_reloadLoop he
  rcases mem_loadEffects he with rfl | ⟨-, rfl⟩
  · intro last next hpast
    rw [(row.loaded_sameDefinition cron env).id] at hpast
    obtain ⟨⟨r, hmem, -, hjob, hnext⟩, hupd, hwhole⟩ := hg rows hr row hrow last next hpast
    have hrowNext : row.nextRunAt = some next := by
      rw [← hnext, hs.rows rfl _ _ _ hupd r hmem hjob, Option.map_some, timestamptz_eq_self hwhole]
    rw [loaded_of_stored hrowNext, hrowNext]
  · trivial

/-- The SELECT of a load and the release of its lock. -/
theorem AdvanceKept.setReloading {w : World} {locks checks : Nat} {s : SharedScheduler}
    (hs : AdvanceKept w locks checks s) {phase : ReloadPhase} (hfree : phase.free = true) :
    AdvanceKept w locks checks { s with reloading := phase } where
  unlocked _ := hfree
  loaded := hs.loaded
  updates := hs.updates
  rows := hs.rows
  memory := hs.memory
  locked es h := by
    have hlocked : phase = .locked es := h
    rw [hlocked] at hfree
    cases hfree

theorem AdvanceKept.lock {cron : CronCrate} {env : ReloadEnv} {w : World} {checks : Nat}
    {s : SharedScheduler} (hs : AdvanceKept w 0 checks s) {rows : List Schedule}
    (hr : s.reloading = .selected rows) (hg : ReadsAdvance cron s (.lock env)) :
    AdvanceKept w 1 checks
      { s with reloading := .locked (.clear :: (RBackup2.reloadLoop cron env rows).1) } where
  unlocked h := absurd h Nat.one_ne_zero
  loaded h := absurd h Nat.one_ne_zero
  updates h := absurd h Nat.one_ne_zero
  rows h := absurd h Nat.one_ne_zero
  memory := hs.memory
  locked es h e he := by
    cases h
    rcases List.mem_cons.1 he with rfl | he
    · trivial
    · exact hs.reloadLoop hr hg e he

theorem AdvanceKept.reloadEffect {w : World} {locks checks : Nat} {s : SharedScheduler}
    (hs : AdvanceKept w locks checks s) {e : Effect} {rest : List Effect}
    (hr : s.reloading = .locked (e :: rest)) :
    AdvanceKept w locks checks { s with world := s.world.apply e, reloading := .locked rest } := by
  have hlocks : locks ≠ 0 := by
    intro hzero
    have hfree := hs.unlocked hzero
    rw [hr] at hfree
    cases hfree
  obtain ⟨he, hrest⟩ := List.forall_mem_cons.1 (hs.locked _ hr)
  refine ⟨fun h => absurd h hlocks, fun h => absurd h hlocks,
    fun h => absurd h hlocks, fun h => absurd h hlocks, ?_, ?_⟩
  · intro id last next hpast u hu
    cases e with
    | clear => cases hu
    | insert x =>
      rcases ScheduleMap.get_insert_cases hu with rfl | hu
      · have hid : u.id = id := ScheduleMap.id_eq hu
        subst hid
        exact he last next hpast
      · exact hs.memory id last next hpast u hu
    | send e => exact hs.memory id last next hpast u hu
    | updateRows => exact hs.memory id last next hpast u hu
    | advance => exact he.elim
  · intro es hes x hx
    cases hes
    exact hrest x hx

theorem AdvanceKept.check {cron : CronCrate} {w : World} (hjob : w.OneSchedulePerJob)
    {locks : Nat} {s : SharedScheduler} (hs : AdvanceKept w locks 0 s) (hpast : s.past = [])
    {t : Tick} (hfree : s.reloading.free = true) (hp : t.order.Perm s.world.schedules.ids) :
    AdvanceKept w locks 1 { s with pending := checkSchedules cron s.world t } where
  unlocked _ := hfree
  loaded _ h := absurd h Nat.one_ne_zero
  updates h := by
    have hone : s.world.OneSchedulePerJob := by
      unfold World.OneSchedulePerJob
      rw [hs.loaded h rfl]
      exact hjob
    show UpdateOnce (s.past ++ _)
    rw [hpast, List.nil_append]
    exact updateOnce_checkSchedules cron hone hp
  rows := hs.rows
  memory := hs.memory
  locked := hs.locked

/-! ## The steps -/

theorem AdvanceKept.send {w : World} {locks checks : Nat} {s : SharedScheduler}
    (hs : AdvanceKept w locks checks s) (hchecks : checks ≠ 0) {q : Enqueue} {rest : List Effect}
    (hp : s.pending = .send q :: rest) : AdvanceKept w locks checks { s with
      world := s.world.apply (.send q)
      pending := rest
      past := s.past ++ [.send q] } := by
  refine ⟨hs.unlocked, fun _ h => absurd h hchecks, fun h => ?_, ?_, ?_, ?_⟩
  · simpa [hp] using hs.updates h
  · intro h j l n hmem
    exact hs.rows h j l n (by simpa using hmem)
  · intro id l n hmem
    exact hs.memory id l n (by simpa using hmem)
  · exact fun es hes x hx => (hs.locked es hes x hx).anti fun id l n hmem => by simpa using hmem

theorem AdvanceKept.updateRows {w : World} {locks checks : Nat} {s : SharedScheduler}
    (hs : AdvanceKept w locks checks s) (hchecks : checks ≠ 0) {jobId : Uuid} {last : DateTime}
    {next : Option DateTime} {rest : List Effect}
    (hp : s.pending = .updateRows jobId last next :: rest) : AdvanceKept w locks checks { s with
      world := s.world.apply (.updateRows jobId last next)
      pending := rest
      past := s.past ++ [.updateRows jobId last next] } := by
  refine ⟨hs.unlocked, fun _ h => absurd h hchecks, fun h => ?_, ?_, ?_, ?_⟩
  · simpa [hp] using hs.updates h
  · intro h j l n hmem r hr hj
    obtain ⟨x, hx, rfl⟩ := List.mem_map.1 hr
    by_cases hjob : x.jobId = jobId
    · -- the UPDATE that has just been made, and an earlier one of the same job
      rw [if_pos hjob] at hj ⊢
      have hsame : jobId = j := hjob.symm.trans hj
      subst hsame
      show next.map timestamptz = n.map timestamptz
      rw [hs.updates h jobId last next l n (by simp [hp]) ?_]
      rcases List.mem_append.1 hmem with hmem | hmem
      · exact List.mem_append_left _ hmem
      · rw [List.mem_singleton.1 hmem, hp]
        simp
    · rw [if_neg hjob] at hj ⊢
      rcases List.mem_append.1 hmem with hmem | hmem
      · exact hs.rows h j l n hmem x hx hj
      · obtain ⟨rfl, -⟩ := Effect.updateRows.inj (List.mem_singleton.1 hmem)
        exact absurd hj hjob
  · intro id l n hmem
    exact hs.memory id l n (by simpa using hmem)
  · exact fun es hes x hx => (hs.locked es hes x hx).anti fun id l n hmem => by simpa using hmem

/-- The write of a schedule is in memory, and the earlier ones of others still are. -/
theorem AdvanceKept.advance {w : World} {locks checks : Nat} {s : SharedScheduler}
    (hs : AdvanceKept w locks checks s) (hchecks : checks ≠ 0) {id : Int} {last next : DateTime}
    {rest : List Effect} (hp : s.pending = .advance id last next :: rest)
    (hfree : s.reloading.free = true) (honce : AdvanceOnce (s.past ++ s.pending)) :
    AdvanceKept w locks checks { s with
      world := s.world.apply (.advance id last next)
      pending := rest
      past := s.past ++ [.advance id last next] } := by
  refine ⟨hs.unlocked, fun _ h => absurd h hchecks, fun h => ?_, ?_, ?_, ?_⟩
  · simpa [hp] using hs.updates h
  · intro h j l n hmem
    exact hs.rows h j l n (by simpa using hmem)
  · intro k l n hmem u hu
    have hu : (s.world.schedules.advance id last next).get k = some u := hu
    rw [ScheduleMap.get_advance] at hu
    by_cases hk : k = id
    · subst hk
      rw [if_pos rfl] at hu
      obtain ⟨v, -, rfl⟩ := Option.map_eq_some_iff.1 hu
      show some next = some n
      rcases List.mem_append.1 hmem with hmem | hmem
      · rw [honce k last next l n (by simp [hp]) (List.mem_append_left _ hmem)]
      · rw [(Effect.advance.inj (List.mem_singleton.1 hmem)).2.2]
    · rw [if_neg hk] at hu
      rcases List.mem_append.1 hmem with hmem | hmem
      · exact hs.memory k l n hmem u hu
      · exact absurd (Effect.advance.inj (List.mem_singleton.1 hmem)).1 hk
  · intro es hes
    rw [show s.reloading = .locked es from hes] at hfree
    cases hfree

theorem AdvanceKept.step {cron : CronCrate} {deviceId : String} {w : World}
    (hjob : w.OneSchedulePerJob) {as : List SchedulerAction} {s s' : SharedScheduler}
    {a : SchedulerAction}
    (hs : AdvanceKept w (as.countP SchedulerAction.isLock) (as.countP SchedulerAction.isCheck) s)
    (hchecked : CheckedOnce cron deviceId w as s)
    (hlocks : (as ++ [a]).countP SchedulerAction.isLock ≤ 1)
    (hchecks : (as ++ [a]).countP SchedulerAction.isCheck ≤ 1) (hg : ReadsAdvance cron s a)
    (h : s.step cron deviceId a = some s') :
    AdvanceKept w ((as ++ [a]).countP SchedulerAction.isLock)
      ((as ++ [a]).countP SchedulerAction.isCheck) s' := by
  rw [List.countP_append, List.countP_singleton] at hlocks hchecks ⊢
  rw [List.countP_append, List.countP_singleton]
  obtain ⟨rfl, -, rfl⟩ | ⟨env, rows, rfl, hr, rfl⟩ | ⟨e, rest, rfl, hr, rfl⟩ | ⟨rfl, -, rfl⟩ |
    ⟨t, rfl, -, hfree, hp, rfl⟩ | ⟨e, rest, rfl, hp, hfree, rfl⟩ := SharedScheduler.step_cases h
  · exact hs.setReloading rfl
  · have hone : as.countP SchedulerAction.isLock + 1 ≤ 1 := hlocks
    have hzero : as.countP SchedulerAction.isLock = 0 := by omega
    rw [hzero] at hs ⊢
    exact hs.lock hr hg
  · exact hs.reloadEffect hr
  · exact hs.setReloading rfl
  · have hone : as.countP SchedulerAction.isCheck + 1 ≤ 1 := hchecks
    have hzero : as.countP SchedulerAction.isCheck = 0 := by omega
    rw [hzero] at hs ⊢
    exact hs.check hjob (hchecked.past_eq hzero) hfree hp
  · obtain ⟨hbegun, ⟨q, rfl⟩ | ⟨jobId, last, next, rfl⟩ | ⟨id, last, next, rfl⟩⟩ :=
      hchecked.effect_cases (e := e) (by rw [hp]; exact List.mem_cons_self)
    · exact hs.send hbegun hp
    · exact hs.updateRows hbegun hp
    · exact hs.advance hbegun hp (hfree rfl) hchecked.advanceOnce

theorem advanceKept_of_exec {cron : CronCrate} {deviceId : String} {w : World}
    (hjob : w.OneSchedulePerJob) {as : List SchedulerAction} {s : SharedScheduler}
    (h : exec (SharedScheduler.step cron deviceId) (.init w) as = some s)
    (hlocks : as.countP SchedulerAction.isLock ≤ 1)
    (hchecks : as.countP SchedulerAction.isCheck ≤ 1)
    (hg : Along (SharedScheduler.step cron deviceId) (ReadsAdvance cron) (.init w) as) :
    AdvanceKept w (as.countP SchedulerAction.isLock) (as.countP SchedulerAction.isCheck) s := by
  refine exec_history (P := fun as s => as.countP SchedulerAction.isLock ≤ 1 →
    as.countP SchedulerAction.isCheck ≤ 1 →
    Along (SharedScheduler.step cron deviceId) (ReadsAdvance cron) (.init w) as →
    AdvanceKept w (as.countP SchedulerAction.isLock) (as.countP SchedulerAction.isCheck) s)
    (fun _ _ _ => .init w) ?_ h hlocks hchecks hg
  intro as m a m' hm ih hstep hlocks hchecks hg
  obtain ⟨hprior, hlast⟩ := along_concat.1 hg
  have hsub : as.Sublist (as ++ [a]) := List.sublist_append_left as [a]
  have hlocks' := Nat.le_trans hsub.countP_le hlocks
  have hchecks' := Nat.le_trans hsub.countP_le hchecks
  exact (ih hlocks' hchecks' hprior).step hjob (checkedOnce_of_exec hm hchecks') hlocks hchecks
    (hlast m hm) hstep

/-- **An advance survives a concurrent load.**  For one load and one check, interleaved in any way,
    with every database call succeeding and one schedule per job: if the step that takes the lock
    meets its condition, then once both calls are done every loaded schedule that was enqueued has
    the next time that `queue_job` computed for it, and no check before that time fires it. -/
theorem advance_survives_reload (cron : CronCrate) (deviceId : String) (w : World)
    (hjob : w.OneSchedulePerJob) (as : List SchedulerAction) (hdb : ∀ a ∈ as, a.DbSucceeds)
    (hlocks : as.countP SchedulerAction.isLock ≤ 1)
    (hchecks : as.countP SchedulerAction.isCheck ≤ 1) (s : SharedScheduler)
    (h : exec (SharedScheduler.step cron deviceId) (.init w) as = some s)
    (hdone : s.reloading = .idle ∧ s.pending = [])
    (hg : Along (SharedScheduler.step cron deviceId) (ReadsAdvance cron) (.init w) as) :
    ∀ e ∈ s.sent, ∃ pre t post m u, as = pre ++ .check t :: post ∧
      exec (SharedScheduler.step cron deviceId) (.init w) pre = some m ∧
      m.world.schedules.get e.scheduleId = some u ∧
      ∀ next, calculateNextRun cron u (some e.reading) e.reading = .ok next →
        ∀ u', s.world.schedules.get e.scheduleId = some u' →
          u'.nextRunAt = some next ∧ ∀ now, now < next → u'.fires now = false := by
  have hs := advanceKept_of_exec hjob h hlocks hchecks hg
  intro e he
  obtain ⟨x, hx, hxe⟩ := List.mem_filterMap.1 he
  rcases checkedOnce_of_exec h hchecks with ⟨-, hpast, -⟩ | ⟨pre, t, post, m, rfl, hm, hp, heq⟩
  · rw [hpast] at hx
    cases hx
  rw [hdone.2, List.append_nil] at heq
  rw [heq] at hx
  obtain ⟨u, hu, hfires, hxu⟩ := mem_checkLoop.1 hx
  obtain ⟨hsend, rfl⟩ := sent_of_mem_queueJob hxu hxe
  have hget := (World.mem_snapshot hp).1 hu
  refine ⟨pre, t, post, m, u, rfl, hm, hget, fun next hnext u' hu' => ?_⟩
  have hupd : (t.queue u.id).update = .done := hdb (.check t) (by simp) u.id
  have hpast : .advance u.id (t.queue u.id).now next ∈ s.past := by
    obtain ⟨next', hnext', heff⟩ := queueJob_ok ⟨hsend, ⟨next, hnext⟩, hupd⟩
    cases hnext.symm.trans hnext'
    rw [heq]
    refine mem_checkLoop.2 ⟨u, hu, hfires, ?_⟩
    rw [heff]
    simp
  have hmem := hs.memory _ _ _ hpast u' hu'
  refine ⟨hmem, fun now hlt => ?_⟩
  have hdue : isDue u' now = false := by
    unfold isDue
    rw [hmem]
    exact decide_eq_false (Int.not_le.2 hlt)
  rw [Schedule.fires, hdue, Bool.and_false]

/-- A world with one hourly schedule, due at the start of 2025. -/
def World.hourly : World :=
  .ofRows [.plain 1 "blade"] [.every 3600 1 1 (some (seconds 1735689600))]

theorem World.hourly_oneSchedulePerJob : World.hourly.OneSchedulePerJob := by
  have hid : ∀ id u, World.hourly.schedules.get id = some u → id = 1 := by
    intro id u h
    rcases ScheduleMap.get_insert_cases h with rfl | hempty
    · exact (ScheduleMap.id_eq h).symm
    · rw [ScheduleMap.get_empty] at hempty
      cases hempty
  intro id id' u u' h h' _
  rw [hid id u h, hid id' u' h']

/-- The load takes the lock before the in-memory write, which comes after it. -/
theorem advance_survives_reload_hourly :
    let queue := fun _ => QueueEnv.succeeding (seconds 1735689601)
    let as : List SchedulerAction := [.select, .check ⟨seconds 1735689600, [1], queue⟩, .effect,
      .effect, .lock (.succeeding (seconds 1735689601)), .reloadEffect, .reloadEffect, .unlock,
      .effect]
    ∃ s, exec (SharedScheduler.step .everyMinute "blade") (.init .hourly) as = some s ∧
      ∀ e ∈ s.sent, ∃ pre t post m u, as = pre ++ .check t :: post ∧
        exec (SharedScheduler.step .everyMinute "blade") (.init .hourly) pre = some m ∧
        m.world.schedules.get e.scheduleId = some u ∧
        ∀ next, calculateNextRun .everyMinute u (some e.reading) e.reading = .ok next →
          ∀ u', s.world.schedules.get e.scheduleId = some u' →
            u'.nextRunAt = some next ∧ ∀ now, now < next → u'.fires now = false := by
  intro queue as
  have hdb : ∀ a ∈ as, a.DbSucceeds := by
    simp [as, queue, SchedulerAction.DbSucceeds, ReloadEnv.succeeding, QueueEnv.succeeding]
  have hg : Along (SharedScheduler.step .everyMinute "blade") (ReadsAdvance .everyMinute)
      (.init .hourly) as := by
    show Along _ _ _ (as.take 4 ++ as.drop 4)
    refine along_append.2 ⟨along_of_forall (by simp [as, ReadsAdvance]) _, ?_⟩
    rintro _ ⟨⟩
    refine ⟨?_, fun s' _ => along_of_forall (by simp [ReadsAdvance]) s'⟩
    -- nothing has been written to the map
    intro rows _ row _ last next hpast
    rcases List.mem_cons.1 hpast with hpast | hpast
    · cases hpast
    · cases List.mem_singleton.1 hpast
  exact ⟨_, rfl, advance_survives_reload .everyMinute "blade" .hourly World.hourly_oneSchedulePerJob
    as hdb (by decide) (by decide) _ rfl ⟨rfl, rfl⟩ hg⟩

/-- The SELECT comes before a whole check and the lock after it: the schedule has its old time
    again, and is enqueued once more for the same occurrence. -/
theorem concurrent_load_loses_advance :
    let row := Schedule.every 3600 1 1 (some (seconds 1735689600))
    let queue := fun _ => QueueEnv.succeeding (seconds 1735689601)
    let as : List SchedulerAction := [.select, .check ⟨seconds 1735689600, [1], queue⟩, .effect,
      .effect, .effect, .lock (.succeeding (seconds 1735689602)), .reloadEffect, .reloadEffect,
      .unlock]
    World.hourly.OneSchedulePerJob ∧ (∀ r ∈ World.hourly.rows, SoleOfJob World.hourly.rows r) ∧
    (∀ a ∈ as, a.DbSucceeds) ∧
    ∃ s, exec (SharedScheduler.step .everyMinute "blade") (.init .hourly) as = some s ∧
      s.reloading = .idle ∧ s.pending = [] ∧
      s.sent = [⟨1, ⟨1, "schedule"⟩, seconds 1735689601⟩] ∧
      calculateNextRun .everyMinute row (some (seconds 1735689601)) (seconds 1735689601) =
        .ok (seconds 1735693201) ∧
      s.world.schedules.get 1 = some row ∧ row.nextRunAt ≠ some (seconds 1735693201) ∧
      row.fires (seconds 1735689660) = true := by
  intro row queue as
  refine ⟨World.hourly_oneSchedulePerJob, by decide, ?_, _, rfl, rfl, rfl, rfl, rfl, rfl, by decide,
    by decide⟩
  simp [as, queue, SchedulerAction.DbSucceeds, ReloadEnv.succeeding, QueueEnv.succeeding]

end RBackup2

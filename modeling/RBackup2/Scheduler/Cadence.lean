import RBackup2.Scheduler.Firing

/-!
# The cadence of interval schedules

Checks on the grid of `SCHEDULER_CHECK_INTERVAL_SECONDS`: the `i`-th reads the clock at
`c0 + 60 * i` seconds.  The next time of an interval schedule is counted from the reading inside
`queue_job`, which comes after the reading of the check, and is then compared with the grid again.

* `next_enqueue` — a schedule of `60 * k` seconds that is enqueued by check `i` is enqueued next by
  check `i + k` if both readings are the same, and by check `i + k + 1` otherwise.
* `interval_cadence_iff` — so the cadence is kept exactly by enqueues without any delay, and with
  delays the schedule runs every `k + 1` checks.
-/

set_option autoImplicit false

namespace RBackup2

open Transition

/-- `SCHEDULER_CHECK_INTERVAL_SECONDS`. -/
def schedulerCheckIntervalSeconds : Int := 60

/-- The calls of `queue_job` read the clock before the next check, and not before their own. -/
def Delayed (cron : CronCrate) (w : World) (t : Tick) : Prop :=
  ∀ e ∈ tickSends cron w t,
    t.now ≤ e.reading ∧ e.reading < t.now + seconds schedulerCheckIntervalSeconds

/-- They read it later than their check did. -/
def Late (cron : CronCrate) (w : World) (t : Tick) : Prop :=
  ∀ e ∈ tickSends cron w t, t.now < e.reading

/-- Checks on the grid, in which every call succeeds. -/
structure GridRun (cron : CronCrate) (c0 : DateTime) (w : World) (ticks : List Tick)
    (w' : World) : Prop where
  run : exec (World.tick cron) w ticks = some w'
  succeeds : Along (World.tick cron) (Tick.Succeeds cron) w ticks
  grid : ∀ (i : Nat) (t : Tick), ticks[i]? = some t →
    t.now = c0 + seconds (schedulerCheckIntervalSeconds * i)
  delayed : Along (World.tick cron) (Delayed cron) w ticks

/-- The check at an index makes the enqueue. -/
def SentAt (cron : CronCrate) (w : World) (ticks : List Tick) (i : Nat) (e : Enqueue) : Prop :=
  ∃ t m, ticks[i]? = some t ∧ exec (World.tick cron) w (ticks.take i) = some m ∧
    e ∈ tickSends cron m t

/-- The check at an index enqueues the schedule. -/
def EnqueuedAt (cron : CronCrate) (w : World) (ticks : List Tick) (id : Int) (i : Nat) : Prop :=
  ∃ e, SentAt cron w ticks i e ∧ e.scheduleId = id

/-- Every enqueue of the schedule is followed by the next one `k` checks later. -/
def Cadence (cron : CronCrate) (w : World) (ticks : List Tick) (id : Int) (k : Nat) : Prop :=
  ∀ i, EnqueuedAt cron w ticks id i → i + k < ticks.length →
    EnqueuedAt cron w ticks id (i + k) ∧
      ∀ l, i < l → l < i + k → ¬ EnqueuedAt cron w ticks id l

section Grid

variable {cron : CronCrate} {c0 : DateTime} {w w' : World} {ticks : List Tick}
  (hrun : GridRun cron c0 w ticks w') {id : Int} {s : Schedule}

include hrun

/-- The schedule at an index of the run, where it has the definition it started with. -/
theorem GridRun.get_at (hs : w.schedules.get id = some s) (i : Nat) {m : World}
    (hm : exec (World.tick cron) w (ticks.take i) = some m) :
    ∃ u, m.schedules.get id = some u ∧ s.SameDefinition u := by
  induction i generalizing m with
  | zero =>
    cases hm
    exact ⟨s, hs, .refl s⟩
  | succ i ih =>
    obtain ⟨m₀, hm₀⟩ := exec_take hrun.run i
    obtain ⟨u, hu, hsame⟩ := ih hm₀
    cases ht : ticks[i]? with
    | none =>
      rw [List.take_add_one, ht, Option.toList_none, List.append_nil, hm₀] at hm
      cases hm
      exact ⟨u, hu, hsame⟩
    | some t =>
      have hstep := exec_take_succ ht hm₀ hm
      refine ⟨u.checked cron t.now (t.queue id), ?_, hsame.trans (u.checked_sameDefinition ..)⟩
      rw [World.tick_get hstep, hu, Option.map_some]

/-- A check enqueues the schedule exactly if it fires. -/
theorem GridRun.enqueuedAt_iff {i : Nat} {t : Tick} {m : World} (ht : ticks[i]? = some t)
    (hm : exec (World.tick cron) w (ticks.take i) = some m) {u : Schedule}
    (hu : m.schedules.get id = some u) :
    EnqueuedAt cron w ticks id i ↔ u.fires t.now = true := by
  obtain ⟨m', hm'⟩ := exec_take hrun.run (i + 1)
  have hmem : id ∈ (tickSends cron m t).map Enqueue.scheduleId ↔
      ∃ s, m.schedules.get id = some s ∧ s.fires t.now = true :=
    mem_tickSends_of_succeeds (exec_take_succ ht hm hm') (along_take hrun.succeeds ht hm)
  rw [List.mem_map] at hmem
  constructor
  · rintro ⟨e, ⟨t', m₁, ht', hm₁, he⟩, hid⟩
    cases ht.symm.trans ht'
    cases hm.symm.trans hm₁
    obtain ⟨u', hu', hf⟩ := hmem.1 ⟨e, he, hid⟩
    cases hu.symm.trans hu'
    exact hf
  · intro hf
    obtain ⟨e, he, hid⟩ := hmem.2 ⟨u, hu, hf⟩
    exact ⟨e, ⟨t, m, ht, hm, he⟩, hid⟩

/-- What waits for a time after the checks up to an index is left alone by them. -/
theorem GridRun.waits {i l : Nat} {m m' : World} {u : Schedule} {next : DateTime}
    (hm : exec (World.tick cron) w (ticks.take i) = some m) (hu : m.schedules.get id = some u)
    (hnext : u.nextRunAt = some next) (hil : i ≤ l)
    (hbefore : ∀ j, i ≤ j → j < l → c0 + seconds (schedulerCheckIntervalSeconds * j) < next)
    (hm' : exec (World.tick cron) w (ticks.take l) = some m') :
    m'.schedules.get id = some u := by
  induction l, hil using Nat.le_induction generalizing m' with
  | base =>
    cases hm.symm.trans hm'
    exact hu
  | succ l hil ih =>
    obtain ⟨m₀, hm₀⟩ := exec_take hrun.run l
    have hu₀ := ih (fun j hij hjl => hbefore j hij (Nat.lt_succ_of_lt hjl)) hm₀
    cases ht : ticks[l]? with
    | none =>
      rw [List.take_add_one, ht, Option.toList_none, List.append_nil, hm₀] at hm'
      cases hm'
      exact hu₀
    | some t =>
      have hwait := hbefore l hil (Nat.lt_succ_self l)
      rw [← hrun.grid l t ht] at hwait
      have hf : ¬ u.fires t.now = true := by
        simp only [Schedule.fires, isDue, hnext, Bool.and_eq_true, decide_eq_true_eq, not_and]
        intro _
        exact Int.not_le.2 hwait
      rw [World.tick_get (exec_take_succ ht hm₀ hm'), hu₀, Option.map_some, Schedule.checked,
        if_neg hf]

/-- After how many checks an enqueue of an interval of `k` check periods is followed by the
    next. -/
def checksUntilNext (k : Nat) (now reading : DateTime) : Nat :=
  if reading = now then k else k + 1

omit hrun in
/-- The grid reaches the time that is `k` periods after a reading at that check, and not before. -/
theorem checksUntilNext_spec {k i : Nat} {reading : DateTime}
    (hle : c0 + seconds (60 * i) ≤ reading)
    (hlt : reading < c0 + seconds (60 * i) + seconds 60) (j : Nat) :
    reading + seconds (60 * k) ≤ c0 + seconds (60 * j) ↔
      i + checksUntilNext k (c0 + seconds (60 * i)) reading ≤ j := by
  unfold checksUntilNext
  by_cases heq : reading = c0 + seconds (60 * i)
  · rw [if_pos heq, heq]
    simp only [seconds]
    lia
  · rw [if_neg heq]
    simp only [seconds] at *
    lia

/-- **The next enqueue of an interval schedule.** -/
theorem next_enqueue (hs : w.schedules.get id = some s) (hen : s.enabled = true)
    (hint : s.isInterval = true) {k : Nat} (hn : s.intervalSeconds = some (60 * (k : Int)))
    {i : Nat} {e : Enqueue} (he : SentAt cron w ticks i e) (hid : e.scheduleId = id) :
    let next := i + checksUntilNext k (c0 + seconds (60 * i)) e.reading
    (∀ l, i < l → l < next → ¬ EnqueuedAt cron w ticks id l) ∧
      (next < ticks.length → EnqueuedAt cron w ticks id next) := by
  intro next
  subst hid
  obtain ⟨t, m, ht, hm, hsent⟩ := he
  obtain ⟨m', hm'⟩ := exec_take hrun.run (i + 1)
  obtain ⟨u, nextRun, hu, hcalc, hu'⟩ :=
    tick_get_of_sent (exec_take_succ ht hm hm') (along_take hrun.succeeds ht hm) hsent
  obtain ⟨u₀, hu₀, hsame⟩ := hrun.get_at hs i hm
  cases hu.symm.trans hu₀
  -- what the schedule waits for after check `i`, and when the grid gets there
  obtain ⟨hpos, rfl⟩ := calculateNextRun_interval (n := 60 * k)
    (by rw [Schedule.isInterval, hsame.scheduleType]; exact hint)
    (hsame.intervalSeconds.trans hn) hcalc
  obtain ⟨hle, hlt⟩ := along_take hrun.delayed ht hm e hsent
  rw [hrun.grid i t ht] at hle hlt
  have hreach := checksUntilNext_spec (k := k) hle hlt
  have hbefore : ∀ l, i + 1 ≤ l → l ≤ next → ∀ m₁,
      exec (World.tick cron) w (ticks.take l) = some m₁ →
      m₁.schedules.get e.scheduleId = some { u with
        lastRunAt := some e.reading, nextRunAt := some (e.reading + seconds (60 * k)) } := by
    intro l hil hl m₁ hm₁
    refine hrun.waits hm' hu' rfl hil (fun j hij hjl => ?_) hm₁
    refine Int.not_le.1 fun hdue => ?_
    exact absurd ((hreach j).1 hdue) (Nat.not_le.2 (Nat.lt_of_lt_of_le hjl hl))
  have hfires : ∀ l, i + 1 ≤ l → l ≤ next → ∀ t₁, ticks[l]? = some t₁ →
      (EnqueuedAt cron w ticks e.scheduleId l ↔ next ≤ l) := by
    intro l hil hl t₁ ht₁
    obtain ⟨m₁, hm₁⟩ := exec_take hrun.run l
    rw [hrun.enqueuedAt_iff ht₁ hm₁ (hbefore l hil hl m₁ hm₁)]
    simp only [Schedule.fires, isDue, hsame.enabled.trans hen, Bool.true_and, decide_eq_true_eq]
    rw [hrun.grid l t₁ ht₁]
    exact hreach l
  constructor
  · rintro l hil hl ⟨e', ⟨t₁, m₁, ht₁, hm₁, hsent₁⟩, hid⟩
    have hnot := (hfires l hil (Nat.le_of_lt hl) t₁ ht₁).1 ⟨e', ⟨t₁, m₁, ht₁, hm₁, hsent₁⟩, hid⟩
    exact absurd hnot (Nat.not_le.2 hl)
  · intro hlen
    have hil : i + 1 ≤ next := by
      simp only [next, checksUntilNext]
      split <;> omega
    exact (hfires next hil (Nat.le_refl _) _ (List.getElem?_eq_getElem hlen)).2 (Nat.le_refl _)

/-- With a delay the next enqueue comes a check late. -/
theorem next_enqueue_late (hlate : Along (World.tick cron) (Late cron) w ticks)
    (hs : w.schedules.get id = some s) (hen : s.enabled = true) (hint : s.isInterval = true)
    {k : Nat} (hn : s.intervalSeconds = some (60 * (k : Int))) {i : Nat}
    (hi : EnqueuedAt cron w ticks id i) :
    (∀ l, i < l → l < i + (k + 1) → ¬ EnqueuedAt cron w ticks id l) ∧
      (i + (k + 1) < ticks.length → EnqueuedAt cron w ticks id (i + (k + 1))) := by
  obtain ⟨e, he, hid⟩ := hi
  have hnext := next_enqueue hrun hs hen hint hn he hid
  obtain ⟨t, m, ht, hm, hsent⟩ := he
  have hlt := along_take hlate ht hm e hsent
  rw [hrun.grid i t ht] at hlt
  have hchecks : checksUntilNext k (c0 + seconds (60 * i)) e.reading = k + 1 :=
    if_neg (Int.ne_of_gt hlt)
  simp only [hchecks] at hnext
  exact hnext

end Grid

/-- What recurs after `p` steps, and not before, recurs at the multiples of `p`. -/
theorem recurs_iff_dvd {P : Nat → Prop} {p len : Nat} (hp : 0 < p)
    (h : ∀ i, P i → (∀ l, i < l → l < i + p → ¬ P l) ∧ (i + p < len → P (i + p))) {j : Nat}
    (hj : j < len) : ∀ {i : Nat}, P i → i ≤ j → (P j ↔ p ∣ j - i) := by
  intro i hi hij
  induction hd : j - i using Nat.strong_induction_on generalizing i with
  | _ d ih =>
    obtain ⟨hnone, hnext⟩ := h i hi
    by_cases hlt : j < i + p
    · by_cases heq : i = j
      · subst heq
        rw [← hd, Nat.sub_self]
        exact ⟨fun _ => Nat.dvd_zero p, fun _ => hi⟩
      · refine ⟨fun hPj => absurd hPj (hnone j (by omega) hlt), fun hdvd => ?_⟩
        have hle := Nat.le_of_dvd (by omega) hdvd
        omega
    · rw [ih (j - (i + p)) (by omega) (hnext (by omega)) (by omega) rfl, ← hd,
        show j - i = j - (i + p) + p by omega, Nat.dvd_add_self_right]

/-- **An interval of `k` check periods takes `k + 1` of them.**  In every run on the grid, the
enqueues that are followed by the next one `k` checks later are those without any delay between
the readings of the check and of `queue_job`; and if every one is delayed, the schedule is
enqueued at every `k + 1`-th check. -/
theorem interval_cadence_iff (cron : CronCrate) (c0 : DateTime) (w w' : World) (ticks : List Tick)
    (hrun : GridRun cron c0 w ticks w') (id : Int) (s : Schedule)
    (hs : w.schedules.get id = some s) (hen : s.enabled = true) (hint : s.isInterval = true)
    (k : Nat) (hk : 1 ≤ k) (hn : s.intervalSeconds = some (60 * (k : Int))) :
    (Cadence cron w ticks id k ↔ ∀ i e, SentAt cron w ticks i e → e.scheduleId = id →
      i + k < ticks.length → e.reading = c0 + seconds (60 * i)) ∧
    (Along (World.tick cron) (Late cron) w ticks → ∀ i, EnqueuedAt cron w ticks id i →
      ∀ j, i ≤ j → j < ticks.length →
        (EnqueuedAt cron w ticks id j ↔ (k + 1) ∣ (j - i))) := by
  refine ⟨⟨fun hcadence i e he hid hlen => ?_, fun hexact i hi hlen => ?_⟩,
    fun hlate i hi j hij hlen => ?_⟩
  · by_contra hne
    have hnext := next_enqueue hrun hs hen hint hn he hid
    simp only [checksUntilNext, if_neg hne] at hnext
    exact hnext.1 (i + k) (by omega) (by omega) (hcadence i ⟨e, he, hid⟩ hlen).1
  · obtain ⟨e, he, hid⟩ := hi
    have hnext := next_enqueue hrun hs hen hint hn he hid
    simp only [checksUntilNext, if_pos (hexact i e he hid hlen)] at hnext
    exact ⟨hnext.2 hlen, hnext.1⟩
  · exact recurs_iff_dvd (Nat.succ_pos k)
      (fun i hi => next_enqueue_late hrun hlate hs hen hint hn hi) hlen hi hij

/-- The reading of an enqueue is that of its call of `queue_job`. -/
theorem tickSends_reading {cron : CronCrate} {w : World} {t : Tick} {e : Enqueue}
    (he : e ∈ tickSends cron w t) : e.reading = (t.queue e.scheduleId).now := by
  rw [tickSends_eq, List.mem_map] at he
  obtain ⟨s, -, rfl⟩ := he
  rfl

/-- Three checks of a schedule of every minute; `queue_job` reads the clock 5 ns after each. -/
def minuteTicks : List Tick :=
  [0, 60, 120].map fun n => ⟨seconds n, [1], fun _ => .succeeding (seconds n + 5)⟩

def minuteWorld : World := .ofRows [] [.every 60 1 1 (some 0)]

theorem minuteTicks_run : ∃ w', GridRun .everyMinute 0 minuteWorld minuteTicks w' := by
  have hdelay : ∀ t ∈ minuteTicks, ∀ id, (t.queue id).now = t.now + 5 := by
    intro t ht id
    obtain ⟨n, -, rfl⟩ := List.mem_map.1 ht
    rfl
  have hints : Intervals minuteWorld := by
    intro id s hs
    rcases ScheduleMap.get_insert_cases hs with rfl | hs
    · exact ⟨rfl, 60, rfl, by decide⟩
    · cases hs.symm.trans (ScheduleMap.get_empty id)
  refine ⟨_, rfl, hints.along fun t ht id => ?_, fun i t ht => ?_,
    along_of_forall (fun t ht w e he => ?_) _⟩
  · obtain ⟨n, -, rfl⟩ := List.mem_map.1 ht
    exact ⟨_, rfl⟩
  · match i, ht with
    | 0, ht => cases ht; rfl
    | 1, ht => cases ht; rfl
    | 2, ht => cases ht; rfl
  · rw [tickSends_reading he, hdelay t ht]
    simp only [seconds, schedulerCheckIntervalSeconds]
    lia

theorem minuteTicks_late :
    Along (World.tick .everyMinute) (Late .everyMinute) minuteWorld minuteTicks := by
  refine along_of_forall (fun t ht w e he => ?_) _
  obtain ⟨n, -, rfl⟩ := List.mem_map.1 ht
  rw [tickSends_reading he]
  simp only [QueueEnv.succeeding]
  lia

theorem minuteTicks_first : EnqueuedAt .everyMinute minuteWorld minuteTicks 1 0 :=
  ⟨⟨1, ⟨1, "schedule"⟩, 5⟩, ⟨_, minuteWorld, rfl, rfl, by decide⟩, rfl⟩

/-- A schedule of every minute is enqueued by every second check. -/
theorem interval_cadence_iff_minute :
    ¬ EnqueuedAt .everyMinute minuteWorld minuteTicks 1 1 ∧
      EnqueuedAt .everyMinute minuteWorld minuteTicks 1 2 := by
  obtain ⟨w', hrun⟩ := minuteTicks_run
  have hevery := (interval_cadence_iff .everyMinute 0 minuteWorld w' minuteTicks hrun 1 _ rfl rfl
    rfl 1 (Nat.le_refl 1) rfl).2 minuteTicks_late 0 minuteTicks_first
  constructor
  · intro h
    exact absurd ((hevery 1 (by decide) (by decide)).1 h) (by decide)
  · exact (hevery 2 (by decide) (by decide)).2 (by decide)

/-- Five nanoseconds cost a minute. -/
theorem minute_schedule_skips_check :
    ¬ ∀ (cron : CronCrate) (c0 : DateTime) (w w' : World) (ticks : List Tick),
      GridRun cron c0 w ticks w' → Along (World.tick cron) (Late cron) w ticks →
      ∀ id s, w.schedules.get id = some s → s.enabled = true → s.isInterval = true →
        ∀ k : Nat, 1 ≤ k → s.intervalSeconds = some (60 * (k : Int)) →
          Cadence cron w ticks id k := by
  intro h
  obtain ⟨w', hrun⟩ := minuteTicks_run
  have hcadence := h .everyMinute 0 minuteWorld w' minuteTicks hrun minuteTicks_late 1 _ rfl rfl
    rfl 1 (Nat.le_refl 1) rfl
  have hget : minuteWorld.schedules.get 1 = some _ := rfl
  have hnext := next_enqueue_late hrun minuteTicks_late hget rfl rfl (k := 1) rfl
    minuteTicks_first
  exact hnext.1 1 (by decide) (by decide) (hcadence 0 minuteTicks_first (by decide)).1

end RBackup2

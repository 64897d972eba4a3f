import RBackup2.Scheduler.Firing

/-!
# One enqueue per occurrence

`queue_job` sends first and moves the schedule on last: if the calculation or the UPDATE between
them fails, the error is logged and the schedule stays due.

* `NoLateFailure` — no call of `queue_job` fails after its send.
* `one_enqueue_per_occurrence` — in a run of such checks, two enqueues of a schedule have a state
  between them in which it waits for a time later than the first.
* `resend_of_lateFailure` — a check that is not such enqueues the same occurrence again next time.
-/

set_option autoImplicit false

namespace RBackup2

open Transition

/-- No call of `queue_job` in the check fails after its send. -/
def NoLateFailure (cron : CronCrate) (w : World) (t : Tick) : Prop :=
  ∀ id s, w.schedules.get id = some s → s.fires t.now = true → (t.queue id).sends = true →
    (t.queue id).Succeeds cron s

/-- Some state of the run waits, at schedule `id`, for a time later than `r`. -/
def WaitsPast (cron : CronCrate) (w : World) (ticks : List Tick) (id : Int) (r : DateTime) : Prop :=
  ∃ pre post m s next, ticks = pre ++ post ∧ exec (World.tick cron) w pre = some m ∧
    m.schedules.get id = some s ∧ s.nextRunAt = some next ∧ r < next

/-- **Two enqueues of a schedule are separated**: they are not of one check, and between two
    checks it comes to wait for a time later than the first of them. -/
def Separated (cron : CronCrate) (w : World) (ticks : List Tick) : Prop :=
  ∀ pre t post m m', ticks = pre ++ t :: post → exec (World.tick cron) w pre = some m →
    m.tick cron t = some m' →
    ((tickSends cron m t).map Enqueue.scheduleId).Nodup ∧
    ∀ e ∈ tickSends cron m t, ∀ mid t' rest k, post = mid ++ t' :: rest →
      exec (World.tick cron) m' mid = some k →
        ∀ e' ∈ tickSends cron k t', e'.scheduleId = e.scheduleId →
          WaitsPast cron m' mid e.scheduleId e.reading

/-- After a send that nothing fails behind, the schedule waits for a later time. -/
theorem waits_of_noLateFailure {cron : CronCrate} (hcron : cron.Later) {w w' : World} {t : Tick}
    (h : w.tick cron t = some w') (hok : NoLateFailure cron w t) {e : Enqueue}
    (he : e ∈ tickSends cron w t) :
    ∃ s next, w'.schedules.get e.scheduleId = some s ∧ s.nextRunAt = some next ∧
      e.reading < next := by
  obtain ⟨s, hs, hf, hsend, rfl⟩ := (mem_tickSends h).1 he
  have hid := ScheduleMap.id_eq hs
  have hsucc := hok _ s hs hf hsend
  obtain ⟨-, ⟨next, hnext⟩, -⟩ := id hsucc
  refine ⟨{ s with lastRunAt := some (t.queue s.id).now, nextRunAt := some next }, next, ?_, rfl,
    calculateNextRun_gt hcron hnext⟩
  rw [World.tick_get h, hs, Option.map_some, Schedule.checked, if_pos hf]
  exact congrArg some (Schedule.queued_of_succeeds hsucc hnext)

/-- **At most one enqueue per occurrence**, in every run of checks in which no call of `queue_job`
    fails after its send, whatever else fails. -/
theorem one_enqueue_per_occurrence (cron : CronCrate) (hcron : cron.Later) (w : World)
    (ticks : List Tick) (hok : Along (World.tick cron) (NoLateFailure cron) w ticks) :
    Separated cron w ticks := by
  rintro pre t post m m' rfl hm ht
  refine ⟨tickSends_nodup ht, ?_⟩
  intro e he mid t' rest k _ _ e' _ _
  obtain ⟨s, next, hs, hnext, hlt⟩ := waits_of_noLateFailure hcron ht (along_at hok hm) he
  exact ⟨[], mid, m', s, next, rfl, rfl, hs, hnext, hlt⟩

/-- **A late failure repeats the occurrence**: the schedule is left as it was, and the next check
    sends it again. -/
theorem resend_of_lateFailure {cron : CronCrate} {w w' : World} {t t' : Tick}
    (h : w.tick cron t = some w') {id : Int} {s : Schedule} (hs : w.schedules.get id = some s)
    (hf : s.fires t.now = true) (hsend : (t.queue id).sends = true)
    (hfail : ¬ (t.queue id).Succeeds cron s) (hclock : t.now ≤ t'.now) {w'' : World}
    (h' : w'.tick cron t' = some w'') (hsend' : (t'.queue id).sends = true) :
    w'.schedules.get id = some s ∧ id ∈ (tickSends cron w t).map Enqueue.scheduleId ∧
      id ∈ (tickSends cron w' t').map Enqueue.scheduleId := by
  have hid := ScheduleMap.id_eq hs
  subst hid
  have hget : w'.schedules.get s.id = some s := by
    rw [World.tick_get h, hs, Option.map_some, Schedule.checked, if_pos hf,
      Schedule.queued_of_not_succeeds hfail]
  have hf' : s.fires t'.now = true := by
    unfold Schedule.fires isDue at hf ⊢
    cases hnext : s.nextRunAt with
    | none => simpa [hnext] using hf
    | some next =>
      simp only [hnext, Bool.and_eq_true, decide_eq_true_eq] at hf ⊢
      exact ⟨hf.1, Int.le_trans hf.2 hclock⟩
  refine ⟨hget, List.mem_map.2 ⟨enqueueOf t.queue s, ?_, rfl⟩,
    List.mem_map.2 ⟨enqueueOf t'.queue s, ?_, rfl⟩⟩
  · exact (mem_tickSends h).2 ⟨s, hs, hf, hsend, rfl⟩
  · exact (mem_tickSends h').2 ⟨s, hget, hf', hsend', rfl⟩

/-- A check in which the channel is closed sends nothing, and so fails late nowhere; the two after
    it send the schedule for two occurrences. -/
theorem one_enqueue_per_occurrence_closed_channel :
    let w := World.ofRows [] [.every 60 1 1 (some 0)]
    let ticks : List Tick :=
      [⟨seconds 7200, [1], fun _ => ⟨.error "channel closed", seconds 7200, .done⟩⟩,
        ⟨seconds 7260, [1], fun _ => .succeeding (seconds 7260)⟩,
        ⟨seconds 7320, [1], fun _ => .succeeding (seconds 7320)⟩]
    Along (World.tick .everyMinute) (NoLateFailure .everyMinute) w ticks ∧
      (trace (World.tick .everyMinute) (tickSends .everyMinute) w ticks).map Enqueue.reading =
        [seconds 7260, seconds 7320] ∧
      Separated .everyMinute w ticks := by
  intro w ticks
  have hfirst : ∀ id s, w.schedules.get id = some s → s = .every 60 1 1 (some 0) := by
    intro id s hs
    rcases ScheduleMap.get_insert_cases hs with h | h
    · exact h
    · rw [ScheduleMap.get_empty] at h
      cases h
  have hok : Along (World.tick .everyMinute) (NoLateFailure .everyMinute) w ticks := by
    refine ⟨?_, fun m hm => ⟨?_, fun m' hm' => ⟨?_, fun _ _ => trivial⟩⟩⟩
    · intro id s _ _ hsend
      cases hsend
    · intro id s hs _ _
      rw [World.tick_get hm] at hs
      obtain ⟨s₀, hs₀, rfl⟩ := Option.map_eq_some_iff.1 hs
      rw [hfirst id s₀ hs₀]
      exact ⟨rfl, ⟨seconds 7320, rfl⟩, rfl⟩
    · intro id s hs _ _
      rw [World.tick_get hm', World.tick_get hm, Option.map_map] at hs
      obtain ⟨s₀, hs₀, rfl⟩ := Option.map_eq_some_iff.1 hs
      rw [hfirst id s₀ hs₀]
      exact ⟨rfl, ⟨seconds 7380, rfl⟩, rfl⟩
  exact ⟨hok, by decide,
    one_enqueue_per_occurrence .everyMinute CronCrate.everyMinute_later w ticks hok⟩

/-- The UPDATE of an hourly schedule fails: the next check enqueues the same occurrence again. -/
theorem occurrence_enqueued_twice :
    ¬ ∀ (cron : CronCrate), cron.Later → ∀ (w : World) (ticks : List Tick),
      (trace (World.tick cron) (tickReadings cron) w ticks).Pairwise (· ≤ ·) →
        Separated cron w ticks := by
  intro h
  let w := World.ofRows [] [.every 3600 1 1 (some 0)]
  let t : Tick := ⟨seconds 7200, [1], fun _ => ⟨.ok (), seconds 7200, .failed "timeout"⟩⟩
  let t' : Tick := ⟨seconds 7260, [1], fun _ => .succeeding (seconds 7260)⟩
  have hsep := h .everyMinute CronCrate.everyMinute_later w [t, t'] (by decide)
  obtain ⟨pre, post, m, s, next, hnil, hm, hs, hnext, hlt⟩ :=
    (hsep [] t [t'] w w rfl rfl rfl).2 ⟨1, ⟨1, "schedule"⟩, seconds 7200⟩ (by decide)
      [] t' [] w rfl rfl ⟨1, ⟨1, "schedule"⟩, seconds 7260⟩ (by decide) rfl
  obtain ⟨rfl, rfl⟩ := List.nil_eq_append_iff.1 hnil
  cases hm
  cases hs
  cases hnext
  exact absurd hlt (by decide)

end RBackup2

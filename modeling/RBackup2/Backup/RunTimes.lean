import Mathlib.Algebra.Order.Archimedean.Real.Basic
import RBackup2.Backup.Runs
import RBackup2.Lib.Clock

/-!
# The times of a run

`create_run` writes the server's `NOW()` into `start_time`; `update_run` writes the client's
`Utc::now()` into `end_time` and what lies between the two into `duration_seconds`.

* `timesHistory_of_exec` — a record that has left `running` has exactly three events behind it, the
  INSERT, the command and the UPDATE of one call, and its times are computed from their clocks.
* `clocks_agree_iff` — the times are coherent exactly when the lead of the client's clock keeps the
  duration; `clocks_agree_forall_iff` — every duration is kept only by clocks that agree.
* `run_times_coherent_iff` — the same of every record of every run.
-/

set_option autoImplicit false

namespace RBackup2

open Transition

/-! ## The events behind a record -/

/-- There is a record with an id, and it was started at `now`. -/
def RunsTable.StartedAt (t : RunsTable) (id : Int) (now : DateTime) : Prop :=
  ∃ r, t.find id = some r ∧ r.startTime = now

/-- What the actions taken so far say of a call that is not done with its record. -/
structure CallHistory (as : List (Nat × BackupEvent)) (t : RunsTable) (i : Nat)
    (c : BackupCall) : Prop where
  create : c.pc = .create → eventsOf i as = []
  restic : ∀ id, c.pc = .restic id → ∃ o now, eventsOf i as = [.createRun o now] ∧
    t.StartedAt id now
  update : ∀ id u ret, c.pc = .update id u ret → ∃ o now os which spawn,
    eventsOf i as = [.createRun o now, .runRestic os which spawn] ∧ t.StartedAt id now

/-- A record as its UPDATE left it: the call that owns it has had its three events, with the
    clocks `now` and `now'`. -/
structure FinishedAt (as : List (Nat × BackupEvent)) (s : Calls) (r : Run)
    (now now' : DateTime) : Prop where
  events : ∃ i c ret o os which spawn o', s.parts[i]? = some c ∧ c.runId = some r.id ∧
    c.pc = .returned ret ∧
    eventsOf i as = [.createRun o now, .runRestic os which spawn, .updateRun o' now']
  startTime : r.startTime = now
  endTime : r.endTime = some (timestamptz now')
  durationSeconds : r.durationSeconds = some (extractEpoch (timestamptz now' - now))

/-- No statement changes `start_time`. -/
theorem BackupCall.step_startedAt {serde : SerdeJson} {t t' : RunsTable} {c c' : BackupCall}
    {ev : BackupEvent} (h : c.step serde t ev = some (t', c')) {id : Int} {now : DateTime}
    (hs : t.StartedAt id now) : t'.StartedAt id now := by
  obtain ⟨r, hr, hstart⟩ := hs
  obtain ⟨o, now, -, -, rfl, -⟩ | ⟨os, which, spawn, runId, -, -, rfl, -⟩ |
    ⟨o, now', runId, u, ret, ret', -, -, rfl, -⟩ := BackupCall.step_cases h
  · split
    · exact ⟨r, by rw [insert_find_old t _ _ _ _ (by have := t.find_lt hr; omega), hr], hstart⟩
    · exact ⟨r, hr, hstart⟩
  · exact ⟨r, hr, hstart⟩
  · split
    · refine ⟨_, by rw [update_find, hr, Option.map_some], ?_⟩
      split <;> exact hstart
    · exact ⟨r, hr, hstart⟩

/-- A call that does not step keeps its history. -/
theorem CallHistory.frame {serde : SerdeJson} {as : List (Nat × BackupEvent)} {t t' : RunsTable}
    {k : Nat} {d c c' : BackupCall} {a : Nat × BackupEvent} (hd : CallHistory as t k d)
    (hne : a.1 ≠ k) (h : c.step serde t a.2 = some (t', c')) :
    CallHistory (as ++ [a]) t' k d := by
  have hevents : eventsOf k (as ++ [a]) = eventsOf k as := eventsOf_concat_of_ne hne as
  refine ⟨fun hpc => hevents ▸ hd.create hpc, fun id hpc => ?_, fun id u ret hpc => ?_⟩
  · obtain ⟨o, now, he, hstart⟩ := hd.restic id hpc
    exact ⟨o, now, hevents ▸ he, BackupCall.step_startedAt h hstart⟩
  · obtain ⟨o, now, os, which, spawn, he, hstart⟩ := hd.update id u ret hpc
    exact ⟨o, now, os, which, spawn, hevents ▸ he, BackupCall.step_startedAt h hstart⟩

/-- A call that has returned is done with its record. -/
theorem CallHistory.returned (as : List (Nat × BackupEvent)) (t : RunsTable) (i : Nat)
    (c : BackupCall) (ret : Except AppError Int) :
    CallHistory as t i { c with pc := .returned ret } := by
  refine ⟨?_, ?_, ?_⟩
  · intro h; cases h
  · intro id h; cases h
  · intro id u ret h; cases h

/-- A call adds the event it takes to its history. -/
theorem CallHistory.step {serde : SerdeJson} {as : List (Nat × BackupEvent)} {t t' : RunsTable}
    {i : Nat} {c c' : BackupCall} {ev : BackupEvent} (hc : CallHistory as t i c)
    (h : c.step serde t ev = some (t', c')) : CallHistory (as ++ [(i, ev)]) t' i c' := by
  have hevents := eventsOf_concat_self i as ev
  obtain ⟨o, now, rfl, hpc, rfl, ⟨rfl, rfl⟩ | ⟨e, rfl⟩⟩ |
    ⟨os, which, spawn, runId, rfl, hpc, rfl, ⟨e, rfl⟩ | ⟨r, rfl⟩⟩ |
    ⟨o, now, runId, u, ret, ret', rfl, hpc, rfl, rfl⟩ := BackupCall.step_cases h
  · refine ⟨?_, ?_, ?_⟩
    · intro h; cases h
    · intro id h
      cases h
      rw [hc.create hpc] at hevents
      exact ⟨.done, now, hevents, _, insert_find_new t c.job.id c.job.deviceId "manual" now, rfl⟩
    · intro id u ret h; cases h
  · exact .returned _ _ i c _
  · exact .returned _ _ i c _
  · refine ⟨?_, ?_, ?_⟩
    · intro h; cases h
    · intro id h; cases h
    · intro id u ret h
      cases h
      obtain ⟨o, now, he, hstart⟩ := hc.restic runId hpc
      rw [he] at hevents
      exact ⟨o, now, os, which, spawn, hevents, hstart⟩
  · exact .returned _ _ i c _

/-- What is known of the times after some actions. -/
structure TimesHistory (serde : SerdeJson) (base : Int) (as : List (Nat × BackupEvent))
    (s : Calls) : Prop where
  inv : Calls.Inv serde base s
  calls : ∀ i c, s.parts[i]? = some c → CallHistory as s.shared i c
  rows : ∀ id r, s.shared.find id = some r → base ≤ id → r.status ≠ "running" →
    ∃ now now', FinishedAt as s r now now'

theorem TimesHistory.init (serde : SerdeJson) (t : RunsTable)
    (args : List (BackupJob × RemoteConfig)) : TimesHistory serde t.nextId [] (.init t args) := by
  refine ⟨.init serde t args, fun i c hc => ?_, fun id r hr hid _ => ?_⟩
  · obtain ⟨a, -, rfl⟩ := List.mem_map.1 (List.mem_of_getElem? hc)
    refine ⟨fun _ => rfl, ?_, ?_⟩
    · intro id h; cases h
    · intro id u ret h; cases h
  · have : id < t.nextId := t.find_lt hr
    omega

/-- A record that has left `running` stays as it is, and so does its owner. -/
theorem FinishedAt.frame {serde : SerdeJson} {as : List (Nat × BackupEvent)} {s : Calls}
    {r : Run} {now now' : DateTime} (hf : FinishedAt as s r now now') {a : Nat × BackupEvent}
    {t' : RunsTable} {c c' : BackupCall} (hi : s.parts[a.1]? = some c)
    (h : c.step serde s.shared a.2 = some (t', c')) :
    FinishedAt (as ++ [a]) ⟨t', s.parts.set a.1 c'⟩ r now now' := by
  obtain ⟨k, d, ret, o, os, which, spawn, o', hk, hid, hpc, hevents⟩ := hf.events
  have hne : a.1 ≠ k := by
    intro hak
    rw [hak, hk] at hi
    cases hi
    exact BackupCall.step_not_returned h ret hpc
  refine ⟨⟨k, d, ret, o, os, which, spawn, o', ?_, hid, hpc, ?_⟩, hf.startTime, hf.endTime,
    hf.durationSeconds⟩
  · rw [List.getElem?_set_ne hne, hk]
  · rw [eventsOf_concat_of_ne hne, hevents]

/-- The UPDATE of a call finishes the record the call was started with. -/
theorem CallHistory.finished {serde : SerdeJson} {base : Int} {as : List (Nat × BackupEvent)}
    {s : Calls} {i : Nat} {c : BackupCall} (hc : CallHistory as s.shared i c)
    (hok : CallOk serde base s.shared c) (hi : s.parts[i]? = some c) {id : Int} {u : RunUpdate}
    {ret : Except AppError Int} (hpc : c.pc = .update id u ret) {r : Run}
    (hr : s.shared.find id = some r) (o : DbOutcome) (now' : DateTime) (t' : RunsTable)
    (ret' : Except AppError Int) :
    ∃ now, FinishedAt (as ++ [(i, .updateRun o now')])
      ⟨t', s.parts.set i { c with pc := .returned ret' }⟩ (r.finish now' u) now now' := by
  obtain ⟨o₁, now, os, which, spawn, hevents, r₁, hr₁, hstart⟩ := hc.update id u ret hpc
  cases hr.symm.trans hr₁
  refine ⟨now, ⟨i, { c with pc := .returned ret' }, ret', o₁, os, which, spawn, o, ?_, ?_, rfl,
    ?_⟩, hstart, rfl, ?_⟩
  · rw [List.getElem?_set_self (List.getElem?_eq_some_iff.1 hi).1]
  · have hid : (r.finish now' u).id = r.id := rfl
    rw [hid, s.shared.find_id hr]
    exact (hok.update id u ret hpc).1
  · rw [eventsOf_concat_self, hevents]
    rfl
  · rw [Run.finish, hstart]

theorem TimesHistory.step {serde : SerdeJson} {base : Int} {as : List (Nat × BackupEvent)}
    {s s' : Calls} {a : Nat × BackupEvent} (hs : TimesHistory serde base as s)
    (h : Calls.step serde s a = some s') : TimesHistory serde base (as ++ [a]) s' := by
  have hinv := hs.inv.step h
  obtain ⟨c, t', c', hi, hstep, rfl⟩ := Interleaving.step_eq h
  refine ⟨hinv, fun k d hk => ?_, fun id r hr hid hst => ?_⟩
  · rcases getElem?_set_cases hk with ⟨rfl, rfl⟩ | ⟨hne, hk⟩
    · exact (hs.calls a.1 c hi).step hstep
    · exact (hs.calls k d hk).frame (Ne.symm hne) hstep
  · obtain hold | ⟨now, rfl⟩ | ⟨o, now', u, ret, ret', r₀, hev, hpc, rfl, hr₀, rfl⟩ :=
      BackupCall.step_row hstep hr
    · obtain ⟨now, now', hf⟩ := hs.rows id r hold hid hst
      exact ⟨now, now', hf.frame hi hstep⟩
    · -- a new row is `running`
      exact absurd rfl hst
    · obtain ⟨now, hf⟩ := (hs.calls a.1 c hi).finished (hs.inv.each a.1 c hi) hi hpc hr₀ o now' t'
        ret'
      have ha : (a.1, BackupEvent.updateRun o now') = a := Prod.ext rfl hev.symm
      rw [ha] at hf
      exact ⟨now, now', hf⟩

/-- **The three events behind every finished record**, over every interleaving. -/
theorem timesHistory_of_exec {serde : SerdeJson} {t : RunsTable}
    {args : List (BackupJob × RemoteConfig)} {as : List (Nat × BackupEvent)} {s : Calls}
    (h : exec (Calls.step serde) (.init t args) as = some s) :
    TimesHistory serde t.nextId as s :=
  exec_history (TimesHistory.init serde t args) (fun _ _ _ _ _ hP ha => hP.step ha) h

/-! ## Two clocks -/

/-- `NOW()` at the time `x` of the server's clock, in whole microseconds. -/
noncomputable def serverNow (x : ℝ) : DateTime := Clock.reading 1000 x

/-- `Utc::now()` at the time `y` of the client's clock, in whole nanoseconds. -/
noncomputable def utcNow (y : ℝ) : DateTime := Clock.reading 1 y

/-- What the rounding of the column adds to a reading from before `pgEpoch`. -/
noncomputable def slack (y : ℝ) : ℝ := if y < (pgEpoch : ℝ) then 999 else 0

/-- How far `end_time` is ahead of `start_time` besides the duration: the offset of the client's
    clock, the part of a microsecond `NOW()` leaves out, and the rounding of the column. -/
noncomputable def lead (x offset d : ℝ) : ℝ := offset + (x - serverNow x) + slack (x + d + offset)

/-- The times of a record whose run took `d` nanoseconds. -/
structure Run.Coherent (r : Run) (d : ℝ) : Prop where
  ordered : ∃ e, r.endTime = some e ∧ r.startTime ≤ e
  duration : ∃ n, r.durationSeconds = some n ∧ n = round (d / 1000000000) ∧ 0 ≤ n

theorem wholeMicros_serverNow (x : ℝ) : WholeMicros (serverNow x) :=
  Int.emod_eq_zero_of_dvd (Clock.dvd_reading 1000 x)

/-- What `end_time` has reached. -/
theorem le_endTime_iff {v : Int} (hv : WholeMicros v) (y : ℝ) :
    v ≤ timestamptz (utcNow y) ↔ (v : ℝ) ≤ y + slack y := by
  have hreached : ∀ w : Int, w ≤ utcNow y ↔ (w : ℝ) ≤ y :=
    fun w => Clock.le_reading_iff Int.one_pos (one_dvd w) y
  have hbefore : utcNow y < pgEpoch ↔ y < (pgEpoch : ℝ) := by
    rw [← not_le, ← not_le, hreached]
  rw [le_timestamptz_iff hv, slack]
  by_cases hy : y < (pgEpoch : ℝ)
  · rw [if_pos (hbefore.2 hy), if_pos hy, ← sub_le_iff_le_add, hreached]
    push_cast
    constructor <;> intro h <;> linarith
  · rw [if_neg (fun h => hy (hbefore.1 h)), if_neg hy, Int.add_zero, add_zero, hreached]

/-- The columns measure the duration with the lead. -/
theorem add_le_endTime_iff {w : Int} (hw : WholeMicros w) (x offset d : ℝ) :
    serverNow x + w ≤ timestamptz (utcNow (x + d + offset)) ↔ (w : ℝ) ≤ d + lead x offset d := by
  have hsum : WholeMicros (serverNow x + w) := by
    have := wholeMicros_serverNow x
    simp only [WholeMicros] at *
    lia
  rw [le_endTime_iff hsum, lead]
  push_cast
  constructor <;> intro h <;> linarith

/-- The times that are computed from two readings. -/
theorem Run.coherent_iff {r : Run} {now now' : DateTime} (hstart : r.startTime = now)
    (hend : r.endTime = some (timestamptz now'))
    (hdur : r.durationSeconds = some (extractEpoch (timestamptz now' - now))) {d : ℝ}
    (hd : 0 ≤ d) : r.Coherent d ↔
      now ≤ timestamptz now' ∧ extractEpoch (timestamptz now' - now) = round (d / 1000000000) := by
  constructor
  · rintro ⟨⟨e, he, hle⟩, n, hn, hround, -⟩
    rw [hend] at he
    rw [hdur] at hn
    cases he
    cases hn
    exact ⟨hstart ▸ hle, hround⟩
  · rintro ⟨hle, hround⟩
    have hnonneg : 0 ≤ round (d / 1000000000) := by
      rw [round_eq]
      positivity
    exact ⟨⟨_, hend, hstart ▸ hle⟩, _, hdur, hround, hround ▸ hnonneg⟩

/-- **Two clocks agree on a duration exactly when the lead keeps it.** -/
theorem clocks_agree_iff (x offset d : ℝ) :
    (serverNow x ≤ timestamptz (utcNow (x + d + offset)) ∧
      extractEpoch (timestamptz (utcNow (x + d + offset)) - serverNow x) =
        round (d / 1000000000)) ↔
      Clock.Keeps 1000000000 d (lead x offset d) := by
  generalize hn : round (d / 1000000000) = n
  have hzero := add_le_endTime_iff (w := 0) (by decide) x offset d
  have hlower := add_le_endTime_iff (w := n * 1000000000 - 500000000)
    (by simp only [WholeMicros]; lia) x offset d
  have hupper := add_le_endTime_iff (w := n * 1000000000 + 500000000)
    (by simp only [WholeMicros]; lia) x offset d
  rw [Int.add_zero, Int.cast_zero] at hzero
  push_cast at hlower hupper
  constructor
  · rintro ⟨hle, hround⟩
    rw [extractEpoch_eq_iff (by lia)] at hround
    refine ⟨hzero.1 hle, ?_, ?_⟩
    · rw [hn]
      have := hlower.1 (by lia)
      linarith
    · rw [hn]
      have := mt hupper.2 (by lia)
      linarith
  · rintro ⟨hnonneg, hlo, hhi⟩
    rw [hn] at hlo hhi
    have hle := hzero.2 hnonneg
    have hlo' := hlower.2 (by linarith)
    have hhi' := mt hupper.1 (by linarith)
    refine ⟨hle, ?_⟩
    rw [extractEpoch_eq_iff (by lia)]
    lia

/-- After 2000 and on whole microseconds the lead is the offset. -/
theorem lead_eq_offset {x offset d : ℝ} (hx : (serverNow x : ℝ) = x)
    (hy : (pgEpoch : ℝ) ≤ x + d + offset) : lead x offset d = offset := by
  rw [lead, hx, slack, if_neg (not_lt.2 hy), sub_self, add_zero, add_zero]

/-- **Every duration is measured right only by clocks that agree.** -/
theorem clocks_agree_forall_iff {x offset : ℝ} (hx : (serverNow x : ℝ) = x)
    (hy : (pgEpoch : ℝ) ≤ x + offset) :
    (∀ d, 0 ≤ d → serverNow x ≤ timestamptz (utcNow (x + d + offset)) ∧
      extractEpoch (timestamptz (utcNow (x + d + offset)) - serverNow x) =
        round (d / 1000000000)) ↔ offset = 0 := by
  rw [← Clock.forall_keeps_iff (by norm_num : (0 : ℝ) < 1000000000) offset]
  refine forall_congr' fun d => forall_congr' fun hd => ?_
  rw [clocks_agree_iff, lead_eq_offset hx (by linarith)]

/-! ## Every record of every run -/

/-- **The times of the records**, over every interleaving of any number of calls: a record that
    has left `running` has its INSERT and its UPDATE behind it, and whatever the offset of the
    client's clock and the duration between the two are, its times are coherent exactly when the
    lead keeps the duration. -/
theorem run_times_coherent_iff (serde : SerdeJson) (t : RunsTable)
    (args : List (BackupJob × RemoteConfig)) (as : List (Nat × BackupEvent)) (s : Calls)
    (h : exec (Calls.step serde) (.init t args) as = some s) (r : Run) (hr : r ∈ s.shared.rows)
    (hid : t.nextId ≤ r.id) (hst : r.status ≠ "running") :
    ∃ now now', FinishedAt as s r now now' ∧ ∀ x offset d : ℝ, 0 ≤ d → now = serverNow x →
      now' = utcNow (x + d + offset) →
        (r.Coherent d ↔ Clock.Keeps 1000000000 d (lead x offset d)) := by
  obtain ⟨now, now', hf⟩ :=
    (timesHistory_of_exec h).rows r.id r (s.shared.find_of_mem hr) hid hst
  refine ⟨now, now', hf, fun x offset d hd hnow hnow' => ?_⟩
  rw [Run.coherent_iff hf.startTime hf.endTime hf.durationSeconds hd, hnow, hnow',
    clocks_agree_iff]

/-- One backup that succeeds, with the given readings of the clocks. -/
def timedBackup (now now' : DateTime) : List (Nat × BackupEvent) :=
  [(0, .createRun .done now),
    (0, .runRestic .other (fun name => .ok ("/usr/bin/" ++ name))
      fun _ => .ok ⟨some 0, snapshotLine, ""⟩),
    (0, .updateRun .done now')]

def timedArgs : List (BackupJob × RemoteConfig) :=
  [(.plain 1 "blade", .ofRepository "sftp:user@host:/path" "secret")]

/-- The record such a backup leaves. -/
def timedRun (now now' : DateTime) : Run :=
  (newRun 1 1 "blade" "manual" now).finish now'
    (conclude .ofSnapshotLine 1 (.ok ⟨some 0, snapshotLine, ""⟩)).1

theorem exec_timedBackup (now now' : DateTime) :
    ∃ s, exec (Calls.step .ofSnapshotLine) (.init .empty timedArgs) (timedBackup now now') =
        some s ∧
      s.shared.rows = [timedRun now now'] :=
  ⟨_, rfl, rfl⟩

theorem timedRun_not_running (now now' : DateTime) : (timedRun now now').status ≠ "running" := by
  rcases ((conclude_spec .ofSnapshotLine 1 (.ok ⟨some 0, snapshotLine, ""⟩)).closed
    (newRun 1 1 "blade" "manual" now) now').1 with hst | hst
  · rw [timedRun, hst]
    decide
  · rw [timedRun, hst]
    decide

theorem FinishedAt.clocks_eq {a b now now' : DateTime} {s : Calls} {r : Run}
    (hf : FinishedAt (timedBackup a b) s r now now') : now = a ∧ now' = b := by
  obtain ⟨i, c, ret, o, os, which, spawn, o', -, -, -, hevents⟩ := hf.events
  by_cases hi : 0 = i
  · subst hi
    cases hevents
    exact ⟨rfl, rfl⟩
  · simp [timedBackup, eventsOf, hi] at hevents

theorem serverNow_seconds (n : Int) : serverNow ((seconds n : Int) : ℝ) = seconds n :=
  Clock.reading_of_dvd (by decide) ⟨n * 1000000, by rw [seconds]; lia⟩

theorem utcNow_intCast (n : Int) : utcNow (n : ℝ) = n :=
  Clock.reading_of_dvd Int.one_pos (one_dvd n)

/-- With a client a tenth of a second ahead, a backup of five seconds has coherent times. -/
theorem run_times_coherent_iff_tenth_ahead :
    ∃ s, exec (Calls.step .ofSnapshotLine) (.init .empty timedArgs)
        (timedBackup (seconds 1735689600) (seconds 1735689605 + 100000000)) = some s ∧
      s.shared.rows = [timedRun (seconds 1735689600) (seconds 1735689605 + 100000000)] ∧
      (timedRun (seconds 1735689600) (seconds 1735689605 + 100000000)).Coherent 5000000000 := by
  obtain ⟨s, hs, hrows⟩ :=
    exec_timedBackup (seconds 1735689600) (seconds 1735689605 + 100000000)
  refine ⟨s, hs, hrows, ?_⟩
  obtain ⟨now, now', hf, hiff⟩ := run_times_coherent_iff .ofSnapshotLine .empty timedArgs _ s hs _
    (by rw [hrows]; exact List.mem_cons_self) (by decide) (timedRun_not_running _ _)
  obtain ⟨hnow, hnow'⟩ := hf.clocks_eq
  have hclient : ((seconds 1735689600 : Int) : ℝ) + 5000000000 + 100000000 =
      ((seconds 1735689605 + 100000000 : Int) : ℝ) := by
    norm_num [seconds]
  refine (hiff ((seconds 1735689600 : Int) : ℝ) 100000000 5000000000 (by norm_num) ?_ ?_).2 ?_
  · rw [hnow, serverNow_seconds]
  · rw [hnow', hclient, utcNow_intCast]
  · rw [lead_eq_offset (by rw [serverNow_seconds])
      (by rw [hclient]; exact Int.cast_le.2 (by decide)), Clock.keeps_iff_round (by norm_num)]
    norm_num [round_eq_iff]

/-- With a client ten seconds behind, a backup of five seconds ends before it starts. -/
theorem run_times_client_behind :
    (¬ ∀ (serde : SerdeJson) (t : RunsTable) (args : List (BackupJob × RemoteConfig))
        (as : List (Nat × BackupEvent)) (s : Calls),
      exec (Calls.step serde) (.init t args) as = some s → ∀ r ∈ s.shared.rows, t.nextId ≤ r.id →
        r.status ≠ "running" → ∀ now now', FinishedAt as s r now now' →
          ∀ x offset d : ℝ, 0 ≤ d → now = serverNow x → now' = utcNow (x + d + offset) →
            r.Coherent d) ∧
    (timedRun (seconds 1735689600) (seconds 1735689595)).durationSeconds = some (-5) := by
  refine ⟨fun h => ?_, by decide⟩
  obtain ⟨s, hs, hrows⟩ := exec_timedBackup (seconds 1735689600) (seconds 1735689595)
  have hr : timedRun (seconds 1735689600) (seconds 1735689595) ∈ s.shared.rows := by
    rw [hrows]
    exact List.mem_cons_self
  obtain ⟨now, now', hf⟩ := (timesHistory_of_exec hs).rows _ _ (s.shared.find_of_mem hr)
    (by decide) (timedRun_not_running _ _)
  have hclient : ((seconds 1735689600 : Int) : ℝ) + 5000000000 + -10000000000 =
      ((seconds 1735689595 : Int) : ℝ) := by
    norm_num [seconds]
  obtain ⟨hnow, hnow'⟩ := hf.clocks_eq
  obtain ⟨e, he, hle⟩ := (h .ofSnapshotLine .empty timedArgs _ s hs _ hr (by decide)
    (timedRun_not_running _ _) now now' hf ((seconds 1735689600 : Int) : ℝ) (-10000000000)
    5000000000 (by norm_num) (by rw [hnow, serverNow_seconds])
    (by rw [hnow', hclient, utcNow_intCast])).ordered
  cases he
  exact absurd hle (by decide)

end RBackup2

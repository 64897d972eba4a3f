import Mathlib.Data.List.Sort
import RBackup2.Process

/-!
# The report of a test

`--test-backup` shows the results of the device's most recent run, next to the id of the run it has
made.  The two are the same exactly if no other run of the device has started since.

* `RunSort.byKey`, `RunSort.first` — ways to sort: some way, and one with a given run in front.
* `LatestRun` — the device's latest run, with none beside it.
* `test_reports_own_run_iff` — when the results shown are those of the run that was made.
-/

set_option autoImplicit false

namespace RBackup2

open Sql Transition

/-! ## Sorting by the start -/

/-- The start of a run. -/
def startKey (r : Row) : DateTime := (Value.toTimestamp (r "start_time")).getD 0

/-- A run with a key no smaller starts no earlier. -/
theorem startsNoEarlier_of_key {a b : Row} (h : startKey b ≤ startKey a) :
    Database.startsNoEarlier a b = true := by
  unfold Database.startsNoEarlier
  split
  · rename_i t u ht hu
    have hle : u ≤ t := by simpa [startKey, ht, hu, Value.toTimestamp] using h
    exact decide_eq_true hle
  · rfl

/-- Of runs the schema admits, only such a run does. -/
theorem startsNoEarlier_iff_key {a b : Row} (ha : Admits runsTable a) (hb : Admits runsTable b) :
    Database.startsNoEarlier a b = true ↔ startKey b ≤ startKey a := by
  have hcolumn : ∀ {r : Row}, Admits runsTable r → r "start_time" = .timestamp (startKey r) := by
    intro r hr
    have hc := hr (notNull "start_time" .timestamptz) (by decide)
    obtain ⟨t, ht⟩ := Value.timestamp_of_hasType hc.1 (hc.2 rfl)
    have hval : r "start_time" = .timestamp t := ht
    rw [startKey, hval]
    rfl
  unfold Database.startsNoEarlier
  rw [hcolumn ha, hcolumn hb]
  exact decide_eq_true_iff

/-- One run starts no earlier than another, by the keys. -/
abbrev NoEarlier : Row → Row → Prop := Order.Preimage startKey (· ≥ ·)

/-- Rows in the order of their keys, the latest first. -/
def sortByKey (rows : List Row) : List Row := rows.mergeSort fun a b => decide (NoEarlier a b)

theorem pairwise_sortByKey (rows : List Row) : (sortByKey rows).Pairwise NoEarlier :=
  List.pairwise_mergeSort' NoEarlier rows

/-- The runs of a device. -/
def Database.runsOf (db : Database) (deviceId : String) : List Row :=
  db.runs.filter fun r => r "device_id" == .text deviceId

/-- Some way to sort. -/
def RunSort.byKey : RunSort where
  rows db deviceId := sortByKey (db.runsOf deviceId)
  perm _ _ := List.mergeSort_perm _ _
  sorted _ _ := (pairwise_sortByKey _).imp startsNoEarlier_of_key

/-- A run that none of the device's starts after may come first. -/
theorem RunSort.exists_first {db : Database} {deviceId : String} {x : Row}
    (hx : x ∈ db.runsOf deviceId) (hlast : ∀ y ∈ db.runsOf deviceId, NoEarlier x y) :
    ∃ sort : RunSort, (sort.rows db deviceId).head? = some x := by
  classical
  -- the runs of this device of this database are sorted behind `x`, all others as above
  let rows : Database → String → List Row := fun db' d =>
    if db' = db ∧ d = deviceId then x :: sortByKey ((db.runsOf deviceId).erase x)
    else sortByKey (db'.runsOf d)
  have hrows : rows db deviceId = x :: sortByKey ((db.runsOf deviceId).erase x) := if_pos ⟨rfl, rfl⟩
  refine ⟨⟨rows, fun db' d => ?_, fun db' d => ?_⟩, congrArg List.head? hrows⟩
  · by_cases h : db' = db ∧ d = deviceId
    · obtain ⟨rfl, rfl⟩ := h
      rw [hrows]
      exact ((List.mergeSort_perm _ _).cons x).trans (List.perm_cons_erase hx).symm
    · rw [show rows db' d = sortByKey (db'.runsOf d) from if_neg h]
      exact List.mergeSort_perm _ _
  · by_cases h : db' = db ∧ d = deviceId
    · obtain ⟨rfl, rfl⟩ := h
      rw [hrows]
      refine (List.pairwise_cons.2 ⟨fun y hy => ?_, pairwise_sortByKey _⟩).imp
        startsNoEarlier_of_key
      exact hlast y (List.mem_of_mem_erase ((List.mergeSort_perm _ _).mem_iff.1 hy))
    · rw [show rows db' d = sortByKey (db'.runsOf d) from if_neg h]
      exact (pairwise_sortByKey _).imp startsNoEarlier_of_key

/-! ## The most recent run -/

/-- What `get_recent_runs` with a limit of one returns. -/
theorem Server.getRecentRun_iff {s : Server} {sort : RunSort} {deviceId : String} {run : Run} :
    s.getRecentRun sort deviceId = .ok (some run) ↔
      ∃ r, (sort.rows s.database deviceId).head? = some r ∧
        (∃ vs, decodeRow RBackup2.runsTable runFields r = .ok vs) ∧ Row.toRun r = run := by
  unfold Server.getRecentRun
  cases sort.rows s.database deviceId with
  | nil => simp [fetchAll, Except.map]
  | cons r rest =>
    simp only [List.take_succ_cons, List.take_zero, List.head?_cons, Option.some.injEq,
      exists_eq_left', List.map_cons, List.map_nil, fetchAll]
    cases decodeRow RBackup2.runsTable runFields r with
    | error e => simp [Except.map]
    | ok vs => simp [Except.map]

/-- The run with the id is the device's latest, with none beside it, and can be decoded. -/
def LatestRun (c : Contents Table) (deviceId : String) (runId : Int) : Prop :=
  ∃ r ∈ c .runs, r "id" = .int runId ∧ r "device_id" = .text deviceId ∧ Readable .runs r ∧
    ∀ x ∈ c .runs, x "device_id" = .text deviceId → x ≠ r → startKey x < startKey r

/-- The first of a sorted list is as late as all of it. -/
theorem noEarlier_head {R : Row → Row → Prop} {rows : List Row} (h : rows.Pairwise R) {r y : Row}
    (hhead : rows.head? = some r) (hy : y ∈ rows) (hne : y ≠ r) : R r y := by
  cases rows with
  | nil => cases hhead
  | cons r' rest =>
    cases hhead
    exact (List.pairwise_cons.1 h).1 y ((List.mem_cons.1 hy).resolve_left hne)

/-- **Whatever way the server sorts, the most recent run is that one.** -/
theorem latestRun_iff {s : Server} (hs : schema.Valid s.contents) (deviceId : String)
    (runId : Int) :
    (∀ sort, ∃ run, s.getRecentRun sort deviceId = .ok (some run) ∧ run.id = runId) ↔
      LatestRun s.contents deviceId runId := by
  have hmem : ∀ {r : Row}, r ∈ s.database.runsOf deviceId ↔
      r ∈ s.contents .runs ∧ r "device_id" = .text deviceId := by
    intro r
    unfold Database.runsOf
    rw [List.mem_filter, beq_iff_eq]
    rfl
  have hadm : ∀ r ∈ s.contents .runs, Admits RBackup2.runsTable r := fun r hr =>
    (hs.fits .runs r hr).1
  constructor
  · intro hown
    -- the run that comes first in every order, and another one that may come first instead
    have hid : ∀ {x : Row}, x ∈ s.contents .runs → x "device_id" = .text deviceId →
        (∀ y ∈ s.database.runsOf deviceId, NoEarlier x y) →
        x "id" = .int runId ∧ Readable .runs x := by
      intro x hx hdevice hlast
      obtain ⟨sort, hfirst⟩ := RunSort.exists_first (hmem.2 ⟨hx, hdevice⟩) hlast
      obtain ⟨run, hrecent, hrun⟩ := hown sort
      obtain ⟨r, hhead, hdecodes, rfl⟩ := Server.getRecentRun_iff.1 hrecent
      cases hfirst.symm.trans hhead
      rw [toRun_id (hadm x hx), hrun]
      exact ⟨rfl, (decodeRow_ok_iff (hadm x hx) runs_gaps.1).1 hdecodes⟩
    obtain ⟨run, hrecent, -⟩ := hown .byKey
    obtain ⟨r, hhead, -, -⟩ := Server.getRecentRun_iff.1 hrecent
    have hperm : ∀ {y : Row}, y ∈ sortByKey (s.database.runsOf deviceId) ↔
        y ∈ s.database.runsOf deviceId := (List.mergeSort_perm _ _).mem_iff
    obtain ⟨hr, hdevice⟩ := hmem.1 (hperm.1 (List.mem_of_mem_head? hhead))
    have hlast : ∀ y ∈ s.database.runsOf deviceId, NoEarlier r y := by
      intro y hy
      by_cases hyr : y = r
      · rw [hyr]
        exact Int.le_refl _
      · exact noEarlier_head (pairwise_sortByKey _) hhead (hperm.2 hy) hyr
    obtain ⟨hrid, hreadable⟩ := hid hr hdevice hlast
    refine ⟨r, hr, hrid, hdevice, hreadable, fun x hx hxdevice hne => ?_⟩
    by_contra hlt
    have hle : startKey r ≤ startKey x := Int.not_lt.1 hlt
    obtain ⟨hxid, -⟩ := hid hx hxdevice fun y hy => Int.le_trans (hlast y hy) hle
    have hids : ((s.contents .runs).map fun r => r "id").Nodup :=
      (nodup_filterMap_key (t := .runs) hadm).1 (hs.distinct .runs _ List.mem_cons_self)
    exact hne (List.inj_on_of_nodup_map hids hx hr (hxid.trans hrid.symm))
  · rintro ⟨r, hr, hid, hdevice, hreadable, hlast⟩ sort
    have hrows := hmem.2 ⟨hr, hdevice⟩
    have hperm : ∀ {y : Row}, y ∈ sort.rows s.database deviceId ↔
        y ∈ s.database.runsOf deviceId := (sort.perm s.database deviceId).mem_iff
    obtain ⟨h, hhead⟩ : ∃ h, (sort.rows s.database deviceId).head? = some h := by
      cases hlist : sort.rows s.database deviceId with
      | nil =>
        have hin := hperm.2 hrows
        rw [hlist] at hin
        cases hin
      | cons h rest => exact ⟨h, rfl⟩
    have hsame : h = r := by
      by_contra hne
      obtain ⟨hh, hhdevice⟩ := hmem.1 (hperm.1 (List.mem_of_mem_head? hhead))
      have hlater := noEarlier_head (sort.sorted s.database deviceId) hhead (hperm.2 hrows)
        (Ne.symm hne)
      have hle := (startsNoEarlier_iff_key (hadm h hh) (hadm r hr)).1 hlater
      exact absurd (hlast h hh hhdevice hne) (Int.not_lt.2 hle)
    refine ⟨Row.toRun r, Server.getRecentRun_iff.2 ⟨r, hsame ▸ hhead, ?_, rfl⟩, ?_⟩
    · exact (decodeRow_ok_iff (hadm r hr) runs_gaps.1).2 hreadable
    · have hown := toRun_id (hadm r hr)
      rw [hid, Value.int.injEq] at hown
      exact hown.symm

/-- **When a test shows the results of its own run.**  In every state that processes, and anybody
    else who writes to the tables, can bring a test to that has made its run: the results it shows
    next are those of that run, whatever order the server sorts in, exactly if the run is still of
    the device and all others of the device have started before it. -/
theorem test_reports_own_run_iff (json : String → Json) (cron : CronCrate) (serde : SerdeJson)
    {s : Server} (hs : s.database.Admitted) {processes : List Process}
    {as : List ProcessesAction} {s' : Processes}
    (h : exec (Processes.step json cron serde) ⟨s, processes⟩ as = some s') {p : Process}
    {job : BackupJob} {runId : Int} (hphase : p.phase = .testReport job runId) :
    (∀ sort, ∃ run, run.id = runId ∧
      p.step json cron serde s'.shared (.getRecentRuns (.ok ()) sort) =
        some (s'.shared, p.finish (.ok (some (runId, run))))) ↔
      LatestRun s'.shared.contents job.deviceId runId := by
  have hvalid : schema.Valid s'.shared.contents :=
    Processes.valid_of_exec (Server.valid_of_admitted hs) h
  have hstep : ∀ sort run, p.step json cron serde s'.shared (.getRecentRuns (.ok ()) sort) =
      some (s'.shared, p.finish (.ok (some (runId, run)))) ↔
        s'.shared.getRecentRun sort job.deviceId = .ok (some run) := by
    intro sort run
    simp only [Process.step, hphase]
    cases s'.shared.getRecentRun sort job.deviceId with
    | error e => simp [Process.finish]
    | ok o => cases o <;> simp [Process.finish]
  rw [← latestRun_iff hvalid]
  refine forall_congr' fun sort => exists_congr fun run => ?_
  rw [hstep, and_comm]

/-- A test of a job, up to the report. -/
def sampleTest : List ProcessEvent :=
  (Start.quiet 0 .byTable).map ProcessEvent.start ++ ([.getJobById (.ok ()),
    .backup (.createRun .done 0),
    .backup (.runRestic .other (fun name => .ok ("/usr/bin/" ++ name))
      fun _ => .ok ⟨some 0, snapshotLine, ""⟩),
    .backup (.updateRun .done 60), .backupReturns] : List ProcessEvent)

/-- The device and the run the process is about to report on. -/
def Process.reporting (p : Process) : Option (String × Int) :=
  match p.phase with
  | .testReport job runId => some (job.deviceId, runId)
  | _ => none

/-- The client of the device starts a backup during the test: the test may show its results. -/
theorem test_reports_own_run_iff_other :
    let as : List ProcessesAction := sampleTest.map (ProcessesAction.process 0) ++
      [.other (.client (.createRun 1 "blade" "manual") 30)]
    ∃ s, exec (Processes.step (fun _ => .null) .everyMinute .ofSnapshotLine)
        ⟨.configured, [.ofDevice "blade" (some 1)]⟩ as = some s ∧
      ∃ p, s.parts = [p] ∧ ∃ sort, ¬ ∃ run, run.id = 1 ∧
        p.step (fun _ => .null) .everyMinute .ofSnapshotLine s.shared
          (.getRecentRuns (.ok ()) sort) = some (s.shared, p.finish (.ok (some (1, run)))) := by
  intro as
  have hsome : (exec (Processes.step (fun _ => .null) .everyMinute .ofSnapshotLine)
      ⟨.configured, [.ofDevice "blade" (some 1)]⟩ as).isSome = true := by decide +kernel
  have hend : ∀ s ∈ exec (Processes.step (fun _ => .null) .everyMinute .ofSnapshotLine)
      ⟨.configured, [.ofDevice "blade" (some 1)]⟩ as,
      s.parts.map Process.reporting = [some ("blade", 1)] ∧
        ∃ x ∈ s.shared.contents .runs, x "device_id" = .text "blade" ∧
          ∀ r ∈ s.shared.contents .runs, r "id" = .int 1 →
            x "id" ≠ r "id" ∧ startKey r ≤ startKey x := by decide +kernel
  have hvalid : schema.Valid Server.configured.contents :=
    Server.valid_of_exec Server.scheduled_valid (Server.exec_after _ _)
  obtain ⟨s, h⟩ := Option.isSome_iff_exists.1 hsome
  obtain ⟨hparts, x, hx, hdevice, hlater⟩ := hend s h
  obtain ⟨p, hp, hreporting⟩ := List.map_eq_singleton_iff.1 hparts
  refine ⟨s, h, p, hp, not_forall.1 fun hown => ?_⟩
  cases hphase : p.phase with
  | testReport job runId =>
    simp only [Process.reporting, hphase, Option.some.injEq, Prod.mk.injEq] at hreporting
    obtain ⟨hblade, rfl⟩ := hreporting
    obtain ⟨r, hr, hid, -, -, hlast⟩ := (test_reports_own_run_iff (fun _ => .null) .everyMinute
      .ofSnapshotLine (Server.admitted_of_valid hvalid) h hphase).1 hown
    obtain ⟨hne, hle⟩ := hlater r hr hid
    have hlt := hlast x hx (hblade ▸ hdevice) fun heq => hne (by rw [heq])
    exact absurd hlt (Int.not_lt.2 hle)
  | _ => simp [Process.reporting, hphase] at hreporting

end RBackup2

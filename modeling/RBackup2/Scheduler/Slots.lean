import RBackup2.Scheduler.Executor

/-!
# Registrations as slots

`running_jobs` is a map from a device to one job, and `can_execute` counts its entries.  Here any
number of tasks call `mark_running` and `mark_completed`, once each and in that order, in any
interleaving and whether or not `can_execute` was asked.

* `SlotTask.step` — the two atomic steps of a task.
* `Exact` — every task in flight is registered, and the entries counted for a device are its
  tasks in flight; `Exact.step_iff` says which steps keep it.
* `slots_exact_iff` — it holds in every state of a run exactly when no task registers while
  another task of its device is in flight.
-/

set_option autoImplicit false

namespace RBackup2

open Transition

/-- The number of entries `can_execute` counts for a device. -/
def runningCount (running : HashMap String Uuid) (deviceId : String) : Nat :=
  (running.entries.filter fun e => e.1 == deviceId).length

theorem canExecute_eq (ex : JobExecutor) (running : HashMap String Uuid) (deviceId : String) :
    ex.canExecute running deviceId =
      decide (runningCount running deviceId < ex.maxConcurrentPerDevice) := rfl

theorem runningCount_markRunning (running : HashMap String Uuid) (d e : String) (j : Uuid) :
    runningCount (markRunning d j running) e = if e = d then 1 else runningCount running e := by
  unfold runningCount
  rw [running_count, running_count, markRunning, AList.keys_insert]
  split
  · rename_i he
    subst he
    rw [List.count_cons_self, List.count_eq_zero.2 running.keys_nodup.not_mem_erase]
  · rename_i he
    rw [List.count_cons_of_ne (Ne.symm he), List.count_erase_of_ne he]

theorem runningCount_markCompleted (running : HashMap String Uuid) (d e : String) :
    runningCount (markCompleted d running) e = if e = d then 0 else runningCount running e := by
  unfold runningCount
  rw [running_count, running_count, markCompleted, AList.keys_erase]
  split
  · rename_i he
    subst he
    exact List.count_eq_zero.2 running.keys_nodup.not_mem_erase
  · rename_i he
    rw [List.count_erase_of_ne he]

/-! ## Tasks -/

inductive SlotPhase where
  | waiting
  | running
  | completed
  deriving DecidableEq, Repr

/-- An execution for a job of a device. -/
structure SlotTask where
  deviceId : String
  jobId : Uuid
  phase : SlotPhase
  deriving DecidableEq, Repr

inductive SlotEvent where
  | markRunning
  | markCompleted
  deriving DecidableEq, Repr

def SlotTask.step (running : HashMap String Uuid) (t : SlotTask) :
    SlotEvent → Option (HashMap String Uuid × SlotTask)
  | .markRunning =>
    match t.phase with
    | .waiting =>
      some (RBackup2.markRunning t.deviceId t.jobId running, { t with phase := .running })
    | _ => none
  | .markCompleted =>
    match t.phase with
    | .running => some (RBackup2.markCompleted t.deviceId running, { t with phase := .completed })
    | _ => none

/-- The map `running_jobs`, and the tasks at work on it. -/
abbrev Slots := Interleaving (HashMap String Uuid) SlotTask

/-- Tasks that have not marked themselves yet. -/
def Slots.init (tasks : List (String × Uuid)) : Slots where
  shared := ∅
  parts := tasks.map fun t => ⟨t.1, t.2, .waiting⟩

def Slots.step (s : Slots) (a : Nat × SlotEvent) : Option Slots :=
  Interleaving.step SlotTask.step s a

/-- The task is between `mark_running` and `mark_completed`, on the device. -/
def SlotTask.holds (t : SlotTask) (deviceId : String) : Bool :=
  t.phase == .running && t.deviceId == deviceId

/-- The tasks of a device in flight. -/
def Slots.inFlight (s : Slots) (deviceId : String) : Nat :=
  s.parts.countP fun t => t.holds deviceId

/-- **Everything a step can do.** -/
theorem Slots.step_cases {s s' : Slots} {a : Nat × SlotEvent} (h : s.step a = some s') :
    ∃ t, s.parts[a.1]? = some t ∧
      ((a.2 = .markRunning ∧ t.phase = .waiting ∧
          s' = ⟨markRunning t.deviceId t.jobId s.shared,
            s.parts.set a.1 { t with phase := .running }⟩) ∨
        (a.2 = .markCompleted ∧ t.phase = .running ∧
          s' = ⟨markCompleted t.deviceId s.shared,
            s.parts.set a.1 { t with phase := .completed }⟩)) := by
  obtain ⟨t, running, t', hi, hstep, rfl⟩ := Interleaving.step_eq h
  refine ⟨t, hi, ?_⟩
  cases hev : a.2 with
  | markRunning =>
    rw [hev] at hstep
    simp only [SlotTask.step] at hstep
    split at hstep
    · rename_i hp
      cases hstep
      exact .inl ⟨rfl, hp, rfl⟩
    · cases hstep
  | markCompleted =>
    rw [hev] at hstep
    simp only [SlotTask.step] at hstep
    split at hstep
    · rename_i hp
      cases hstep
      exact .inr ⟨rfl, hp, rfl⟩
    · cases hstep

/-! ## Exact registrations -/

/-- Every task in flight is registered, and `can_execute` counts the tasks in flight. -/
structure Exact (s : Slots) : Prop where
  registered : ∀ t ∈ s.parts, t.phase = .running → s.shared.lookup t.deviceId = some t.jobId
  count : ∀ d, runningCount s.shared d = s.inFlight d

theorem Exact.init (tasks : List (String × Uuid)) : Exact (.init tasks) := by
  constructor
  · intro t ht hrun
    obtain ⟨x, -, rfl⟩ := List.mem_map.1 ht
    cases hrun
  · intro d
    have hnone : (Slots.init tasks).inFlight d = 0 := by
      unfold Slots.inFlight
      rw [List.countP_eq_zero]
      intro t ht
      obtain ⟨x, -, rfl⟩ := List.mem_map.1 ht
      simp [SlotTask.holds]
    rw [hnone]
    rfl

theorem Slots.inFlight_pos {s : Slots} {t : SlotTask} (ht : t ∈ s.parts)
    (hrun : t.phase = .running) : 0 < s.inFlight t.deviceId := by
  unfold Slots.inFlight
  rw [List.countP_pos_iff]
  exact ⟨t, ht, by simp [SlotTask.holds, hrun]⟩

theorem Slots.inFlight_set {s : Slots} {i : Nat} {t : SlotTask} (hi : s.parts[i]? = some t)
    (t' : SlotTask) (running : HashMap String Uuid) (d : String) :
    Slots.inFlight ⟨running, s.parts.set i t'⟩ d + (if t.holds d then 1 else 0) =
      s.inFlight d + (if t'.holds d then 1 else 0) :=
  countP_set_add hi t' fun u => u.holds d

/-- There is one entry a device at most. -/
theorem Exact.inFlight_le_one {s : Slots} (hs : Exact s) (d : String) : s.inFlight d ≤ 1 := by
  rw [← hs.count, runningCount, running_count]
  exact List.nodup_iff_count_le_one.1 s.shared.keys_nodup d

/-- No task registers while another task of its device is in flight. -/
def NoOverlap (s : Slots) (a : Nat × SlotEvent) : Prop :=
  a.2 = .markRunning → ∀ t, s.parts[a.1]? = some t → s.inFlight t.deviceId = 0

/-- **The steps that keep the registrations exact**: every `mark_completed` does, and a
    `mark_running` does if and only if its device has no task in flight. -/
theorem Exact.step_iff {s s' : Slots} {a : Nat × SlotEvent} (hs : Exact s)
    (h : s.step a = some s') : Exact s' ↔ NoOverlap s a := by
  obtain ⟨t, hi, ⟨hev, hp, rfl⟩ | ⟨hev, hp, rfl⟩⟩ := Slots.step_cases h
  · -- `mark_running`
    have hfl : ∀ d, Slots.inFlight ⟨markRunning t.deviceId t.jobId s.shared,
        s.parts.set a.1 { t with phase := .running }⟩ d =
          s.inFlight d + if t.deviceId = d then 1 else 0 := by
      intro d
      have hset := Slots.inFlight_set hi { t with phase := .running }
        (markRunning t.deviceId t.jobId s.shared) d
      simpa [SlotTask.holds, hp] using hset
    constructor
    · intro hs' hrun u hu
      cases hi.symm.trans hu
      have hcount := hs'.count t.deviceId
      rw [hfl, if_pos rfl, runningCount_markRunning, if_pos rfl] at hcount
      omega
    · intro hno
      have hzero : s.inFlight t.deviceId = 0 := hno hev t hi
      constructor
      · intro u hu hrun
        rcases List.mem_or_eq_of_mem_set hu with hu | rfl
        · have hne : u.deviceId ≠ t.deviceId := by
            intro hd
            have hpos := Slots.inFlight_pos hu hrun
            rw [hd] at hpos
            omega
          show (markRunning t.deviceId t.jobId s.shared).lookup u.deviceId = some u.jobId
          rw [markRunning, AList.lookup_insert_ne hne]
          exact hs.registered u hu hrun
        · exact AList.lookup_insert _
      · intro d
        rw [hfl]
        show runningCount (markRunning t.deviceId t.jobId s.shared) d = _
        rw [runningCount_markRunning]
        by_cases hd : d = t.deviceId
        · rw [hd, if_pos rfl, if_pos rfl, hzero]
        · rw [if_neg hd, if_neg (Ne.symm hd), hs.count, Nat.add_zero]
  · -- `mark_completed`: the device had this one task in flight
    have hfl : ∀ d, Slots.inFlight ⟨markCompleted t.deviceId s.shared,
        s.parts.set a.1 { t with phase := .completed }⟩ d + (if t.deviceId = d then 1 else 0) =
          s.inFlight d := by
      intro d
      have hset := Slots.inFlight_set hi { t with phase := .completed }
        (markCompleted t.deviceId s.shared) d
      simpa [SlotTask.holds, hp] using hset
    refine ⟨fun _ hrun => ?_, fun _ => ?_⟩
    · rw [hev] at hrun
      cases hrun
    have hzero := hfl t.deviceId
    have hone := hs.inFlight_le_one t.deviceId
    rw [if_pos rfl] at hzero
    constructor
    · intro u hu hrun
      have hne : u.deviceId ≠ t.deviceId := by
        intro hd
        have hpos := Slots.inFlight_pos hu hrun
        rw [hd] at hpos
        omega
      rcases List.mem_or_eq_of_mem_set hu with hu | rfl
      · show (markCompleted t.deviceId s.shared).lookup u.deviceId = some u.jobId
        rw [markCompleted, AList.lookup_erase_ne hne]
        exact hs.registered u hu hrun
      · cases hrun
    · intro d
      show runningCount (markCompleted t.deviceId s.shared) d = _
      rw [runningCount_markCompleted]
      have hd := hfl d
      by_cases hde : d = t.deviceId
      · subst hde
        rw [if_pos rfl]
        omega
      · rw [if_neg (Ne.symm hde)] at hd
        rw [if_neg hde, hs.count]
        omega

/-- **When completion releases only its own slot.**  For any tasks of any devices and jobs and any
    interleaving of their `mark_running` and `mark_completed`: every task in flight is registered
    and the count of `can_execute` is the number of tasks in flight, in every state of the run, if
    and only if no task marks itself running while another task of its device is in flight. -/
theorem slots_exact_iff (tasks : List (String × Uuid)) (as : List (Nat × SlotEvent)) (s : Slots)
    (h : exec Slots.step (.init tasks) as = some s) :
    (∀ pre post m, as = pre ++ post → exec Slots.step (.init tasks) pre = some m → Exact m) ↔
      Along Slots.step NoOverlap (.init tasks) as :=
  forall_states_iff_along (fun _ _ _ hs hstep => hs.step_iff hstep) (.init tasks) h

/-- Two executions of a device one after the other, with one of another device in between: the
    registrations are exact throughout. -/
theorem slots_exact_iff_two_devices :
    let tasks : List (String × Uuid) := [("blade", 1), ("blade", 2), ("rack", 3)]
    let as : List (Nat × SlotEvent) := [(0, .markRunning), (2, .markRunning), (0, .markCompleted),
      (1, .markRunning)]
    ∃ s, exec Slots.step (.init tasks) as = some s ∧ runningCount s.shared "blade" = 1 ∧
      ∀ pre post m, as = pre ++ post → exec Slots.step (.init tasks) pre = some m → Exact m := by
  intro tasks as
  have hover : Along Slots.step NoOverlap (.init tasks) as := by
    refine ⟨?_, fun s₁ h₁ => ⟨?_, fun s₂ h₂ => ⟨?_, fun s₃ h₃ => ⟨?_, fun _ _ => trivial⟩⟩⟩⟩
    · intro _ t ht
      cases ht
      decide
    · intro _ t ht
      cases h₁
      cases ht
      decide
    · intro hev
      cases hev
    · intro _ t ht
      cases h₁
      cases h₂
      cases h₃
      cases ht
      decide
  exact ⟨_, rfl, by decide, (slots_exact_iff tasks as _ rfl).2 hover⟩

/-- Two executions of a device overlap: the first to complete removes the other's entry, and one
    task in flight is counted as none. -/
theorem completion_releases_another_slot :
    ¬ ∀ (tasks : List (String × Uuid)) (as : List (Nat × SlotEvent)) (s : Slots),
      exec Slots.step (.init tasks) as = some s →
      (∀ t ∈ s.parts, t.phase = .running → s.shared.lookup t.deviceId = some t.jobId) ∧
        ∀ d, runningCount s.shared d = s.inFlight d := by
  intro h
  have hcount := (h [("blade", 1), ("blade", 2)]
    [(0, .markRunning), (1, .markRunning), (0, .markCompleted)] _ rfl).2 "blade"
  revert hcount
  decide

end RBackup2

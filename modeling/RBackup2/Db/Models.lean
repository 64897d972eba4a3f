import Mathlib.Algebra.Group.Nat.Defs
import Mathlib.Data.List.AList

/-!
# Data model

`db/models.rs`: the rows of `backup_jobs`, `schedules` and `runs`, with the columns some modelled
function reads or writes.

* `DateTime` counts nanoseconds since the Unix epoch, as `chrono::DateTime<Utc>` does;
  `timestamptz` is the value a `TIMESTAMP WITH TIME ZONE` column gives back, which keeps whole
  microseconds only.
* `Uuid.display` is the hyphenated lower-case form `format!("{}", id)` prints;
  `Uuid.display_inj` — it determines the UUID.
* `HashMap` is a finite map whose enumeration order means nothing.
-/

set_option autoImplicit false

namespace RBackup2

/-- `std::collections::HashMap`. -/
abbrev HashMap (K V : Type) := AList (fun _ : K => V)

/-! ## Time -/

/-- Nanoseconds since 1970-01-01T00:00:00Z. -/
abbrev DateTime := Int

/-- `chrono::Duration::seconds`. -/
def seconds (n : Int) : Int := n * 1000000000

/-- 2000-01-01T00:00:00Z, the epoch PostgreSQL timestamps are encoded from. -/
def pgEpoch : DateTime := seconds 946684800

/-- The value a timestamp column holds after `t` was bound to it: whole microseconds from
    `pgEpoch`, rounded towards it. -/
def timestamptz (t : DateTime) : DateTime := pgEpoch + (t - pgEpoch).tdiv 1000 * 1000

/-- Readings at the resolution of the column. -/
def WholeMicros (t : DateTime) : Prop := t % 1000 = 0

instance (t : DateTime) : Decidable (WholeMicros t) := inferInstanceAs (Decidable (_ = _))

theorem timestamptz_mono {a b : DateTime} (h : a ≤ b) : timestamptz a ≤ timestamptz b := by
  have hdiv : (a - pgEpoch).tdiv 1000 ≤ (b - pgEpoch).tdiv 1000 :=
    Int.tdiv_le_tdiv (by decide) (by lia)
  unfold timestamptz
  lia

theorem timestamptz_eq_self {t : DateTime} (h : WholeMicros t) : timestamptz t = t := by
  have hd : (1000 : Int) ∣ t - pgEpoch := by
    simp only [WholeMicros, pgEpoch, seconds] at *
    lia
  rw [timestamptz, Int.tdiv_mul_cancel hd]
  lia

/-- The rounding as a bound: what lies before `pgEpoch` is rounded up. -/
theorem le_timestamptz_iff {v t : DateTime} (hv : WholeMicros v) :
    v ≤ timestamptz t ↔ v ≤ t + if t < pgEpoch then 999 else 0 := by
  simp only [WholeMicros] at hv
  rw [timestamptz]
  by_cases ht : t < pgEpoch
  · have hneg : (t - pgEpoch).tdiv 1000 = -((pgEpoch - t) / 1000) := by
      rw [← Int.neg_sub pgEpoch t, Int.neg_tdiv, Int.tdiv_eq_ediv_of_nonneg (by lia)]
    rw [if_pos ht, hneg]
    simp only [pgEpoch, seconds] at *
    lia
  · rw [if_neg ht, Int.tdiv_eq_ediv_of_nonneg (by lia)]
    simp only [pgEpoch, seconds] at *
    lia

theorem wholeMicros_add_seconds {t : DateTime} (h : WholeMicros t) (n : Int) :
    WholeMicros (t + seconds n) := by
  simp only [WholeMicros, seconds] at *
  lia

/-! ## Identifiers -/

/-- A 128-bit UUID. -/
abbrev Uuid := BitVec 128

/-- The hexadecimal digit of a nibble, in lower case. -/
def hexDigit (n : Nat) : Char := "0123456789abcdef".toList.getD n '0'

/-- The `n` lowest hexadecimal digits of a number, most significant first. -/
def hexDigits : Nat → Nat → List Char
  | 0, _ => []
  | n + 1, v => hexDigits n (v / 16) ++ [hexDigit (v % 16)]

/-- `impl Display for Uuid`: groups of 8, 4, 4, 4 and 12 digits. -/
def Uuid.display (u : Uuid) : String :=
  let ds := hexDigits 32 u.toNat
  String.ofList (ds.take 8 ++ '-' :: (ds.drop 8).take 4 ++ '-' :: (ds.drop 12).take 4 ++
    '-' :: (ds.drop 16).take 4 ++ '-' :: ds.drop 20)

theorem hexDigit_inj : ∀ a < 16, ∀ b < 16, hexDigit a = hexDigit b → a = b := by decide

theorem hexDigit_mem (n : Nat) : hexDigit n ∈ "0123456789abcdef".toList := by
  rw [hexDigit, List.getD_eq_getElem?_getD]
  cases h : "0123456789abcdef".toList[n]? with
  | none => decide
  | some c => exact List.mem_of_getElem? h

theorem mem_hexDigits {c : Char} {n v : Nat} (h : c ∈ hexDigits n v) :
    c ∈ "0123456789abcdef".toList := by
  induction n generalizing v with
  | zero => simp [hexDigits] at h
  | succ n ih =>
    rcases List.mem_append.1 h with h | h
    · exact ih h
    · rw [List.mem_singleton.1 h]
      exact hexDigit_mem _

theorem hexDigits_inj {n v w : Nat} (h : hexDigits n v = hexDigits n w) :
    v % 16 ^ n = w % 16 ^ n := by
  induction n generalizing v w with
  | zero => rw [Nat.pow_zero, Nat.mod_one, Nat.mod_one]
  | succ n ih =>
    obtain ⟨hrest, hlast⟩ := List.append_inj' h rfl
    have hdigit := hexDigit_inj _ (Nat.mod_lt v (by decide)) _ (Nat.mod_lt w (by decide))
      (List.cons.inj hlast).1
    rw [Nat.pow_succ', Nat.mod_mul, Nat.mod_mul, hdigit, ih hrest]

/-- A UUID's text without its hyphens is its digits. -/
theorem Uuid.display_digits (u : Uuid) :
    u.display.toList.filter (· ≠ '-') = hexDigits 32 u.toNat := by
  have hself : ∀ l ⊆ hexDigits 32 u.toNat, l.filter (· ≠ '-') = l := by
    intro l hl
    refine List.filter_eq_self.2 fun c hc => ?_
    have hmem := mem_hexDigits (hl hc)
    rw [decide_eq_true_eq]
    rintro rfl
    exact absurd hmem (by decide)
  have htake : ∀ k n, ((hexDigits 32 u.toNat).drop k).take n ⊆ hexDigits 32 u.toNat :=
    fun k n c hc => List.mem_of_mem_drop (List.mem_of_mem_take hc)
  have hdrop : ∀ k n, (hexDigits 32 u.toNat).drop (k + n) =
      ((hexDigits 32 u.toNat).drop k).drop n := fun k n => by rw [List.drop_drop]
  have hhyphen : decide ('-' ≠ '-') = false := by decide
  simp only [display, String.toList_ofList, List.filter_append, List.filter_cons, hhyphen,
    Bool.false_eq_true, if_false, hself _ (htake _ _), hself _ (List.take_subset _ _),
    hself _ (List.drop_subset _ _), List.append_assoc]
  rw [hdrop 16 4, List.take_append_drop, hdrop 12 4, List.take_append_drop, hdrop 8 4,
    List.take_append_drop, List.take_append_drop]

theorem Uuid.mem_display {c : Char} {u : Uuid} (h : c ∈ u.display.toList) :
    c = '-' ∨ c ∈ "0123456789abcdef".toList := by
  by_cases hc : c = '-'
  · exact .inl hc
  · right
    have hmem : c ∈ u.display.toList.filter (· ≠ '-') :=
      List.mem_filter.2 ⟨h, by simpa using hc⟩
    rw [display_digits] at hmem
    exact mem_hexDigits hmem

/-- **Two UUIDs with the same text are the same.** -/
theorem Uuid.display_inj {u v : Uuid} (h : u.display = v.display) : u = v := by
  have hdigits : hexDigits 32 u.toNat = hexDigits 32 v.toNat := by
    rw [← display_digits, ← display_digits, h]
  have hmod := hexDigits_inj hdigits
  have hpow : 16 ^ 32 = 2 ^ 128 := by decide
  rw [hpow, Nat.mod_eq_of_lt u.isLt, Nat.mod_eq_of_lt v.isLt] at hmod
  exact BitVec.eq_of_toNat_eq hmod

/-! ## Rows -/

/-- `serde_json::Value`; a number that is no integer is kept as its text. -/
inductive Json where
  | null
  | bool (b : Bool)
  | int (n : Int)
  | float (text : String)
  | string (s : String)
  | array (items : List Json)
  | object (fields : List (String × Json))

/-- `Value::as_array`. -/
def Json.asArray : Json → Option (List Json)
  | .array items => some items
  | _ => none

/-- `Value::as_str`. -/
def Json.asStr : Json → Option String
  | .string s => some s
  | _ => none

structure BackupJob where
  id : Uuid
  deviceId : String
  name : String
  sourcePaths : List String
  excludePatterns : Option (List String)
  tags : Option (List String)
  resticArgs : Json
  enabled : Bool
  originName : Option String
  accountId : Option Uuid

/-- A job of a device that backs up `/home`. -/
def BackupJob.plain (id : Uuid) (deviceId : String) : BackupJob where
  id := id
  deviceId := deviceId
  name := deviceId ++ "/home"
  sourcePaths := ["/home"]
  excludePatterns := none
  tags := none
  resticArgs := .array []
  enabled := true
  originName := none
  accountId := none

/-- `BackupJob::get_restic_tags`. -/
def BackupJob.getResticTags (self : BackupJob) : List String :=
  ["backup:" ++ self.id.display, "backup_name=" ++ self.name] ++
    (match self.originName with
      | some originName => ["origin=" ++ originName]
      | none => []) ++
    (match self.accountId with
      | some accountId => ["account_id=" ++ accountId.display]
      | none => [])

structure Schedule where
  id : Int
  jobId : Uuid
  scheduleType : String
  cronExpression : Option String
  intervalSeconds : Option Int
  enabled : Bool
  lastRunAt : Option DateTime
  nextRunAt : Option DateTime
  deriving DecidableEq, Repr

/-- `Schedule::is_cron`. -/
def Schedule.isCron (self : Schedule) : Bool := self.scheduleType == "cron"

/-- `Schedule::is_interval`. -/
def Schedule.isInterval (self : Schedule) : Bool := self.scheduleType == "interval"

/-- What defines when a schedule runs, as opposed to the two times the client keeps. -/
structure Schedule.SameDefinition (s s' : Schedule) : Prop where
  id : s'.id = s.id
  jobId : s'.jobId = s.jobId
  scheduleType : s'.scheduleType = s.scheduleType
  cronExpression : s'.cronExpression = s.cronExpression
  intervalSeconds : s'.intervalSeconds = s.intervalSeconds
  enabled : s'.enabled = s.enabled

namespace Schedule.SameDefinition

theorem setTimes (s : Schedule) (last next : Option DateTime) :
    s.SameDefinition { s with lastRunAt := last, nextRunAt := next } :=
  ⟨rfl, rfl, rfl, rfl, rfl, rfl⟩

theorem refl (s : Schedule) : s.SameDefinition s := setTimes s s.lastRunAt s.nextRunAt

theorem symm {s s' : Schedule} (h : s.SameDefinition s') : s'.SameDefinition s :=
  ⟨h.id.symm, h.jobId.symm, h.scheduleType.symm, h.cronExpression.symm, h.intervalSeconds.symm,
    h.enabled.symm⟩

theorem trans {s s' s'' : Schedule} (h : s.SameDefinition s') (h' : s'.SameDefinition s'') :
    s.SameDefinition s'' :=
  ⟨h'.id.trans h.id, h'.jobId.trans h.jobId, h'.scheduleType.trans h.scheduleType,
    h'.cronExpression.trans h.cronExpression, h'.intervalSeconds.trans h.intervalSeconds,
    h'.enabled.trans h.enabled⟩

end Schedule.SameDefinition

/-- An interval schedule of a job, with its next time. -/
def Schedule.every (n id : Int) (jobId : Uuid) (nextRunAt : Option DateTime) : Schedule where
  id := id
  jobId := jobId
  scheduleType := "interval"
  cronExpression := none
  intervalSeconds := some n
  enabled := true
  lastRunAt := none
  nextRunAt := nextRunAt

/-- A cron schedule of a job, with its next time. -/
def Schedule.cronAt (e : String) (id : Int) (jobId : Uuid) (nextRunAt : Option DateTime) :
    Schedule where
  id := id
  jobId := jobId
  scheduleType := "cron"
  cronExpression := some e
  intervalSeconds := none
  enabled := true
  lastRunAt := none
  nextRunAt := nextRunAt

structure Run where
  id : Int
  jobId : Uuid
  deviceId : String
  startTime : DateTime
  endTime : Option DateTime
  status : String
  exitCode : Option Int
  errorMessage : Option String
  filesNew : Option Int
  filesChanged : Option Int
  filesUnmodified : Option Int
  dirsNew : Option Int
  dirsChanged : Option Int
  dirsUnmodified : Option Int
  dataAddedBytes : Option Int
  totalFilesProcessed : Option Int
  totalBytesProcessed : Option Int
  durationSeconds : Option Int
  snapshotId : Option String
  resticOutput : Option String
  resticErrors : Option String
  triggeredBy : String
  deriving DecidableEq, Repr

/-- `Run::is_running`. -/
def Run.isRunning (self : Run) : Bool := self.status == "running"

/-- `Run::is_success`. -/
def Run.isSuccess (self : Run) : Bool := self.status == "success"

/-- `Run::is_failed`. -/
def Run.isFailed (self : Run) : Bool := self.status == "failed"

end RBackup2

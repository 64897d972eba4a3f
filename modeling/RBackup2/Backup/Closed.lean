import RBackup2.Backup.Decode
import RBackup2.Backup.Recorded
import RBackup2.Backup.RunTimes
import RBackup2.Db.Registration

/-!
# Which records are closed

The server refuses an UPDATE its columns have no place for: a text with a NUL character in it, a
snapshot id of more than 255 characters, a number or a duration beyond its column.  restic's output
goes into such columns as it is, so a backup can end and its record stay `running`.  Snapshot ids
that are too long by blanks only, which the server cuts, and texts of more than 1 GB are left out.

* `RunUpdate.Fits` — what the columns can hold; `updateRun_accepted_iff` — exactly when the server
  takes the UPDATE of a record that is there.
* `conclude_fits_iff` — what that asks of restic's output.
* `ClosedBy` — the INSERT, the command and the UPDATE of a call, which fits.
* `record_closed_iff` — where nothing else fails, a record is closed exactly by these.
-/

set_option autoImplicit false

namespace RBackup2

open Sql Transition

/-! ## What the columns hold -/

def WithoutNul (text : String) : Prop := text.toList.contains (Char.ofNat 0) = false

instance (text : String) : Decidable (WithoutNul text) := inferInstanceAs (Decidable (_ = _))

/-- The columns of `runs` have a place for the UPDATE of a run that took so many seconds. -/
@[mk_iff]
structure RunUpdate.Fits (u : RunUpdate) (seconds : Int) : Prop where
  texts : ∀ o ∈ [u.errorMessage, u.resticOutput, u.resticErrors], ∀ text ∈ o, WithoutNul text
  snapshotId : ∀ text ∈ u.snapshotId, text.length ≤ 255 ∧ WithoutNul text
  integers : ∀ o ∈ [u.exitCode, u.filesNew, u.filesChanged, u.filesUnmodified, some seconds],
    ∀ n ∈ o, -2 ^ 31 ≤ n ∧ n < 2 ^ 31
  bigint : ∀ n ∈ u.dataAddedBytes, -2 ^ 63 ≤ n ∧ n < 2 ^ 63

theorem sendable_orNull (o : Option String) :
    sendable (orNull .text o) = true ↔ ∀ text ∈ o, WithoutNul text := by
  cases o <;> simp [orNull, sendable, WithoutNul]

theorem updateRun_sendable {runId : Int} {endTime : DateTime} {u : RunUpdate}
    (hstatus : WithoutNul u.status) :
    (Query.updateRun runId endTime u).params.all sendable = true ↔
      (∀ o ∈ [u.errorMessage, u.resticOutput, u.resticErrors], ∀ text ∈ o, WithoutNul text) ∧
        ∀ text ∈ u.snapshotId, WithoutNul text := by
  have hints : ∀ o : Option Int, sendable (orNull .int o) = true := by
    intro o
    cases o <;> rfl
  have htext : sendable (.text u.status) = true := by simpa [sendable, WithoutNul] using hstatus
  simp only [Query.updateRun, List.all_cons, List.all_nil, Bool.and_eq_true, hints, htext,
    sendable_orNull, List.forall_mem_cons, List.not_mem_nil, false_implies, implies_true]
  simp only [sendable]
  tauto

theorem admits_runValues {r : Row} (hr : Admits runsTable r) {endTime : DateTime} {u : RunUpdate}
    {seconds : Int} (hseconds : durationSeconds endTime r = .int seconds)
    (hstatus : u.status.length ≤ 50) :
    Admits runsTable (r.assign (runValues endTime u r)) ↔
      (orNull Value.text u.snapshotId).hasType (.varchar 255) = true ∧
      (∀ o ∈ [u.exitCode, u.filesNew, u.filesChanged, u.filesUnmodified, some seconds],
        (orNull Value.int o).hasType .integer = true) ∧
      (orNull Value.int u.dataAddedBytes).hasType .bigint = true := by
  have htext : ∀ o : Option String, (orNull Value.text o).hasType .text = true := by
    intro o
    cases o <;> rfl
  have hvarchar : (Value.text u.status).hasType (.varchar 50) = true := decide_eq_true hstatus
  have htime : (Value.timestamp (timestamptz endTime)).hasType .timestamptz = true := rfl
  have hlast : orNull Value.int (some seconds) = .int seconds := rfl
  rw [hr.assign_iff]
  simp [runsTable, runValues, List.lookup_cons, List.lookup_nil, notNull, nullable, hseconds, htext,
    hvarchar, htime, hlast]
  tauto

/-- What is written to a record that is there fits if its types do. -/
theorem fits_runValues {r : Row} (hr : Admits runsTable r) {endTime startTime : DateTime}
    {u : RunUpdate} (hstart : r "start_time" = .timestamp startTime)
    (hstatus : u.status = "success" ∨ u.status = "failed") :
    (∀ text ∈ u.snapshotId, WithoutNul text) ∧
      (∀ o ∈ [u.errorMessage, u.resticOutput, u.resticErrors], ∀ text ∈ o, WithoutNul text) ∧
      schema.Fits .runs (r.assign (runValues endTime u r)) ↔
    u.Fits (extractEpoch (timestamptz endTime - startTime)) := by
  have hseconds : durationSeconds endTime r =
      .int (extractEpoch (timestamptz endTime - startTime)) := by
    simp [durationSeconds, hstart]
  have hlength : u.status.length ≤ 50 := by
    rcases hstatus with h | h <;> rw [h] <;> decide
  have hcheck : schema.check .runs (r.assign (runValues endTime u r)) = true := by
    refine decide_eq_true ?_
    have hval : r.assign (runValues endTime u r) "status" = .text u.status := rfl
    rw [checkStatus, hval]
    rcases hstatus with h | h <;> rw [h] <;> decide
  have hadm : Admits (schema.columns .runs) (r.assign (runValues endTime u r)) ↔ _ :=
    admits_runValues hr hseconds hlength
  rw [Schema.Fits, and_iff_left hcheck, hadm]
  simp only [hasType_orNull]
  constructor
  · rintro ⟨hsnap, htexts, hlen, hints, hbig⟩
    refine ⟨htexts, fun text ht => ⟨of_decide_eq_true (hlen text ht), hsnap text ht⟩,
      fun o ho n hn => of_decide_eq_true (hints o ho n hn),
      fun n hn => of_decide_eq_true (hbig n hn)⟩
  · intro h
    exact ⟨fun text ht => (h.snapshotId text ht).2, h.texts,
      fun text ht => decide_eq_true (h.snapshotId text ht).1,
      fun o ho n hn => decide_eq_true (h.integers o ho n hn),
      fun n hn => decide_eq_true (h.bigint n hn)⟩

/-- The UPDATE sets neither a key nor a reference. -/
theorem runValues_keys (endTime : DateTime) (u : RunUpdate) (r : Row) :
    ∀ n ∈ (runValues endTime u r).map Prod.fst, n ∉ schema.keyColumns .runs := by
  have hkeys : ∀ n ∈ ["end_time", "status", "exit_code", "error_message", "files_new",
      "files_changed", "files_unmodified", "data_added_bytes", "snapshot_id", "restic_output",
      "restic_errors", "duration_seconds"], n ∉ schema.keyColumns .runs := by decide
  exact hkeys

/-- **Exactly when the server takes the UPDATE of a record that is there.** -/
theorem updateRun_accepted_iff {s : Server} (hs : schema.Valid s.contents) {r : Run}
    (hr : r ∈ s.records) (now endTime : DateTime) {u : RunUpdate}
    (hstatus : u.status = "success" ∨ u.status = "failed") :
    (∃ s', s.execute (.client (.updateRun r.id endTime u) now) = some s') ↔
      u.Fits (extractEpoch (timestamptz endTime - r.startTime)) := by
  obtain ⟨row, hrow, rfl⟩ := List.mem_map.1 hr
  have hadm : Admits runsTable row := (hs.fits .runs row hrow).1
  have hid := toRun_id hadm
  obtain ⟨startTime, hstart⟩ : ∃ t, row "start_time" = .timestamp t :=
    Value.timestamp_of_hasType (hadm (notNull "start_time" .timestamptz) (by decide)).1
      (ne_null hadm (by decide))
  have hstartTime : (Row.toRun row).startTime = startTime := by
    simp [Row.toRun, hstart, Value.toTimestamp]
  have hnul : WithoutNul u.status := by
    rcases hstatus with h | h <;> rw [h] <;> decide
  have hchecks : schema.Checks s.contents
      ((Query.updateRun (Row.toRun row).id endTime u).statement s.contents) ↔
      schema.Fits .runs (row.assign (runValues endTime u row)) := by
    refine (Schema.checks_update_iff hs ?_).trans ⟨fun h => ?_, fun h x hx hp => ?_⟩
    · exact fun x _ => runValues_keys endTime u x
    · exact h row hrow (by simp [hid])
    · -- the id is the primary key
      have hkey : x "id" = row "id" := by simpa [← hid] using hp
      have heq : x = row :=
        hs.eq_of_key hx hrow hkey (id_ne_null (t := .runs) (hs.fits .runs x hx).1)
      rw [heq]
      exact h
  rw [Server.accepts_iff]
  simp only [ClientStatement.query]
  rw [hchecks, updateRun_sendable hnul, hstartTime, ← fits_runValues hadm hstart hstatus]
  tauto

/-! ## What restic's output is to these columns -/

theorem deInt_range {bits : Nat} {v : Json} {n : Int} (h : deInt bits v = .ok n) :
    -2 ^ (bits - 1) ≤ n ∧ n < 2 ^ (bits - 1) := by
  unfold deInt at h
  split at h
  · split at h
    · rename_i hrange
      cases h
      exact hrange
    · cases h
  · cases h

theorem deOption_range {bits : Nat} {v : Json} {o : Option Int}
    (h : deOption (deInt bits) v = .ok o) :
    ∀ n ∈ o, -2 ^ (bits - 1) ≤ n ∧ n < 2 ^ (bits - 1) := by
  unfold deOption at h
  split at h
  · cases h
    simp
  · cases hv : deInt bits v with
    | error e =>
      rw [hv] at h
      cases h
    | ok n =>
      rw [hv] at h
      cases h
      simpa using deInt_range hv

theorem optionalField_range {bits : Nat} {fields : List (String × Json)} {name : String}
    {o : Option Int} (h : optionalField (deInt bits) fields name = .ok o) :
    ∀ n ∈ o, -2 ^ (bits - 1) ≤ n ∧ n < 2 ^ (bits - 1) := by
  obtain ⟨field, -, h⟩ := bind_ok h
  cases field with
  | none =>
    cases h
    simp
  | some v => exact deOption_range h

/-- The numbers of a summary that was decoded are those of its fields' types. -/
theorem ofJson_range {v : Json} {summary : ResticSummary}
    (h : ResticSummary.ofJson v = .ok summary) :
    (∀ o ∈ [summary.filesNew, summary.filesChanged, summary.filesUnmodified], ∀ n ∈ o,
      -2 ^ 31 ≤ n ∧ n < 2 ^ 31) ∧ ∀ n ∈ summary.dataAdded, -2 ^ 63 ≤ n ∧ n < 2 ^ 63 := by
  unfold ResticSummary.ofJson at h
  split at h
  · obtain ⟨r1, e1, h⟩ := bind_ok h
    obtain ⟨r2, e2, h⟩ := bind_ok h
    obtain ⟨r3, e3, h⟩ := bind_ok h
    obtain ⟨r4, -, h⟩ := bind_ok h
    obtain ⟨r5, -, h⟩ := bind_ok h
    obtain ⟨r6, -, h⟩ := bind_ok h
    obtain ⟨r7, e7, h⟩ := bind_ok h
    obtain ⟨r8, -, h⟩ := bind_ok h
    obtain ⟨r9, -, h⟩ := bind_ok h
    obtain ⟨r10, -, h⟩ := bind_ok h
    cases h
    simp only [List.forall_mem_cons, List.not_mem_nil, false_implies, implies_true, and_true]
    exact ⟨⟨optionalField_range e1, optionalField_range e2, optionalField_range e3⟩,
      optionalField_range e7⟩
  · obtain ⟨r1, e1, h⟩ := bind_ok h
    obtain ⟨r2, e2, h⟩ := bind_ok h
    obtain ⟨r3, e3, h⟩ := bind_ok h
    obtain ⟨r4, -, h⟩ := bind_ok h
    obtain ⟨r5, -, h⟩ := bind_ok h
    obtain ⟨r6, -, h⟩ := bind_ok h
    obtain ⟨r7, e7, h⟩ := bind_ok h
    obtain ⟨r8, -, h⟩ := bind_ok h
    obtain ⟨r9, -, h⟩ := bind_ok h
    obtain ⟨r10, -, h⟩ := bind_ok h
    cases h
    simp only [List.forall_mem_cons, List.not_mem_nil, false_implies, implies_true, and_true]
    exact ⟨⟨deOption_range e1, deOption_range e2, deOption_range e3⟩, deOption_range e7⟩
  · cases h
  · cases h

/-- A summary the loop stops at was decoded from one of the lines. -/
theorem findSummary_decoded {serde : SerdeJson} :
    ∀ {lines : List String} {summary : ResticSummary}, findSummary serde lines = some summary →
      ∃ line, serde.summary line = .ok summary
  | [], _, h => by cases h
  | line :: rest, summary, h => by
    rw [findSummary] at h
    split at h
    · exact findSummary_decoded h
    · split at h
      · exact findSummary_decoded h
      · split at h
        · split at h
          · rename_i hline
            cases h
            exact ⟨_, hline⟩
          · exact findSummary_decoded h
        · exact findSummary_decoded h

/-- The statistics of an output are numbers of their fields' types. -/
theorem parse_range {parse : String → Except String Json} {stdout : String} {stats : BackupStats}
    (h : parseResticJsonOutput (.ofParser parse) stdout = .ok stats) :
    (∀ n ∈ [stats.filesNew, stats.filesChanged, stats.filesUnmodified],
      -2 ^ 31 ≤ n ∧ n < 2 ^ 31) ∧
        -2 ^ 63 ≤ stats.dataAddedBytes ∧ stats.dataAddedBytes < 2 ^ 63 := by
  unfold parseResticJsonOutput at h
  split at h
  · cases h
  · rename_i summary hsum
    obtain ⟨line, hline⟩ := findSummary_decoded hsum
    obtain ⟨v, -, hjson⟩ := bind_ok hline
    obtain ⟨hints, hbig⟩ := ofJson_range hjson
    -- a counter that is missing counts as 0
    have hgetD : ∀ {o : Option Int} {b : Nat}, (∀ n ∈ o, -2 ^ b ≤ n ∧ n < 2 ^ b) →
        -2 ^ b ≤ o.getD 0 ∧ o.getD 0 < 2 ^ b := by
      intro o b ho
      have hpos : (0 : Int) < 2 ^ b := by positivity
      cases o with
      | none => exact ⟨by simp, hpos⟩
      | some n => exact ho n rfl
    split at h
    · cases h
    · cases h
      simp only [List.forall_mem_cons, List.not_mem_nil, false_implies, implies_true,
        and_true] at hints ⊢
      exact ⟨⟨hgetD hints.1, hgetD hints.2.1, hgetD hints.2.2⟩, hgetD hbig⟩

/-- A snapshot id in the output is not too long by blanks only. -/
def Uncut (serde : SerdeJson) : Except String Output → Prop
  | .error _ => True
  | .ok output => ∀ stats, parseResticJsonOutput serde output.stdout = .ok stats →
      cutBlanks 255 stats.snapshotId = stats.snapshotId

/-- The columns of `runs` have a place for what running a command came to. -/
def Recordable (serde : SerdeJson) : Except String Output → Prop
  | .error e => WithoutNul e
  | .ok output => WithoutNul output.stdout ∧ WithoutNul output.stderr ∧
      (∀ n ∈ output.code, -2 ^ 31 ≤ n ∧ n < 2 ^ 31) ∧
      (output.success = true → ∀ stats, parseResticJsonOutput serde output.stdout = .ok stats →
        Storable 255 stats.snapshotId)

theorem withoutNul_append {a b : String} : WithoutNul (a ++ b) ↔ WithoutNul a ∧ WithoutNul b := by
  simp [WithoutNul, String.toList_append]

/-- The texts of the parser's own errors. -/
theorem parse_error_withoutNul {serde : SerdeJson} {stdout : String} {e : AppError}
    (h : parseResticJsonOutput serde stdout = .error e) :
    WithoutNul ("Failed to parse restic output: " ++ e.display) := by
  unfold parseResticJsonOutput at h
  split at h
  · cases h
    decide +kernel
  · split at h
    · cases h
      decide +kernel
    · cases h

theorem extractErrorMessage_withoutNul {stderr : String} (h : WithoutNul stderr) :
    WithoutNul (extractErrorMessage stderr) := by
  unfold extractErrorMessage
  split
  · exact h
  · decide

theorem failureUpdate_fits_iff {msg : String} {code : Option Int} {stdout stderr : Option String}
    {seconds : Int} : (failureUpdate msg code stdout stderr).Fits seconds ↔
      (WithoutNul msg ∧ (∀ text ∈ stdout, WithoutNul text) ∧ ∀ text ∈ stderr, WithoutNul text) ∧
        (∀ n ∈ code, -2 ^ 31 ≤ n ∧ n < 2 ^ 31) ∧ -2 ^ 31 ≤ seconds ∧ seconds < 2 ^ 31 := by
  simp [RunUpdate.fits_iff, failureUpdate]

theorem successUpdate_fits_iff {code : Int} {stats : BackupStats} {stdout : String}
    {stderr : Option String} {seconds : Int} :
    (successUpdate code stats stdout stderr).Fits seconds ↔
      (WithoutNul stdout ∧ ∀ text ∈ stderr, WithoutNul text) ∧
        (stats.snapshotId.length ≤ 255 ∧ WithoutNul stats.snapshotId) ∧
        ((-2 ^ 31 ≤ code ∧ code < 2 ^ 31) ∧
          (∀ n ∈ [stats.filesNew, stats.filesChanged, stats.filesUnmodified],
            -2 ^ 31 ≤ n ∧ n < 2 ^ 31) ∧ -2 ^ 31 ≤ seconds ∧ seconds < 2 ^ 31) ∧
        -2 ^ 63 ≤ stats.dataAddedBytes ∧ stats.dataAddedBytes < 2 ^ 63 := by
  simp [RunUpdate.fits_iff, successUpdate]
  tauto

theorem spawnError_withoutNul (e : String) :
    WithoutNul (AppError.display (.backup (.executionFailed
      ("Failed to execute restic: " ++ e)))) ↔ WithoutNul e := by
  have hdisplay : AppError.display (.backup (.executionFailed
      ("Failed to execute restic: " ++ e))) =
        "Backup error: " ++ ("Backup execution failed: " ++ ("Failed to execute restic: " ++ e)) :=
    rfl
  have htexts : WithoutNul "Backup error: " ∧ WithoutNul "Backup execution failed: " ∧
      WithoutNul "Failed to execute restic: " := by decide +kernel
  rw [hdisplay, withoutNul_append, withoutNul_append, withoutNul_append]
  tauto

/-- A text that is not cut is taken exactly if it fits. -/
theorem storable_iff {n : Nat} {text : String} (h : cutBlanks n text = text) :
    Storable n text ↔ text.length ≤ n ∧ WithoutNul text := by
  rw [Storable, ← length_cutBlanks_le_iff, h, WithoutNul]

/-- **The UPDATE fits exactly if restic's output does**, and the seconds do. -/
theorem conclude_fits_iff (parse : String → Except String Json) (runId : Int) (spawn : Spawn)
    (cmd : ResticCommand) (job : BackupJob) {seconds : Int}
    (huncut : Uncut (.ofParser parse) (spawn (cmd.buildBackupCommand job))) :
    (conclude (.ofParser parse) runId (executeResticCommand spawn cmd job)).1.Fits seconds ↔
      Recordable (.ofParser parse) (spawn (cmd.buildBackupCommand job)) ∧
        -2 ^ 31 ≤ seconds ∧ seconds < 2 ^ 31 := by
  unfold executeResticCommand
  revert huncut
  cases spawn (cmd.buildBackupCommand job) with
  | error e =>
    intro _
    simp only [conclude, Recordable]
    rw [failureUpdate_fits_iff, spawnError_withoutNul]
    simp
  | ok output =>
    intro huncut
    -- a process without an exit code is recorded with -1
    have hcode : (-2 ^ 31 ≤ output.code.getD (-1) ∧ output.code.getD (-1) < 2 ^ 31) ↔
        ∀ n ∈ output.code, -2 ^ 31 ≤ n ∧ n < 2 ^ 31 := by
      cases output.code <;> simp
    simp only [conclude, Recordable]
    by_cases hs : output.success = false
    · have herr : WithoutNul output.stderr → WithoutNul (extractErrorMessage output.stderr) :=
        extractErrorMessage_withoutNul
      rw [if_pos hs, failureUpdate_fits_iff]
      simp only [Option.mem_some, forall_eq', hcode, hs, Bool.false_eq_true, false_implies,
        and_true]
      tauto
    · rw [if_neg hs]
      have hsuccess : output.success = true := by simpa using hs
      cases hparse : parseResticJsonOutput (.ofParser parse) output.stdout with
      | error e =>
        have herr := parse_error_withoutNul hparse
        simp only [failureUpdate_fits_iff, Option.mem_some, forall_eq', hcode, reduceCtorEq,
          false_implies, implies_true, and_true, herr, true_and]
        tauto
      | ok stats =>
        obtain ⟨hints, hbig⟩ := parse_range hparse
        have hstderr : (∀ text ∈ if output.stderr ≠ "" then some output.stderr else none,
            WithoutNul text) ↔ WithoutNul output.stderr := by
          by_cases he : output.stderr = ""
          · rw [if_neg (not_not.2 he), he]
            simp [WithoutNul]
          · rw [if_pos he]
            simp
        simp only [successUpdate_fits_iff, hstderr, hcode, Except.ok.injEq, forall_eq', hsuccess,
          true_implies, storable_iff (huncut stats hparse)]
        tauto

/-! ## Runs of calls -/

/-- The UPDATE a call has before it. -/
def BackupCall.pending (c : BackupCall) : Option (Int × RunUpdate) :=
  match c.pc with
  | .update runId u _ => some (runId, u)
  | _ => none

/-- The UPDATE of a run fails only if the server refuses it. -/
def CallsAction.Honest (s : ServerCalls) : CallsAction → Prop
  | .call i (.updateRun o now) => o = .done ∨ (∃ err, o = .failed err) ∧
      ∀ p ∈ s.parts[i]?.bind BackupCall.pending,
        s.shared.execute (.client (.updateRun p.1 now p.2) now) = none
  | _ => True

/-- Of the snapshot ids that restic reports in the runs of a command none is cut. -/
def CallsAction.Uncut (serde : SerdeJson) : CallsAction → Prop
  | .call _ (.runRestic _ _ spawn) => ∀ args, RBackup2.Uncut serde (spawn args)
  | _ => True

/-- The call has had its three steps, and the columns had a place for what came of them. -/
def ClosedBy (serde : SerdeJson) (c : BackupCall) (evs : List BackupEvent) : Prop :=
  ∃ o now os which spawn o' now' cmd,
    evs = [.createRun o now, .runRestic os which spawn, .updateRun o' now'] ∧
    ResticCommand.new os which c.config = .ok cmd ∧
    Recordable serde (spawn (cmd.buildBackupCommand c.job)) ∧
    -2 ^ 31 ≤ extractEpoch (timestamptz now' - now) ∧
    extractEpoch (timestamptz now' - now) < 2 ^ 31

/-- The events of a call on the server. -/
def callEvents (i : Nat) (as : List CallsAction) : List BackupEvent :=
  eventsOf i (as.filterMap CallsAction.event)

theorem callEvents_other (i : Nat) (as : List CallsAction) (a : ServerAction) :
    callEvents i (as ++ [.other a]) = callEvents i as := by
  have hnone : [CallsAction.other a].filterMap CallsAction.event = [] := rfl
  rw [callEvents, List.filterMap_append, hnone, List.append_nil, callEvents]

theorem callEvents_self (i : Nat) (as : List CallsAction) (ev : BackupEvent) :
    callEvents i (as ++ [.call i ev]) = callEvents i as ++ [ev] := by
  simp [callEvents, CallsAction.event, List.filterMap_append, eventsOf_concat_self]

theorem callEvents_of_ne {i j : Nat} (h : j ≠ i) (as : List CallsAction) (ev : BackupEvent) :
    callEvents i (as ++ [.call j ev]) = callEvents i as := by
  have hne : (j, ev).1 ≠ i := h
  simp [callEvents, CallsAction.event, List.filterMap_append, eventsOf_concat_of_ne hne]

/-- What the actions so far say of the calls and of their records. -/
structure CallsLog (serde : SerdeJson) (as : List CallsAction) (m : ServerCalls) : Prop where
  sent : ∀ (i : Nat) c id u ret, m.parts[i]? = some c → c.pc = .update id u ret →
    ∃ o now os which spawn cmd, callEvents i as = [.createRun o now, .runRestic os which spawn] ∧
      ResticCommand.new os which c.config = .ok cmd ∧
      Uncut serde (spawn (cmd.buildBackupCommand c.job)) ∧
      u = (conclude serde id (executeResticCommand spawn cmd c.job)).1
  records : ∀ (i : Nat) c, ∀ r ∈ m.shared.records, m.parts[i]? = some c → c.runId = some r.id →
    (r.status ≠ "running" ↔ ClosedBy serde c (callEvents i as))

/-- A call that has not had three steps has closed nothing. -/
theorem not_closedBy {serde : SerdeJson} {c : BackupCall} {evs : List BackupEvent}
    (h : evs.length ≠ 3) : ¬ ClosedBy serde c evs := by
  rintro ⟨o, now, os, which, spawn, o', now', cmd, rfl, -⟩
  exact h rfl

/-- A call that has had its three steps has closed its record exactly if the UPDATE fits. -/
theorem closedBy_iff_fits (parse : String → Except String Json) {c : BackupCall}
    {evs : List BackupEvent} {o : DbOutcome} {now : DateTime} {os : TargetOs} {which : Which}
    {spawn : Spawn} {cmd : ResticCommand}
    (hevents : evs = [.createRun o now, .runRestic os which spawn])
    (hcmd : ResticCommand.new os which c.config = .ok cmd)
    (huncut : Uncut (.ofParser parse) (spawn (cmd.buildBackupCommand c.job))) (runId : Int)
    (o' : DbOutcome) (now' : DateTime) :
    ClosedBy (.ofParser parse) c (evs ++ [.updateRun o' now']) ↔
      (conclude (.ofParser parse) runId (executeResticCommand spawn cmd c.job)).1.Fits
        (extractEpoch (timestamptz now' - now)) := by
  rw [conclude_fits_iff _ _ _ _ _ huncut, hevents]
  constructor
  · rintro ⟨o₁, now₁, os₁, which₁, spawn₁, o₂, now₂, cmd₁, heq, hcmd₁, hfits⟩
    cases heq
    cases hcmd.symm.trans hcmd₁
    exact hfits
  · exact fun hfits => ⟨o, now, os, which, spawn, o', now', cmd, rfl, hcmd, hfits⟩

/-- A record another call owns is as it was. -/
theorem BackupCall.onServer_record {serde : SerdeJson} {s s' : Server} {t : RunsTable}
    {c c' : BackupCall} {ev : BackupEvent} (hs : Shows s t)
    (h : c.onServer serde s ev = some (s', c')) {r : Run} (hr : r ∈ s'.records)
    (hlt : r.id < t.nextId) (hne : ∀ u ret, c.pc ≠ .update r.id u ret) : r ∈ s.records := by
  obtain ⟨o, now, -, -, ⟨-, hexec⟩ | ⟨-, rfl⟩, -⟩ | ⟨os, which, spawn, runId, -, -, rfl, -⟩ |
    ⟨o, now, runId, u, ret, ret', -, hpc, ⟨-, hexec⟩ | ⟨-, rfl⟩, -⟩ :=
    BackupCall.onServer_cases h
  case inl.inr | inr.inl | inr.inr.inr => exact hr
  · rw [(records_createRun hexec).1, List.mem_append, List.mem_singleton] at hr
    rcases hr with hr | rfl
    · exact hr
    · have hid : s.nextRunId < t.nextId := hlt
      have := hs.nextId
      omega
  · rw [(records_updateRun hs.valid hexec).1] at hr
    obtain ⟨x, hx, rfl⟩ := List.mem_map.1 hr
    by_cases hid : x.id = runId
    · rw [if_pos hid] at hne
      have hkeep : (x.finish now u).id = x.id := rfl
      exact absurd hpc (by rw [← hid, ← hkeep]; exact hne u ret)
    · rw [if_neg hid]
      exact hx

/-- A step on the server that is no call's removes records at most. -/
theorem ServerCalls.other_records {serde : SerdeJson} {m m' : ServerCalls} {a : ServerAction}
    (ha : a.writesRuns = false) (h : m.step serde (.other a) = some m') :
    m'.parts = m.parts ∧ m'.shared.records ⊆ m.shared.records := by
  simp only [ServerCalls.step] at h
  obtain ⟨sv, hsv, rfl⟩ := Option.map_eq_some_iff.1 h
  refine ⟨rfl, ?_⟩
  rcases Server.step_eq hsv with rfl | hexec
  · exact List.Subset.refl _
  · obtain ⟨-, hsame | ⟨u, p, -, hdelete⟩⟩ := runs_other ha hexec
    · rw [Server.records, hsame]
      exact List.Subset.refl _
    · rw [Server.records, hdelete]
      exact ((Schema.delete_sublist u p m.shared.contents .runs).map _).subset

section Log

variable {parse : String → Except String Json} {base : Int} {as : List CallsAction}
  {m : ServerCalls} {t : RunsTable} {i : Nat} {c c' : BackupCall} {s' : Server}

/-- **The record of the call that steps.** -/
theorem CallsLog.own (hlog : CallsLog (.ofParser parse) as m) (hshows : Shows m.shared t)
    (htimes : TimesHistory (.ofParser parse) base (as.filterMap CallsAction.event) ⟨t, m.parts⟩)
    {ev : BackupEvent} (hhonest : (CallsAction.call i ev).Honest m) (hi : m.parts[i]? = some c)
    (h : c.onServer (.ofParser parse) m.shared ev = some (s', c')) {r : Run}
    (hr : r ∈ s'.records) (hid : c'.runId = some r.id) :
    r.status ≠ "running" ↔ ClosedBy (.ofParser parse) c' (callEvents i as ++ [ev]) := by
  have hok := htimes.inv.each i c hi
  have hhistory := htimes.calls i c hi
  obtain ⟨o, now, rfl, hpc, happlied, ⟨rfl, rfl⟩ | ⟨e, rfl⟩⟩ |
    ⟨os, which, spawn, runId, rfl, hpc, rfl, hcmd⟩ |
    ⟨o, now, runId, u, ret, ret', rfl, hpc, happlied, rfl⟩ := BackupCall.onServer_cases h
  · -- the INSERT: the record is open
    have hexec := (happlied.resolve_right fun hno => by cases hno.1).2
    have hrun : r.status = "running" := by
      rw [(records_createRun hexec).1, List.mem_append, List.mem_singleton] at hr
      rcases hr with hr | rfl
      · have hlt := t.find_lt (t.find_of_mem (hshows.records.subset hr))
        have hnew : m.shared.nextRunId = r.id := Option.some.inj hid
        have := hshows.nextId
        omega
      · rfl
    have hevents : callEvents i as = [] := hhistory.create hpc
    refine iff_of_false (not_not.2 hrun) (not_closedBy ?_)
    simp [hevents]
  · -- the INSERT was not confirmed: the call owns nothing
    rw [hok.create hpc] at hid
    cases hid
  · -- the command: the record stays open
    have hown : c.runId = some r.id := by
      obtain ⟨e, -, rfl⟩ | ⟨cmd, x, -, -, rfl⟩ := hcmd <;> exact hid
    obtain ⟨o, now, hevents, -⟩ := hhistory.restic runId hpc
    have hevents : callEvents i as = [.createRun o now] := hevents
    have hrun := hlog.records i c r hr hi hown
    refine iff_of_false (mt hrun.1 (not_closedBy ?_)) (not_closedBy ?_) <;> simp [hevents]
  · -- the UPDATE
    have hown : c.runId = some r.id := hid
    have hrunId : r.id = runId := by
      rw [(hok.update runId u ret hpc).1] at hown
      exact (Option.some.inj hown).symm
    obtain ⟨o₁, now₁, os, which, spawn, cmd, hevents, hcmd, huncut, hu⟩ :=
      hlog.sent i c runId u ret hi hpc
    have hclosed : ClosedBy (.ofParser parse) { c with pc := .returned ret' }
        (callEvents i as ++ [.updateRun o now]) ↔
          u.Fits (extractEpoch (timestamptz now - now₁)) := by
      rw [hu]
      exact closedBy_iff_fits parse hevents hcmd huncut runId o now
    have hstatus : u.status = "success" ∨ u.status = "failed" :=
      ((hok.update runId u ret hpc).2.closed r now).1
    have hstart : ∀ x ∈ m.shared.records, x.id = runId → x.startTime = now₁ := by
      intro x hx hxid
      obtain ⟨o₂, now₂, os₂, which₂, spawn₂, hevents₂, x₂, hx₂, hstart⟩ :=
        hhistory.update runId _ ret hpc
      cases hevents.symm.trans hevents₂
      have hfind := t.find_of_mem (hshows.records.subset hx)
      rw [hxid] at hfind
      cases hx₂.symm.trans hfind
      exact hstart
    rcases happlied with ⟨-, hexec⟩ | ⟨hno, rfl⟩
    · rw [(records_updateRun hshows.valid hexec).1] at hr
      obtain ⟨x, hx, rfl⟩ := List.mem_map.1 hr
      have hxid : x.id = runId := by
        by_contra hne
        rw [if_neg hne] at hrunId
        exact hne hrunId
      rw [if_pos hxid]
      refine iff_of_true (fun hrun => ?_) (hclosed.2 ?_)
      · have hu : u.status = "running" := hrun
        rcases hstatus with h | h <;> rw [hu] at h <;> exact absurd h (by decide)
      · rw [← hstart x hx hxid, ← updateRun_accepted_iff hshows.valid hx now now hstatus, hxid]
        exact ⟨s', hexec⟩
    · have hrun := hlog.records i c r hr hi hown
      refine iff_of_false (mt hrun.1 (not_closedBy (by simp [hevents]))) fun hfits => ?_
      -- the server refused what fits
      obtain ⟨s₁, hs₁⟩ := (updateRun_accepted_iff hshows.valid hr now now hstatus).2
        (by rw [hstart r hr hrunId]; exact hclosed.1 hfits)
      rcases hhonest with rfl | ⟨-, hrefused⟩
      · cases hno
      · have hpending : m.parts[i]?.bind BackupCall.pending = some (runId, u) := by
          rw [hi, Option.bind_some, BackupCall.pending, hpc]
        have hnone : m.shared.execute (.client (.updateRun runId now u) now) = none :=
          hrefused (runId, u) hpending
        rw [hrunId, hnone] at hs₁
        cases hs₁

theorem CallsLog.step (hlog : CallsLog (.ofParser parse) as m) (hshows : Shows m.shared t)
    (htimes : TimesHistory (.ofParser parse) base (as.filterMap CallsAction.event) ⟨t, m.parts⟩)
    {a : CallsAction} (hhonest : a.Honest m) (huncut : a.Uncut (.ofParser parse))
    (ha : ∀ sa, a = .other sa → sa.writesRuns = false) {m' : ServerCalls}
    (h : m.step (.ofParser parse) a = some m') :
    CallsLog (.ofParser parse) (as ++ [a]) m' := by
  cases a with
  | other sa =>
    obtain ⟨hparts, hrecords⟩ := ServerCalls.other_records (ha sa rfl) h
    refine ⟨fun i c id u ret hi hpc => ?_, fun i c r hr hi hid => ?_⟩ <;>
      rw [callEvents_other] <;> rw [hparts] at hi
    · exact hlog.sent i c id u ret hi hpc
    · exact hlog.records i c r (hrecords hr) hi hid
  | call k ev =>
    obtain ⟨c, s', c', hi, hstep, rfl⟩ := Interleaving.step_eq h
    have hi : m.parts[k]? = some c := hi
    refine ⟨fun i d id u ret hd hpc => ?_, fun i d r hr hd hid => ?_⟩
    · rcases getElem?_set_cases hd with ⟨rfl, rfl⟩ | ⟨hne, hd⟩
      · -- the UPDATE a call has before it is that of the command it has just run
        have hhistory := htimes.calls i c hi
        obtain ⟨o, now, rfl, -, -, ⟨-, rfl⟩ | ⟨e, rfl⟩⟩ |
          ⟨os, which, spawn, runId, rfl, hrestic, rfl, ⟨e, -, rfl⟩ | ⟨cmd, x, hcmd, rfl, rfl⟩⟩ |
          ⟨o, now, runId, u', ret', ret'', rfl, -, -, rfl⟩ := BackupCall.onServer_cases hstep
        case inr.inl.inr =>
          cases hpc
          obtain ⟨o, now, hevents, -⟩ := hhistory.restic _ hrestic
          have hevents : callEvents i as = [.createRun o now] := hevents
          exact ⟨o, now, os, which, spawn, cmd, by rw [callEvents_self, hevents]; rfl, hcmd,
            huncut _, rfl⟩
        all_goals cases hpc
      · rw [callEvents_of_ne (Ne.symm hne)]
        exact hlog.sent i d id u ret hd hpc
    · rcases getElem?_set_cases hd with ⟨rfl, rfl⟩ | ⟨hne, hd⟩
      · rw [callEvents_self]
        exact hlog.own hshows htimes hhonest hi hstep hr hid
      · rw [callEvents_of_ne (Ne.symm hne)]
        -- no two calls own one record
        obtain ⟨-, x, hx, -⟩ := (htimes.inv.each i d hd).row r.id hid
        refine hlog.records i d r (BackupCall.onServer_record hshows hstep hr (t.find_lt hx)
          fun u ret hpc => hne ?_) hd hid
        exact htimes.inv.distinct i k d c r.id hd hi hid
          ((htimes.inv.each k c hi).update r.id u ret hpc).1

end Log

/-! ## The records that stay open -/

/-- **Exactly which records are closed.**  If the UPDATE of a run fails only where the server
    refuses it, and restic reports no snapshot id that is too long by blanks only, a record a call
    has made is no longer `running` exactly if the call has had its three steps, restic was found,
    and its output, its exit code and the duration have a place in the columns of `runs`; whatever
    the other calls do, and anybody else to other tables. -/
theorem record_closed_iff (parse : String → Except String Json) {s : Server}
    (hs : schema.Valid s.contents) (hids : ∀ r ∈ s.records, r.id < s.nextRunId)
    {args : List (BackupJob × RemoteConfig)} {as : List CallsAction}
    (hothers : ∀ a, .other a ∈ as → a.writesRuns = false)
    (huncut : ∀ a ∈ as, CallsAction.Uncut (.ofParser parse) a)
    (hhonest : Along (ServerCalls.step (.ofParser parse)) (fun m a => a.Honest m)
      (.init s args) as) {s' : ServerCalls}
    (h : exec (ServerCalls.step (.ofParser parse)) (.init s args) as = some s') {i : Nat}
    {c : BackupCall} (hc : s'.parts[i]? = some c) {r : Run} (hr : r ∈ s'.shared.records)
    (hid : c.runId = some r.id) :
    r.status ≠ "running" ↔ ClosedBy (.ofParser parse) c (callEvents i as) := by
  have hshows : Shows (ServerCalls.init s args).shared (s.runsTable hs hids) :=
    ⟨hs, List.Sublist.refl _, rfl⟩
  have hlog : CallsLog (.ofParser parse) as s' := by
    revert hothers huncut hhonest
    refine exec_history (P := fun as s' =>
      (∀ a, .other a ∈ as → ServerAction.writesRuns a = false) →
        (∀ a ∈ as, CallsAction.Uncut (.ofParser parse) a) →
        Along (ServerCalls.step (.ofParser parse)) (fun m a => CallsAction.Honest m a)
          (.init s args) as → CallsLog (.ofParser parse) as s') ?_ ?_ h
    · refine fun _ _ _ => ⟨fun i c id u ret hi hpc => ?_, fun i c r _ hi hid => ?_⟩ <;>
        obtain ⟨a, -, rfl⟩ := List.mem_map.1 (List.mem_of_getElem? hi)
      · cases hpc
      · cases hid
    · intro as m a m' hm ih hstep hothers huncut hhonest
      have hothers' : ∀ b, .other b ∈ as → ServerAction.writesRuns b = false :=
        fun b hb => hothers b (List.mem_append_left _ hb)
      obtain ⟨hbefore, hlast⟩ := along_concat.1 hhonest
      obtain ⟨t, hcalls, ht⟩ := ServerCalls.exec_simulates _ hshows hothers' hm
      exact (ih hothers' (fun b hb => huncut b (List.mem_append_left _ hb)) hbefore).step ht
        (timesHistory_of_exec hcalls) (hlast m hm)
        (huncut a (List.mem_append_right _ (List.mem_singleton_self a)))
        (fun sa hsa => hothers sa (List.mem_append_right _ (hsa ▸ List.mem_cons_self))) hstep
  exact hlog.records i c r hr hc hid

/-- restic fails and says so with a NUL character in its text. -/
def nulBackup : List CallsAction :=
  [.call 0 (.createRun .done 0),
    .call 0 (.runRestic .other (fun name => .ok ("/usr/bin/" ++ name))
      fun _ => .ok ⟨some 1, "", "Fatal: \x00"⟩),
    .call 0 (.updateRun (.failed "invalid byte sequence for encoding \"UTF8\": 0x00") 60)]

/-- The backup is over, and its record says that it is running. -/
theorem record_closed_iff_nul :
    ∃ s c r, exec (ServerCalls.step (.ofParser fun _ => .error "")) (.init .sample sampleArgs)
        nulBackup = some s ∧ s.parts[0]? = some c ∧ r ∈ s.shared.records ∧
      c.runId = some r.id ∧ (callEvents 0 nulBackup).length = 3 ∧ r.status = "running" ∧
      ¬ ClosedBy (.ofParser fun _ => .error "") c (callEvents 0 nulBackup) := by
  have hsome : (exec (ServerCalls.step (.ofParser fun _ => .error "")) (.init .sample sampleArgs)
      nulBackup).isSome = true := by decide +kernel
  have hend : ∀ s ∈ exec (ServerCalls.step (.ofParser fun _ => .error ""))
      (.init .sample sampleArgs) nulBackup, (s.parts[0]?.bind BackupCall.runId) = some 1 ∧
        s.shared.records.map (fun r => (r.id, r.status)) = [(1, "running")] := by decide +kernel
  have hrefused : ∀ m ∈ exec (ServerCalls.step (.ofParser fun _ => .error ""))
      (.init .sample sampleArgs) (nulBackup.take 2),
      ∀ p ∈ m.parts[0]?.bind BackupCall.pending,
        m.shared.execute (.client (.updateRun p.1 60 p.2) 60) = none := by decide +kernel
  have hhonest : Along (ServerCalls.step (.ofParser fun _ => .error ""))
      (fun m a => CallsAction.Honest m a) (.init .sample sampleArgs) nulBackup := by
    refine ⟨trivial, fun m₁ h₁ => ⟨trivial, fun m₂ h₂ => ⟨.inr ⟨⟨_, rfl⟩, ?_⟩, fun _ _ => trivial⟩⟩⟩
    exact hrefused m₂ (exec_cons.2 ⟨m₁, h₁, exec_cons.2 ⟨m₂, h₂, rfl⟩⟩)
  obtain ⟨s, h⟩ := Option.isSome_iff_exists.1 hsome
  obtain ⟨hrunId, hrecords⟩ := hend s h
  obtain ⟨c, hc, hid⟩ := Option.bind_eq_some_iff.1 hrunId
  obtain ⟨r, hr, heq⟩ : ∃ r ∈ s.shared.records, (r.id, r.status) = (1, "running") :=
    List.mem_map.1 (by rw [hrecords]; exact List.mem_cons_self)
  obtain ⟨hrid, hstatus⟩ := Prod.mk.inj heq
  rw [← hrid] at hid
  have huncut : ∀ a ∈ nulBackup, CallsAction.Uncut (.ofParser fun _ => .error "") a := by
    simp only [nulBackup, List.forall_mem_cons, List.not_mem_nil, false_implies, implies_true,
      and_true, CallsAction.Uncut, true_and]
    rintro args stats ⟨⟩
  refine ⟨s, c, r, h, hc, hr, hid, by decide, hstatus, fun hclosed => ?_⟩
  exact (record_closed_iff (fun _ => .error "") Server.sample_valid (by decide +kernel)
    (fun a ha => by simp [nulBackup] at ha) huncut hhonest h hc hr hid).2 hclosed hstatus

end RBackup2

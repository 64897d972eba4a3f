import RBackup2.Backup.OnServer
import RBackup2.Backup.Stats

/-!
# Records and deletions

Runs refer to their job and to their device, and go with them.

* `RecordDeleted` — some DELETE has removed the record.
* `Ledger` — every id drawn has its record, or it was deleted; `Ledger.step` preserves it.
* `CallSucceeded` — a call that has returned an id has closed its row as a success.
* `recorded_iff_not_deleted` — the record of a backup that returned its id is there exactly if no
  DELETE has removed it, before or after the backup returned.
-/

set_option autoImplicit false

namespace RBackup2

open Sql Transition

/-! ## What a DELETE takes away -/

/-- The ids of the records. -/
def ServerCalls.ids (s : ServerCalls) : List Int := s.shared.records.map Run.id

/-- A DELETE of the run, of its job or of a device has removed the record with the id. -/
def RecordDeleted (serde : SerdeJson) (s : ServerCalls) (as : List CallsAction) (id : Int) : Prop :=
  ∃ pre t p post m row, as = pre ++ .other (.other (.delete t p)) :: post ∧
    exec (ServerCalls.step serde) s pre = some m ∧ row ∈ m.shared.contents .runs ∧
    (Row.toRun row).id = id ∧ Schema.Depends schema m.shared.contents t p .runs row

theorem RecordDeleted.concat {serde : SerdeJson} {s : ServerCalls} {as : List CallsAction}
    {id : Int} (h : RecordDeleted serde s as id) (a : CallsAction) :
    RecordDeleted serde s (as ++ [a]) id := by
  obtain ⟨pre, t, p, post, m, row, rfl, hrest⟩ := h
  exact ⟨pre, t, p, post ++ [a], m, row, by simp, hrest⟩

theorem RecordDeleted.concat_cases {serde : SerdeJson} {s m : ServerCalls} {as : List CallsAction}
    {a : CallsAction} {id : Int} (hm : exec (ServerCalls.step serde) s as = some m)
    (h : RecordDeleted serde s (as ++ [a]) id) : RecordDeleted serde s as id ∨
      ∃ t p, a = .other (.other (.delete t p)) ∧ ∃ row ∈ m.shared.contents .runs,
        (Row.toRun row).id = id ∧ Schema.Depends schema m.shared.contents t p .runs row := by
  obtain ⟨pre, t, p, post, m', row, hsplit, hpre, hrow, hid, hdep⟩ := h
  rcases List.eq_nil_or_concat post with rfl | ⟨post, b, rfl⟩
  · obtain ⟨rfl, hlast⟩ := List.append_inj' hsplit rfl
    cases hlast
    cases hm.symm.trans hpre
    exact .inr ⟨t, p, rfl, row, hrow, hid, hdep⟩
  · rw [List.concat_eq_append, ← List.cons_append, ← List.append_assoc] at hsplit
    obtain ⟨rfl, -⟩ := List.append_inj' hsplit rfl
    exact .inl ⟨pre, t, p, post, m', row, rfl, hpre, hrow, hid, hdep⟩

/-- A step of a call adds the next id, or none, and takes none away. -/
theorem ids_call {serde : SerdeJson} {s s' : ServerCalls} {i : Nat} {ev : BackupEvent}
    (hs : schema.Valid s.shared.contents) (h : s.step serde (.call i ev) = some s') :
    (s'.ids = s.ids ∧ s'.shared.nextRunId = s.shared.nextRunId) ∨
    (s'.ids = s.ids ++ [s.shared.nextRunId] ∧
      s'.shared.nextRunId = s.shared.nextRunId + 1) := by
  obtain ⟨c, sv, c', -, hstep, rfl⟩ := Interleaving.step_eq h
  obtain ⟨o, now, -, -, ⟨-, hexec⟩ | ⟨-, rfl⟩, -⟩ | ⟨os, which, spawn, runId, -, -, rfl, -⟩ |
    ⟨o, now, runId, u, ret, ret', -, -, ⟨-, hexec⟩ | ⟨-, rfl⟩, -⟩ :=
    BackupCall.onServer_cases hstep
  case inl.inr | inr.inl | inr.inr.inr => exact .inl ⟨rfl, rfl⟩
  · obtain ⟨hrecords, hnext⟩ := records_createRun hexec
    refine .inr ⟨?_, hnext⟩
    simp only [ServerCalls.ids, hrecords, List.map_append]
    rfl
  · obtain ⟨hrecords, hnext⟩ := records_updateRun hs hexec
    refine .inl ⟨?_, hnext⟩
    simp only [ServerCalls.ids, hrecords, List.map_map]
    refine List.map_congr_left fun r _ => ?_
    simp only [Function.comp_apply]
    split <;> rfl

/-- A DELETE takes away exactly the records that depend on what it deletes, and anything else on
    the other tables takes none. -/
theorem ids_other {serde : SerdeJson} {s s' : ServerCalls} {a : ServerAction}
    (hs : schema.Valid s.shared.contents) (ha : a.writesRuns = false)
    (h : s.step serde (.other a) = some s') :
    s'.shared.nextRunId = s.shared.nextRunId ∧ s'.ids ⊆ s.ids ∧
    ∀ id ∈ s.ids, id ∉ s'.ids ↔ ∃ t p, a = .other (.delete t p) ∧
      ∃ row ∈ s.shared.contents .runs, (Row.toRun row).id = id ∧
        Schema.Depends schema s.shared.contents t p .runs row := by
  simp only [ServerCalls.step] at h
  obtain ⟨sv, hsv, rfl⟩ := Option.map_eq_some_iff.1 h
  -- the row with an id, in the records and in the table
  have hmem : ∀ {sv : Server} {id : Int}, id ∈ sv.records.map Run.id ↔
      ∃ row ∈ sv.contents .runs, (Row.toRun row).id = id := by
    intro sv id
    rw [Server.records, List.map_map]
    exact List.mem_map
  by_cases hdel : ∃ t p, a = .other (.delete t p)
  · obtain ⟨t, p, rfl⟩ := hdel
    cases hsv
    have hdelete : ∀ row, row ∈ schema.delete t p s.shared.contents .runs ↔
        row ∈ s.shared.contents .runs ∧ ¬ Schema.Depends schema s.shared.contents t p .runs row :=
      fun row => Schema.mem_delete_iff hs
    have hafter : ∀ {id}, id ∈ ServerCalls.ids ⟨⟨schema.delete t p s.shared.contents,
        s.shared.nextRunId⟩, s.parts⟩ ↔
          ∃ row ∈ schema.delete t p s.shared.contents .runs, (Row.toRun row).id = id := hmem
    refine ⟨rfl, fun id hid => ?_, fun id hid => ?_⟩
    · obtain ⟨row, hrow, hrowId⟩ := hafter.1 hid
      exact hmem.2 ⟨row, ((hdelete row).1 hrow).1, hrowId⟩
    · constructor
      · intro hnot
        obtain ⟨row, hrow, hrowId⟩ := hmem.1 hid
        refine ⟨t, p, rfl, row, hrow, hrowId, ?_⟩
        by_contra hdep
        exact hnot (hafter.2 ⟨row, (hdelete row).2 ⟨hrow, hdep⟩, hrowId⟩)
      · rintro ⟨t', p', heq, row, hrow, hrowId, hdep⟩ hin
        cases heq
        obtain ⟨x, hx, hxId⟩ := hafter.1 hin
        obtain ⟨hx, hxdep⟩ := (hdelete x).1 hx
        -- two rows with one id are one
        have hrowKey := toRun_id (hs.fits .runs row hrow).1
        have hxKey := toRun_id (hs.fits .runs x hx).1
        have hkey : row "id" = x "id" := by rw [hrowKey, hxKey, hrowId, hxId]
        have hsame := hs.eq_of_key hrow hx hkey (id_ne_null (t := .runs) (hs.fits .runs row hrow).1)
        exact hxdep (hsame ▸ hdep)
  · have hsame : sv.nextRunId = s.shared.nextRunId ∧ sv.records = s.shared.records := by
      rcases Server.step_eq hsv with rfl | hex
      · exact ⟨rfl, rfl⟩
      · obtain ⟨hid, hruns | ⟨t, p, heq, -⟩⟩ := runs_other ha hex
        · exact ⟨hid, by rw [Server.records, hruns]; rfl⟩
        · exact absurd ⟨t, p, heq⟩ hdel
    have hids : ServerCalls.ids ⟨sv, s.parts⟩ = s.ids := by
      rw [ServerCalls.ids, hsame.2]
      rfl
    rw [hids]
    refine ⟨hsame.1, List.Subset.refl _, fun id hid => ⟨fun hnot => absurd hid hnot, ?_⟩⟩
    rintro ⟨t, p, heq, -⟩
    exact absurd ⟨t, p, heq⟩ hdel

/-- The actions so far, and the ids drawn in them. -/
structure Ledger (serde : SerdeJson) (start : ServerCalls) (as : List CallsAction)
    (s : ServerCalls) : Prop where
  valid : schema.Valid s.shared.contents
  next_le : start.shared.nextRunId ≤ s.shared.nextRunId
  ids_lt : ∀ id ∈ s.ids, id < s.shared.nextRunId
  deleted : ∀ id, RecordDeleted serde start as id → id < s.shared.nextRunId ∧ id ∉ s.ids
  kept : ∀ id, start.shared.nextRunId ≤ id → id < s.shared.nextRunId →
    id ∈ s.ids ∨ RecordDeleted serde start as id

theorem Ledger.init {serde : SerdeJson} {s : ServerCalls} (hs : schema.Valid s.shared.contents)
    (hids : ∀ id ∈ s.ids, id < s.shared.nextRunId) : Ledger serde s [] s := by
  refine ⟨hs, Int.le_refl _, hids, ?_, fun id h h' => by omega⟩
  rintro id ⟨pre, t, p, post, m, row, hsplit, -⟩
  exact absurd hsplit (by simp)

theorem Ledger.step {serde : SerdeJson} {start m s : ServerCalls} {as : List CallsAction}
    {a : CallsAction} (hm : exec (ServerCalls.step serde) start as = some m)
    (hL : Ledger serde start as m) (ha : ∀ sa, a = .other sa → sa.writesRuns = false)
    (h : m.step serde a = some s) : Ledger serde start (as ++ [a]) s := by
  cases a with
  | call i ev =>
    have hvalid : schema.Valid s.shared.contents := by
      obtain ⟨c, sv, c', -, hstep, rfl⟩ := Interleaving.step_eq h
      exact BackupCall.onServer_valid hL.valid hstep
    -- a call deletes nothing
    have hdel : ∀ id, RecordDeleted serde start (as ++ [.call i ev]) id →
        RecordDeleted serde start as id := by
      intro id hid
      rcases hid.concat_cases hm with hid | ⟨t, p, heq, -⟩
      · exact hid
      · cases heq
    obtain ⟨hids, hnext⟩ | ⟨hids, hnext⟩ := ids_call hL.valid h
    · refine ⟨hvalid, hnext ▸ hL.next_le, by rw [hids, hnext]; exact hL.ids_lt, fun id hid => ?_,
        fun id hle hlt => ?_⟩
      · rw [hids, hnext]
        exact hL.deleted id (hdel id hid)
      · rw [hids]
        rw [hnext] at hlt
        exact (hL.kept id hle hlt).imp_right fun hid => hid.concat _
    · refine ⟨hvalid, ?_, fun id hid => ?_, fun id hid => ?_, fun id hle hlt => ?_⟩
      · have := hL.next_le
        omega
      · rw [hids, List.mem_append, List.mem_singleton] at hid
        rcases hid with hid | rfl
        · have := hL.ids_lt id hid
          omega
        · omega
      · obtain ⟨hlt, hnot⟩ := hL.deleted id (hdel id hid)
        refine ⟨by omega, ?_⟩
        rw [hids, List.mem_append, List.mem_singleton]
        rintro (hin | rfl)
        · exact hnot hin
        · omega
      · rw [hids, List.mem_append, List.mem_singleton]
        by_cases hnew : id = m.shared.nextRunId
        · exact .inl (.inr hnew)
        · rcases hL.kept id hle (by omega) with hin | hid
          · exact .inl (.inl hin)
          · exact .inr (hid.concat _)
  | other sa =>
    have hvalid : schema.Valid s.shared.contents := by
      simp only [ServerCalls.step] at h
      obtain ⟨sv, hsv, rfl⟩ := Option.map_eq_some_iff.1 h
      exact Server.step_valid hL.valid hsv
    obtain ⟨hnext, hsub, hgone⟩ := ids_other hL.valid (ha sa rfl) h
    refine ⟨hvalid, hnext ▸ hL.next_le, fun id hid => hnext ▸ hL.ids_lt id (hsub hid),
      fun id hid => ?_, fun id hle hlt => ?_⟩
    · rw [hnext]
      rcases hid.concat_cases hm with hid | ⟨t, p, heq, row, hrow, hrowId, hdep⟩
      · obtain ⟨hlt, hnot⟩ := hL.deleted id hid
        exact ⟨hlt, fun hin => hnot (hsub hin)⟩
      · cases heq
        have hin : id ∈ m.ids := List.mem_map.2 ⟨_, List.mem_map_of_mem hrow, hrowId⟩
        exact ⟨hL.ids_lt id hin, (hgone id hin).2 ⟨t, p, rfl, row, hrow, hrowId, hdep⟩⟩
    · rw [hnext] at hlt
      rcases hL.kept id hle hlt with hin | hid
      · by_cases hin' : id ∈ s.ids
        · exact .inl hin'
        · obtain ⟨t, p, rfl, row, hrow, hrowId, hdep⟩ := (hgone id hin).1 hin'
          exact .inr ⟨as, t, p, [], m, row, rfl, hm, hrow, hrowId, hdep⟩
      · exact .inr (hid.concat _)

/-! ## What a backup that succeeds leaves -/

/-- A call that has returned an id owns a row with it, closed as a success. -/
structure CallSucceeded (t : RunsTable) (c : BackupCall) : Prop where
  update : ∀ id u rid, c.pc = .update id u (.ok rid) → rid = id ∧ u.status = "success"
  returned : ∀ rid, c.pc = .returned (.ok rid) →
    c.runId = some rid ∧ ∃ r, t.find rid = some r ∧ r.status = "success"

theorem CallSucceeded.start (t : RunsTable) (job : BackupJob) (config : RemoteConfig) :
    CallSucceeded t (.start job config) :=
  ⟨fun _ _ _ h => (by cases h), fun _ h => (by cases h)⟩

theorem CallSucceeded.step {serde : SerdeJson} {base : Int} {t t' : RunsTable} {c c' : BackupCall}
    {ev : BackupEvent} (hs : CallSucceeded t c) (hc : CallOk serde base t c)
    (h : c.step serde t ev = some (t', c')) : CallSucceeded t' c' := by
  cases ev with
  | createRun o now =>
    cases hpc : c.pc with
    | create =>
      cases o <;> simp only [BackupCall.step, hpc, createRun, DbOutcome.result] at h <;> cases h
      all_goals exact ⟨fun _ _ _ h => (by cases h), fun _ h => (by cases h)⟩
    | _ => simp [BackupCall.step, hpc] at h
  | runRestic os which spawn =>
    cases hpc : c.pc with
    | restic runId =>
      cases hcmd : ResticCommand.new os which c.config with
      | error e =>
        simp only [BackupCall.step, hpc, hcmd] at h
        cases h
        exact ⟨fun _ _ _ h => (by cases h), fun _ h => (by cases h)⟩
      | ok cmd =>
        simp only [BackupCall.step, hpc, hcmd] at h
        cases h
        refine ⟨fun id u rid hupd => ?_, fun _ h => (by cases h)⟩
        rw [BackupPc.update.injEq] at hupd
        obtain ⟨rfl, rfl, hret⟩ := hupd
        obtain ⟨output, stats, -, -, -, rfl, hu⟩ := conclude_ok hret
        exact ⟨rfl, congrArg RunUpdate.status hu⟩
    | _ => simp [BackupCall.step, hpc] at h
  | updateRun o now =>
    cases hpc : c.pc with
    | update runId u ret =>
      obtain ⟨hown, -⟩ := hc.update runId u ret hpc
      obtain ⟨r, hr, -⟩ := hc.pending runId (.inr ⟨u, ret, hpc⟩)
      cases o <;> simp only [BackupCall.step, hpc, closeRun, updateRun, DbOutcome.result,
        DbOutcome.applied] at h <;> cases h
      · refine ⟨fun _ _ _ h => (by cases h), fun rid hret => ?_⟩
        cases hret
        obtain ⟨rfl, hstatus⟩ := hs.update runId u rid hpc
        exact ⟨hown, r.finish now u, update_find_self hr now u, hstatus⟩
      all_goals exact ⟨fun _ _ _ h => (by cases h), fun _ h => (by cases h)⟩
    | _ => simp [BackupCall.step, hpc] at h

/-- Another call's step leaves what a call has. -/
theorem CallSucceeded.frame {serde : SerdeJson} {t t' : RunsTable} {c c' d : BackupCall}
    {ev : BackupEvent} (hd : CallSucceeded t d) (h : c.step serde t ev = some (t', c'))
    (hne : ∀ id u ret, c.pc = .update id u ret → d.runId ≠ some id) : CallSucceeded t' d := by
  refine ⟨hd.update, fun rid hret => ?_⟩
  obtain ⟨hown, r, hr, hstatus⟩ := hd.returned rid hret
  exact ⟨hown, r, BackupCall.step_find h hr fun u ret hpc => hne rid u ret hpc hown, hstatus⟩

theorem callSucceeded_of_exec {serde : SerdeJson} {t : RunsTable}
    {args : List (BackupJob × RemoteConfig)} {as : List (Nat × BackupEvent)} {s : Calls}
    (h : exec (Calls.step serde) (.init t args) as = some s) :
    Calls.Inv serde t.nextId s ∧
      ∀ (i : Nat) c, s.parts[i]? = some c → CallSucceeded s.shared c := by
  refine exec_invariant (I := fun s : Calls => Calls.Inv serde t.nextId s ∧
    ∀ (i : Nat) c, s.parts[i]? = some c → CallSucceeded s.shared c) ?_ ⟨.init serde t args, ?_⟩ h
  · rintro s a s' ⟨hinv, hs⟩ hstep
    refine ⟨hinv.step hstep, fun k d hk => ?_⟩
    obtain ⟨c, t', c', hi, hcall, rfl⟩ := Interleaving.step_eq hstep
    rcases getElem?_set_cases hk with ⟨-, rfl⟩ | ⟨hne, hk⟩
    · exact (hs a.1 c hi).step (hinv.each a.1 c hi) hcall
    · refine (hs k d hk).frame hcall fun id u ret hpc hid => ?_
      exact hne (hinv.distinct k a.1 d c id hk hi hid ((hinv.each a.1 c hi).update id u ret hpc).1)
  · intro i c hc
    obtain ⟨a, -, rfl⟩ := List.mem_map.1 (List.mem_of_getElem? hc)
    exact .start t a.1 a.2

/-! ## The record of a backup that returned its id -/

theorem ledger_of_exec {serde : SerdeJson} {s : Server} (hs : schema.Valid s.contents)
    (hids : ∀ r ∈ s.records, r.id < s.nextRunId) {args : List (BackupJob × RemoteConfig)}
    {as : List CallsAction} (hothers : ∀ a, .other a ∈ as → a.writesRuns = false)
    {s' : ServerCalls} (h : exec (ServerCalls.step serde) (.init s args) as = some s') :
    Ledger serde (.init s args) as s' := by
  revert hothers
  refine exec_history (P := fun as s' => (∀ a, .other a ∈ as → ServerAction.writesRuns a = false) →
    Ledger serde (.init s args) as s') ?_ ?_ h
  · refine fun _ => .init hs fun id hid => ?_
    obtain ⟨r, hr, rfl⟩ := List.mem_map.1 hid
    exact hids r hr
  · intro as m a m' hm ih hstep hothers
    refine (ih fun b hb => hothers b (List.mem_append_left _ hb)).step hm (fun sa hsa => ?_) hstep
    exact hothers sa (List.mem_append_right _ (hsa ▸ List.mem_cons_self))

/-- **The record of a backup that returned its id is there exactly if no DELETE removed it**; and
    while it is there, it is a success with exit code 0.  As long as nobody but the calls inserts
    or updates rows of `runs`, whatever else clients and administrators do, only a DELETE the
    record depends on — of the run, of its job, of its device or of the device of its job — takes
    it away, before or after the backup returned. -/
theorem recorded_iff_not_deleted (serde : SerdeJson) {s : Server} (hs : schema.Valid s.contents)
    (hids : ∀ r ∈ s.records, r.id < s.nextRunId) {args : List (BackupJob × RemoteConfig)}
    {as : List CallsAction} (hothers : ∀ a, .other a ∈ as → a.writesRuns = false)
    {s' : ServerCalls} (h : exec (ServerCalls.step serde) (.init s args) as = some s') {i : Nat}
    {c : BackupCall} (hc : s'.parts[i]? = some c) {id : Int} (hret : c.pc = .returned (.ok id)) :
    ((∃ r ∈ s'.shared.records, r.id = id) ↔ ¬ RecordDeleted serde (.init s args) as id) ∧
      ∀ r ∈ s'.shared.records, r.id = id → r.isSuccess = true ∧ r.exitCode = some 0 := by
  let t := s.runsTable hs hids
  have hshows : Shows (ServerCalls.init s args).shared t := ⟨hs, List.Sublist.refl _, rfl⟩
  obtain ⟨t', hcalls, hshows'⟩ := ServerCalls.exec_simulates serde hshows hothers h
  obtain ⟨hinv, hsucceeded⟩ := callSucceeded_of_exec (t := t) hcalls
  obtain ⟨hown, r, hr, hstatus⟩ := (hsucceeded i c hc).returned id hret
  have hbase := ((hinv.each i c hc).row id hown).1
  have hexit : r.exitCode = some 0 := ((hinv.rows id r hr hbase).success hstatus).1
  have hledger := ledger_of_exec hs hids hothers h
  have hlt : id < s'.shared.nextRunId := by
    rw [hshows'.nextId]
    exact t'.find_lt hr
  refine ⟨⟨?_, fun hnot => ?_⟩, fun x hx hxid => ?_⟩
  · rintro ⟨x, hx, hxid⟩ hdel
    exact (hledger.deleted id hdel).2 (List.mem_map.2 ⟨x, hx, hxid⟩)
  · exact List.mem_map.1 ((hledger.kept id hbase hlt).resolve_right hnot)
  · -- it is the row the call owns
    have hfind := t'.find_of_mem (hshows'.records.subset hx)
    rw [hxid, hr] at hfind
    cases hfind
    exact ⟨by rw [Run.isSuccess, hstatus]; decide, hexit⟩

/-- The id a call has returned. -/
def BackupCall.returnedId (c : BackupCall) : Option Int :=
  match c.pc with
  | .returned (.ok id) => some id
  | _ => none

theorem BackupCall.pc_of_returnedId {c : BackupCall} {id : Int} (h : c.returnedId = some id) :
    c.pc = .returned (.ok id) := by
  unfold BackupCall.returnedId at h
  split at h
  · rename_i hpc
    cases h
    exact hpc
  · cases h

/-- The job is deleted while restic runs: the backup returns its id, and there is no record.  If it
    is not, the record is there, a success. -/
theorem recorded_iff_not_deleted_job :
    let as := sampleBackup.take 2 ++
      .other (.other (.delete .backupJobs fun r => r "id" == .uuid 1)) :: sampleBackup.drop 2
    (∃ s c, exec (ServerCalls.step .ofSnapshotLine) (.init .sample sampleArgs) as = some s ∧
      s.parts[0]? = some c ∧ c.pc = .returned (.ok 1) ∧ s.shared.records = [] ∧
      RecordDeleted .ofSnapshotLine (.init .sample sampleArgs) as 1) ∧
    ∃ s r, exec (ServerCalls.step .ofSnapshotLine) (.init .sample sampleArgs) sampleBackup =
        some s ∧ r ∈ s.shared.records ∧ r.id = 1 ∧ r.isSuccess = true ∧ r.exitCode = some 0 := by
  intro as
  have hothers : ∀ a, .other a ∈ as → ServerAction.writesRuns a = false := by
    simp [as, sampleBackup, ServerAction.writesRuns]
  have hsome :
      (exec (ServerCalls.step .ofSnapshotLine) (.init .sample sampleArgs) as).isSome = true := by
    decide +kernel
  have hend : ∀ s ∈ exec (ServerCalls.step .ofSnapshotLine) (.init .sample sampleArgs) as,
      s.parts[0]?.bind BackupCall.returnedId = some 1 ∧ s.shared.records = [] := by
    decide +kernel
  obtain ⟨s, h⟩ := Option.isSome_iff_exists.1 hsome
  obtain ⟨hid, hrecords⟩ := hend s h
  obtain ⟨c, hc, hret⟩ := Option.bind_eq_some_iff.1 hid
  have hpc := BackupCall.pc_of_returnedId hret
  refine ⟨⟨s, c, h, hc, hpc, hrecords, ?_⟩, ?_⟩
  · by_contra hnot
    obtain ⟨r, hr, -⟩ := (recorded_iff_not_deleted .ofSnapshotLine Server.sample_valid
      (by decide +kernel) hothers h hc hpc).1.2 hnot
    rw [hrecords] at hr
    cases hr
  · have hsome' : (exec (ServerCalls.step .ofSnapshotLine) (.init .sample sampleArgs)
        sampleBackup).isSome = true := by decide +kernel
    have hend' : ∀ s ∈ exec (ServerCalls.step .ofSnapshotLine) (.init .sample sampleArgs)
        sampleBackup, s.parts[0]?.bind BackupCall.returnedId = some 1 ∧
          s.shared.records.map Run.id = [1] := by decide +kernel
    obtain ⟨s, h⟩ := Option.isSome_iff_exists.1 hsome'
    obtain ⟨hid, hrecords⟩ := hend' s h
    obtain ⟨c, hc, hret⟩ := Option.bind_eq_some_iff.1 hid
    obtain ⟨r, hr, hrid⟩ : ∃ r ∈ s.shared.records, r.id = 1 :=
      List.mem_map.1 (by rw [hrecords]; exact List.mem_cons_self)
    refine ⟨s, r, h, hr, hrid, (recorded_iff_not_deleted .ofSnapshotLine Server.sample_valid
      (by decide +kernel) (fun a ha => ?_) h hc (BackupCall.pc_of_returnedId hret)).2 r hr hrid⟩
    simp [sampleBackup] at ha

end RBackup2

import Mathlib.Logic.Relation
import RBackup2.Error
import RBackup2.Lib.Text

/-!
# restic's output

`backup/output.rs`: `parseResticJsonOutput` looks for the first line of restic's JSON output that
is a summary and decodes as one, and takes the statistics from it.  The two decodings of a line
are serde_json's and enter as a parameter.

* `findSummary` — the loop over the lines, stopping at the first usable summary.
* `parse_output_first_summary` — the result is that of the first usable summary, whatever noise
  stands around it.
-/

set_option autoImplicit false

namespace RBackup2

structure BackupStats where
  filesNew : Int
  filesChanged : Int
  filesUnmodified : Int
  dirsNew : Int
  dirsChanged : Int
  dirsUnmodified : Int
  dataAddedBytes : Int
  totalFilesProcessed : Int
  totalBytesProcessed : Int
  snapshotId : String
  deriving DecidableEq, Repr

structure ResticMessageType where
  messageType : String
  deriving DecidableEq, Repr

structure ResticSummary where
  filesNew : Option Int
  filesChanged : Option Int
  filesUnmodified : Option Int
  dirsNew : Option Int
  dirsChanged : Option Int
  dirsUnmodified : Option Int
  dataAdded : Option Int
  totalFilesProcessed : Option Int
  totalBytesProcessed : Option Int
  snapshotId : Option String
  deriving DecidableEq, Repr

/-- `serde_json::from_str` at the two types the parser decodes to; an error is its text. -/
structure SerdeJson where
  messageType : String → Except String ResticMessageType
  summary : String → Except String ResticSummary

/-- The loop over `stdout.lines()`. -/
def findSummary (serde : SerdeJson) : List String → Option ResticSummary
  | [] => none
  | line :: rest =>
    let line := Text.trim line
    if line = "" then findSummary serde rest
    else
      match serde.messageType line with
      | .error _ => findSummary serde rest
      | .ok msgType =>
        if msgType.messageType = "summary" then
          match serde.summary line with
          | .ok s => some s
          | .error _ => findSummary serde rest
        else findSummary serde rest

/-- `parse_restic_json_output`. -/
def parseResticJsonOutput (serde : SerdeJson) (stdout : String) : Except AppError BackupStats :=
  match findSummary serde (Text.lines stdout) with
  | none => .error (.backup (.outputParseFailed "No summary message found in restic output"))
  | some summary =>
    match summary.snapshotId with
    | none => .error (.backup (.outputParseFailed "No snapshot_id in summary"))
    | some snapshotId =>
      .ok {
        filesNew := summary.filesNew.getD 0
        filesChanged := summary.filesChanged.getD 0
        filesUnmodified := summary.filesUnmodified.getD 0
        dirsNew := summary.dirsNew.getD 0
        dirsChanged := summary.dirsChanged.getD 0
        dirsUnmodified := summary.dirsUnmodified.getD 0
        dataAddedBytes := summary.dataAdded.getD 0
        totalFilesProcessed := summary.totalFilesProcessed.getD 0
        totalBytesProcessed := summary.totalBytesProcessed.getD 0
        snapshotId := snapshotId }

/-! ## The lines around the summary -/

/-- A line the loop passes over. -/
inductive NoiseLine (serde : SerdeJson) (line : String) : Prop where
  | blank (h : Text.trim line = "")
  | undecodable (e : String) (h : serde.messageType (Text.trim line) = .error e)
  | otherType (m : ResticMessageType) (h : serde.messageType (Text.trim line) = .ok m)
      (hne : m.messageType ≠ "summary")
  | undecodableSummary (e : String) (h : serde.summary (Text.trim line) = .error e)

/-- A line the loop stops at: a message of type `summary` whose body decodes. -/
structure SummaryOf (serde : SerdeJson) (line : String) (s : ResticSummary) : Prop where
  text : Text.trim line ≠ ""
  messageType : serde.messageType (Text.trim line) = .ok ⟨"summary"⟩
  body : serde.summary (Text.trim line) = .ok s

theorem noise_or_summary (serde : SerdeJson) (line : String) :
    NoiseLine serde line ∨ ∃ s, SummaryOf serde line s := by
  by_cases hblank : Text.trim line = ""
  · exact .inl (.blank hblank)
  · cases hm : serde.messageType (Text.trim line) with
    | error e => exact .inl (.undecodable e hm)
    | ok m =>
      by_cases htype : m.messageType = "summary"
      · cases hs : serde.summary (Text.trim line) with
        | error e => exact .inl (.undecodableSummary e hs)
        | ok s =>
          refine .inr ⟨s, hblank, ?_, hs⟩
          rw [hm, ← htype]
      · exact .inl (.otherType m hm htype)

theorem findSummary_cons_noise {serde : SerdeJson} {line : String} (h : NoiseLine serde line)
    (rest : List String) : findSummary serde (line :: rest) = findSummary serde rest := by
  simp only [findSummary]
  split
  · rfl
  · rename_i hblank
    split
    · rfl
    · rename_i m hm
      split
      · rename_i htype
        split
        · -- a line that decodes all the way is none of the four kinds of noise
          rename_i s hs
          cases h with
          | blank h => exact absurd h hblank
          | undecodable e h => rw [hm] at h; cases h
          | otherType m' h hne => rw [hm] at h; cases h; exact absurd htype hne
          | undecodableSummary e h => rw [hs] at h; cases h
        · rfl
      · rfl

theorem findSummary_cons_summary {serde : SerdeJson} {line : String} {s : ResticSummary}
    (h : SummaryOf serde line s) (rest : List String) :
    findSummary serde (line :: rest) = some s := by
  simp only [findSummary, if_neg h.text, h.messageType, if_true, h.body]

theorem findSummary_append_noise {serde : SerdeJson} {pre : List String}
    (h : ∀ l ∈ pre, NoiseLine serde l) (rest : List String) :
    findSummary serde (pre ++ rest) = findSummary serde rest := by
  induction pre with
  | nil => rfl
  | cons line pre ih =>
    rw [List.cons_append, findSummary_cons_noise (h line List.mem_cons_self)]
    exact ih fun l hl => h l (List.mem_cons_of_mem _ hl)

/-- What stands before some lines does not tell apart what the loop does not tell apart. -/
theorem findSummary_append_congr {serde : SerdeJson} {ls ls' : List String}
    (h : findSummary serde ls = findSummary serde ls') (pre : List String) :
    findSummary serde (pre ++ ls) = findSummary serde (pre ++ ls') := by
  induction pre with
  | nil => exact h
  | cons line pre ih =>
    rw [List.cons_append, List.cons_append]
    rcases noise_or_summary serde line with hnoise | ⟨s, hs⟩
    · rw [findSummary_cons_noise hnoise, findSummary_cons_noise hnoise, ih]
    · rw [findSummary_cons_summary hs, findSummary_cons_summary hs]

/-- The first of the lines that is a summary and decodes as one. -/
def FirstSummary (serde : SerdeJson) (ls : List String) (line : String) (s : ResticSummary) :
    Prop :=
  ∃ pre post, ls = pre ++ line :: post ∧ (∀ l ∈ pre, ¬ ∃ s', SummaryOf serde l s') ∧
    SummaryOf serde line s

theorem FirstSummary.cons_noise {serde : SerdeJson} {ls : List String} {line l : String}
    {s : ResticSummary} (hl : ¬ ∃ s', SummaryOf serde l s') (h : FirstSummary serde ls line s) :
    FirstSummary serde (l :: ls) line s := by
  obtain ⟨pre, post, rfl, hpre, hs⟩ := h
  exact ⟨l :: pre, post, rfl, List.forall_mem_cons.2 ⟨hl, hpre⟩, hs⟩

theorem findSummary_eq_some_iff {serde : SerdeJson} {ls : List String} {s : ResticSummary} :
    findSummary serde ls = some s ↔ ∃ line, FirstSummary serde ls line s := by
  constructor
  · intro h
    induction ls with
    | nil => cases h
    | cons l ls ih =>
      by_cases hl : ∃ s', SummaryOf serde l s'
      · obtain ⟨s', hs'⟩ := hl
        rw [findSummary_cons_summary hs'] at h
        cases h
        exact ⟨l, [], ls, rfl, fun _ hmem => absurd hmem List.not_mem_nil, hs'⟩
      · have hnoise := (noise_or_summary serde l).resolve_right hl
        rw [findSummary_cons_noise hnoise] at h
        obtain ⟨line, hfirst⟩ := ih h
        exact ⟨line, hfirst.cons_noise hl⟩
  · rintro ⟨line, pre, post, rfl, hpre, hs⟩
    have hnoise : ∀ l ∈ pre, NoiseLine serde l :=
      fun l hl => (noise_or_summary serde l).resolve_right (hpre l hl)
    rw [findSummary_append_noise hnoise, findSummary_cons_summary hs]

/-- One change of the lines that leaves the first usable summary in its place. -/
inductive LineEdit (serde : SerdeJson) : List String → List String → Prop where
  | insert (pre post : List String) (line : String) (h : NoiseLine serde line) :
      LineEdit serde (pre ++ post) (pre ++ line :: post)
  | delete (pre post : List String) (line : String) (h : NoiseLine serde line) :
      LineEdit serde (pre ++ line :: post) (pre ++ post)
  | append (pre post post' : List String) (line : String) (s : ResticSummary)
      (h : SummaryOf serde line s) : LineEdit serde (pre ++ line :: post) (pre ++ line :: post')

theorem findSummary_edit {serde : SerdeJson} {ls ls' : List String}
    (h : LineEdit serde ls ls') : findSummary serde ls' = findSummary serde ls := by
  cases h with
  | insert pre post line h => exact findSummary_append_congr (findSummary_cons_noise h post) pre
  | delete pre post line h =>
    exact findSummary_append_congr (findSummary_cons_noise h post).symm pre
  | append pre post post' line s h =>
    refine findSummary_append_congr ?_ pre
    rw [findSummary_cons_summary h, findSummary_cons_summary h]

theorem findSummary_edits {serde : SerdeJson} {ls ls' : List String}
    (h : Relation.ReflTransGen (LineEdit serde) ls ls') :
    findSummary serde ls' = findSummary serde ls := by
  induction h with
  | refl => rfl
  | tail _ hstep ih => rw [findSummary_edit hstep, ih]

/-- The statistics of a summary; a counter that is absent or null is `0`. -/
def ResticSummary.backupStats (summary : ResticSummary) (snapshotId : String) : BackupStats where
  filesNew := summary.filesNew.getD 0
  filesChanged := summary.filesChanged.getD 0
  filesUnmodified := summary.filesUnmodified.getD 0
  dirsNew := summary.dirsNew.getD 0
  dirsChanged := summary.dirsChanged.getD 0
  dirsUnmodified := summary.dirsUnmodified.getD 0
  dataAddedBytes := summary.dataAdded.getD 0
  totalFilesProcessed := summary.totalFilesProcessed.getD 0
  totalBytesProcessed := summary.totalBytesProcessed.getD 0
  snapshotId := snapshotId

theorem parse_output_congr {serde : SerdeJson} {stdout stdout' : String}
    (h : findSummary serde (Text.lines stdout') = findSummary serde (Text.lines stdout)) :
    parseResticJsonOutput serde stdout' = parseResticJsonOutput serde stdout := by
  unfold parseResticJsonOutput
  rw [h]

theorem parse_output_ok_iff {serde : SerdeJson} {stdout : String} {stats : BackupStats} :
    parseResticJsonOutput serde stdout = .ok stats ↔
      ∃ s id, findSummary serde (Text.lines stdout) = some s ∧ s.snapshotId = some id ∧
        stats = s.backupStats id := by
  unfold parseResticJsonOutput
  split
  · rename_i hnone
    simp [hnone]
  · rename_i s hs
    split
    · rename_i hid
      simp [hs, hid]
    · rename_i id hid
      simp only [hs, Option.some.injEq, exists_and_left, exists_eq_left', hid, Except.ok.injEq]
      exact eq_comm

/-- Noise between two line endings of the output. -/
theorem parse_output_insert_noise {serde : SerdeJson} {noise : String}
    (h : ∀ l ∈ Text.lines (noise ++ "\n"), NoiseLine serde l) (a b : String) :
    parseResticJsonOutput serde (a ++ "\n" ++ (noise ++ "\n" ++ b)) =
      parseResticJsonOutput serde (a ++ "\n" ++ b) := by
  refine parse_output_congr ?_
  rw [Text.lines_append_newline a, Text.lines_append_newline noise, Text.lines_append_newline a]
  exact findSummary_append_congr (findSummary_append_noise h (Text.lines b)) _

/-- **The result is that of the first usable summary**, and no edit of the noise around it
changes it. -/
theorem parse_output_first_summary (serde : SerdeJson) (stdout : String) :
    (∀ stats, parseResticJsonOutput serde stdout = .ok stats ↔
      ∃ line s id, FirstSummary serde (Text.lines stdout) line s ∧ s.snapshotId = some id ∧
        stats = s.backupStats id) ∧
    (∀ stdout', (∀ line s, FirstSummary serde (Text.lines stdout) line s ↔
        FirstSummary serde (Text.lines stdout') line s) →
      parseResticJsonOutput serde stdout' = parseResticJsonOutput serde stdout) ∧
    ∀ stdout', Relation.ReflTransGen (LineEdit serde) (Text.lines stdout) (Text.lines stdout') →
      parseResticJsonOutput serde stdout' = parseResticJsonOutput serde stdout := by
  refine ⟨fun stats => ?_, fun stdout' h => ?_, fun stdout' h => ?_⟩
  · rw [parse_output_ok_iff]
    constructor
    · rintro ⟨s, id, hs, hid, hstats⟩
      obtain ⟨line, hfirst⟩ := findSummary_eq_some_iff.1 hs
      exact ⟨line, s, id, hfirst, hid, hstats⟩
    · rintro ⟨line, s, id, hfirst, hid, hstats⟩
      exact ⟨s, id, findSummary_eq_some_iff.2 ⟨line, hfirst⟩, hid, hstats⟩
  · refine parse_output_congr (Option.ext fun s => ?_)
    rw [findSummary_eq_some_iff, findSummary_eq_some_iff]
    exact exists_congr fun line => (h line s).symm
  · exact parse_output_congr (findSummary_edits h)

/-- A summary line that carries nothing but the snapshot. -/
def snapshotLine : String :=
  "\x7b\"message_type\":\"summary\",\"snapshot_id\":\"abc123\"\x7d"

/-- What serde_json makes of `snapshotLine`, and of a line that is no JSON. -/
def SerdeJson.ofSnapshotLine : SerdeJson where
  messageType := fun line =>
    if line = snapshotLine then .ok ⟨"summary"⟩ else .error "expected value at line 1 column 1"
  summary := fun line =>
    if line = snapshotLine then
      .ok ⟨none, none, none, none, none, none, none, none, none, some "abc123"⟩
    else .error "expected value at line 1 column 1"

theorem snapshotLine_summaryOf : SummaryOf .ofSnapshotLine snapshotLine
    ⟨none, none, none, none, none, none, none, none, none, some "abc123"⟩ := by
  have htrim : Text.trim snapshotLine = snapshotLine :=
    Text.trim_eq_self (a := '\x7b') (b := '\x7d') (by decide) (by decide) (by decide) (by decide)
  constructor
  · rw [htrim]
    decide
  · rw [htrim]
    rfl
  · rw [htrim]
    rfl

/-- A blank line in front of the summary, and a line behind it that is no JSON: the result is the
    snapshot of the summary, with a zero for every counter that it leaves out. -/
theorem parse_output_blank_line :
    let stats : BackupStats := ⟨0, 0, 0, 0, 0, 0, 0, 0, 0, "abc123"⟩
    parseResticJsonOutput .ofSnapshotLine snapshotLine = .ok stats ∧
      parseResticJsonOutput .ofSnapshotLine ("\n" ++ (snapshotLine ++ "\n" ++ "done")) =
        .ok stats := by
  intro stats
  have hone : Text.lines snapshotLine = [snapshotLine] := by decide +kernel
  have hall : Text.lines ("\n" ++ (snapshotLine ++ "\n" ++ "done")) =
      ["", snapshotLine, "done"] := by decide +kernel
  have hedit : Relation.ReflTransGen (LineEdit .ofSnapshotLine) (Text.lines snapshotLine)
      (Text.lines ("\n" ++ (snapshotLine ++ "\n" ++ "done"))) := by
    rw [hone, hall]
    exact (Relation.ReflTransGen.single
      (.insert [] [snapshotLine] "" (.blank rfl))).tail
      (.append [""] [] ["done"] snapshotLine _ snapshotLine_summaryOf)
  obtain ⟨hstats, -, hnoise⟩ := parse_output_first_summary .ofSnapshotLine snapshotLine
  have hok : parseResticJsonOutput .ofSnapshotLine snapshotLine = .ok stats := by
    refine (hstats stats).2 ⟨snapshotLine, _, "abc123", ⟨[], [], hone, ?_, snapshotLine_summaryOf⟩,
      rfl, rfl⟩
    exact fun l hl => absurd hl List.not_mem_nil
  exact ⟨hok, (hnoise _ hedit).trans hok⟩

end RBackup2

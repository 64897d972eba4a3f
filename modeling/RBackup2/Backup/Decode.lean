import Mathlib.Algebra.Ring.Int.Defs
import RBackup2.Backup.Stats

/-!
# Decoding restic's summary

What the derived `Deserialize` implementations of `ResticMessageType` and `ResticSummary` make of
a line of JSON.  The text of a line becomes a `Json` by a parser that is a parameter; from there
on a struct takes its fields by name, in any order, ignores the names it does not know, and reads
an integer only if it is in the range of the field's type.

* `deInt_counter` — a counter restic prints decodes exactly if the field's type can hold it.
* `ofFields_printed` — a summary decodes exactly if all of its counters do.
* `summary_recorded_iff` — the statistics are parsed, and the run is recorded as a success,
  exactly when every counter fits.
-/

set_option autoImplicit false

namespace RBackup2

/-! ## serde_json

An error is the text serde_json gives it, without the position in the line it appends. -/

/-- The value of a field; a name that stands twice is an error. -/
def Json.field (fields : List (String × Json)) (name : String) : Except String (Option Json) :=
  match fields.filter (fun f => f.1 == name) with
  | [] => .ok none
  | [f] => .ok (some f.2)
  | _ => .error ("duplicate field `" ++ name ++ "`")

/-- What serde calls a value in its error messages. -/
def Json.unexpected : Json → String
  | .null => "null"
  | .bool b => "boolean `" ++ (if b then "true" else "false") ++ "`"
  | .int n => "integer `" ++ toString n ++ "`"
  | .float text => "floating point `" ++ text ++ "`"
  | .string s => "string \"" ++ s ++ "\""
  | .array _ => "sequence"
  | .object _ => "map"

/-- A signed integer of `bits` bits. -/
def deInt (bits : Nat) : Json → Except String Int
  | .int n =>
    if -2 ^ (bits - 1) ≤ n ∧ n < 2 ^ (bits - 1) then .ok n
    else .error ("invalid value: integer `" ++ toString n ++ "`, expected i" ++ toString bits)
  | v => .error ("invalid type: " ++ v.unexpected ++ ", expected i" ++ toString bits)

def deString : Json → Except String String
  | .string s => .ok s
  | v => .error ("invalid type: " ++ v.unexpected ++ ", expected a string")

/-- `Option<T>`. -/
def deOption {α : Type} (de : Json → Except String α) : Json → Except String (Option α)
  | .null => .ok none
  | v => (de v).map some

/-- A field of type `Option<T>`, which may be missing. -/
def optionalField {α : Type} (de : Json → Except String α) (fields : List (String × Json))
    (name : String) : Except String (Option α) := do
  match ← Json.field fields name with
  | none => .ok none
  | some v => deOption de v

/-- A field that may not be missing. -/
def requiredField {α : Type} (de : Json → Except String α) (fields : List (String × Json))
    (name : String) : Except String α := do
  match ← Json.field fields name with
  | none => .error ("missing field `" ++ name ++ "`")
  | some v => de v

/-! ## The two types the parser decodes to -/

/-- `ResticMessageType`; a struct can also be read from the array of its fields. -/
def ResticMessageType.ofJson : Json → Except String ResticMessageType
  | .object fields => do
    let messageType ← requiredField deString fields "message_type"
    .ok ⟨messageType⟩
  | .array [messageType] => do
    let messageType ← deString messageType
    .ok ⟨messageType⟩
  | .array items => .error ("invalid length " ++ toString items.length ++
      ", expected struct ResticMessageType with 1 element")
  | v => .error ("invalid type: " ++ v.unexpected ++ ", expected struct ResticMessageType")

/-- The fields of `ResticSummary` in an object. -/
def ResticSummary.ofFields (fields : List (String × Json)) : Except String ResticSummary := do
  let filesNew ← optionalField (deInt 32) fields "files_new"
  let filesChanged ← optionalField (deInt 32) fields "files_changed"
  let filesUnmodified ← optionalField (deInt 32) fields "files_unmodified"
  let dirsNew ← optionalField (deInt 32) fields "dirs_new"
  let dirsChanged ← optionalField (deInt 32) fields "dirs_changed"
  let dirsUnmodified ← optionalField (deInt 32) fields "dirs_unmodified"
  let dataAdded ← optionalField (deInt 64) fields "data_added"
  let totalFilesProcessed ← optionalField (deInt 32) fields "total_files_processed"
  let totalBytesProcessed ← optionalField (deInt 64) fields "total_bytes_processed"
  let snapshotId ← optionalField deString fields "snapshot_id"
  .ok ⟨filesNew, filesChanged, filesUnmodified, dirsNew, dirsChanged, dirsUnmodified, dataAdded,
    totalFilesProcessed, totalBytesProcessed, snapshotId⟩

/-- `ResticSummary`. -/
def ResticSummary.ofJson : Json → Except String ResticSummary
  | .object fields => ResticSummary.ofFields fields
  | .array [filesNew, filesChanged, filesUnmodified, dirsNew, dirsChanged, dirsUnmodified,
      dataAdded, totalFilesProcessed, totalBytesProcessed, snapshotId] => do
    let filesNew ← deOption (deInt 32) filesNew
    let filesChanged ← deOption (deInt 32) filesChanged
    let filesUnmodified ← deOption (deInt 32) filesUnmodified
    let dirsNew ← deOption (deInt 32) dirsNew
    let dirsChanged ← deOption (deInt 32) dirsChanged
    let dirsUnmodified ← deOption (deInt 32) dirsUnmodified
    let dataAdded ← deOption (deInt 64) dataAdded
    let totalFilesProcessed ← deOption (deInt 32) totalFilesProcessed
    let totalBytesProcessed ← deOption (deInt 64) totalBytesProcessed
    let snapshotId ← deOption deString snapshotId
    .ok ⟨filesNew, filesChanged, filesUnmodified, dirsNew, dirsChanged, dirsUnmodified, dataAdded,
      totalFilesProcessed, totalBytesProcessed, snapshotId⟩
  | .array items => .error ("invalid length " ++ toString items.length ++
      ", expected struct ResticSummary with 10 elements")
  | v => .error ("invalid type: " ++ v.unexpected ++ ", expected struct ResticSummary")

/-- `serde_json::from_str` over a parser of JSON texts. -/
def SerdeJson.ofParser (parse : String → Except String Json) : SerdeJson where
  messageType := fun line => do ResticMessageType.ofJson (← parse line)
  summary := fun line => do ResticSummary.ofJson (← parse line)

/-! ## What restic prints -/

/-- The counters kept in an `i32`. -/
def BackupStats.i32Counters (stats : BackupStats) : List Int :=
  [stats.filesNew, stats.filesChanged, stats.filesUnmodified, stats.dirsNew, stats.dirsChanged,
    stats.dirsUnmodified, stats.totalFilesProcessed]

/-- The counters kept in an `i64`. -/
def BackupStats.i64Counters (stats : BackupStats) : List Int :=
  [stats.dataAddedBytes, stats.totalBytesProcessed]

/-- The counters are unsigned 64-bit integers. -/
def BackupStats.Unsigned (stats : BackupStats) : Prop :=
  ∀ n ∈ stats.i32Counters ++ stats.i64Counters, 0 ≤ n ∧ n < 2 ^ 64

/-- Every counter fits the field it is read into. -/
def BackupStats.Fits (stats : BackupStats) : Prop :=
  (∀ n ∈ stats.i32Counters, n < 2 ^ 31) ∧ ∀ n ∈ stats.i64Counters, n < 2 ^ 63

instance (stats : BackupStats) : Decidable stats.Unsigned :=
  inferInstanceAs (Decidable (∀ _ ∈ _, _))

instance (stats : BackupStats) : Decidable stats.Fits :=
  inferInstanceAs (Decidable (_ ∧ _))

/-- The fields of a summary of these statistics; there may be others. -/
structure PrintedSummary (fields : List (String × Json)) (stats : BackupStats) : Prop where
  messageType : Json.field fields "message_type" = .ok (some (.string "summary"))
  filesNew : Json.field fields "files_new" = .ok (some (.int stats.filesNew))
  filesChanged : Json.field fields "files_changed" = .ok (some (.int stats.filesChanged))
  filesUnmodified : Json.field fields "files_unmodified" = .ok (some (.int stats.filesUnmodified))
  dirsNew : Json.field fields "dirs_new" = .ok (some (.int stats.dirsNew))
  dirsChanged : Json.field fields "dirs_changed" = .ok (some (.int stats.dirsChanged))
  dirsUnmodified : Json.field fields "dirs_unmodified" = .ok (some (.int stats.dirsUnmodified))
  dataAdded : Json.field fields "data_added" = .ok (some (.int stats.dataAddedBytes))
  totalFilesProcessed :
    Json.field fields "total_files_processed" = .ok (some (.int stats.totalFilesProcessed))
  totalBytesProcessed :
    Json.field fields "total_bytes_processed" = .ok (some (.int stats.totalBytesProcessed))
  snapshotId : Json.field fields "snapshot_id" = .ok (some (.string stats.snapshotId))

/-- The line is a summary of these statistics. -/
structure SummaryLine (parse : String → Except String Json) (stats : BackupStats) (line : String) :
    Prop where
  text : Text.trim line ≠ ""
  printed : ∃ fields, parse (Text.trim line) = .ok (.object fields) ∧ PrintedSummary fields stats

/-- The line is no message, or a message of another type. -/
def NonSummaryLine (parse : String → Except String Json) (line : String) : Prop :=
  Text.trim line = "" ∨
    (SerdeJson.ofParser parse).messageType (Text.trim line) ≠ .ok ⟨"summary"⟩

/-! ## Decoding a summary -/

/-- The summary all of whose fields are there. -/
def BackupStats.summary (stats : BackupStats) : ResticSummary :=
  ⟨some stats.filesNew, some stats.filesChanged, some stats.filesUnmodified, some stats.dirsNew,
    some stats.dirsChanged, some stats.dirsUnmodified, some stats.dataAddedBytes,
    some stats.totalFilesProcessed, some stats.totalBytesProcessed, some stats.snapshotId⟩

/-- A counter decodes exactly if the field's type can hold it. -/
theorem deInt_counter {b : Nat} {n : Int} (hn : 0 ≤ n) {fields : List (String × Json)}
    {name : String} (h : Json.field fields name = .ok (some (.int n))) :
    (n < 2 ^ (b - 1) → optionalField (deInt b) fields name = .ok (some n)) ∧
      ∀ r, optionalField (deInt b) fields name = .ok r → n < 2 ^ (b - 1) := by
  have hpow : (0 : Int) < 2 ^ (b - 1) := Int.pow_pos (by omega)
  have hfield : optionalField (deInt b) fields name = (deInt b (.int n)).map some := by
    unfold optionalField
    rw [h]
    rfl
  rw [hfield]
  constructor
  · intro hlt
    rw [deInt, if_pos ⟨by omega, hlt⟩]
    rfl
  · intro r hr
    rw [deInt] at hr
    split at hr
    · rename_i hin
      exact hin.2
    · cases hr

theorem bind_ok {α β : Type} {x : Except String α} {f : α → Except String β} {b : β}
    (h : (x >>= f) = .ok b) : ∃ a, x = .ok a ∧ f a = .ok b := by
  cases x with
  | error e => cases h
  | ok a => exact ⟨a, rfl, h⟩

/-- **A summary decodes exactly if all of its counters fit**, and then to what was printed. -/
theorem ofFields_printed {fields : List (String × Json)} {stats : BackupStats}
    (h : PrintedSummary fields stats) (hu : stats.Unsigned) :
    (stats.Fits → ResticSummary.ofFields fields = .ok stats.summary) ∧
      ∀ s, ResticSummary.ofFields fields = .ok s → stats.Fits := by
  simp only [BackupStats.Unsigned, BackupStats.i32Counters, BackupStats.i64Counters,
    List.cons_append, List.nil_append, List.forall_mem_cons] at hu
  obtain ⟨u1, u2, u3, u4, u5, u6, u7, u8, u9, -⟩ := hu
  have c1 := deInt_counter (b := 32) u1.1 h.filesNew
  have c2 := deInt_counter (b := 32) u2.1 h.filesChanged
  have c3 := deInt_counter (b := 32) u3.1 h.filesUnmodified
  have c4 := deInt_counter (b := 32) u4.1 h.dirsNew
  have c5 := deInt_counter (b := 32) u5.1 h.dirsChanged
  have c6 := deInt_counter (b := 32) u6.1 h.dirsUnmodified
  have c7 := deInt_counter (b := 32) u7.1 h.totalFilesProcessed
  have c8 := deInt_counter (b := 64) u8.1 h.dataAdded
  have c9 := deInt_counter (b := 64) u9.1 h.totalBytesProcessed
  have hid : optionalField deString fields "snapshot_id" = .ok (some stats.snapshotId) := by
    unfold optionalField
    rw [h.snapshotId]
    rfl
  simp only [BackupStats.Fits, BackupStats.i32Counters, BackupStats.i64Counters,
    List.forall_mem_cons]
  constructor
  · rintro ⟨⟨f1, f2, f3, f4, f5, f6, f7, -⟩, f8, f9, -⟩
    unfold ResticSummary.ofFields
    rw [c1.1 f1, c2.1 f2, c3.1 f3, c4.1 f4, c5.1 f5, c6.1 f6, c7.1 f7, c8.1 f8, c9.1 f9, hid]
    rfl
  · intro s hs
    -- the fields are decoded one after the other, and none of them failed
    obtain ⟨r1, e1, hs⟩ := bind_ok hs
    obtain ⟨r2, e2, hs⟩ := bind_ok hs
    obtain ⟨r3, e3, hs⟩ := bind_ok hs
    obtain ⟨r4, e4, hs⟩ := bind_ok hs
    obtain ⟨r5, e5, hs⟩ := bind_ok hs
    obtain ⟨r6, e6, hs⟩ := bind_ok hs
    obtain ⟨r8, e8, hs⟩ := bind_ok hs
    obtain ⟨r7, e7, hs⟩ := bind_ok hs
    obtain ⟨r9, e9, -⟩ := bind_ok hs
    exact ⟨⟨c1.2 r1 e1, c2.2 r2 e2, c3.2 r3 e3, c4.2 r4 e4, c5.2 r5 e5, c6.2 r6 e6, c7.2 r7 e7,
      by simp⟩, c8.2 r8 e8, c9.2 r9 e9, by simp⟩

/-! ## The loop over the lines -/

theorem NonSummaryLine.noise {parse : String → Except String Json} {line : String}
    (h : NonSummaryLine parse line) : NoiseLine (.ofParser parse) line := by
  rcases h with hblank | hother
  · exact .blank hblank
  · rcases noise_or_summary (.ofParser parse) line with hnoise | ⟨s, hs⟩
    · exact hnoise
    · exact absurd hs.messageType hother

theorem findSummary_skip {parse : String → Except String Json} {pre : List String}
    (h : ∀ l ∈ pre, NonSummaryLine parse l) (rest : List String) :
    findSummary (.ofParser parse) (pre ++ rest) = findSummary (.ofParser parse) rest :=
  findSummary_append_noise (fun l hl => (h l hl).noise) rest

/-- The summary line ends the loop if it decodes, and is passed over if it does not. -/
theorem findSummary_line {parse : String → Except String Json} {stats : BackupStats}
    {line : String} (h : SummaryLine parse stats line) (hu : stats.Unsigned)
    (rest : List String) : findSummary (.ofParser parse) (line :: rest) =
      if stats.Fits then some stats.summary else findSummary (.ofParser parse) rest := by
  obtain ⟨fields, hparse, hprinted⟩ := h.printed
  obtain ⟨hfits, hok⟩ := ofFields_printed hprinted hu
  have hmsg : (SerdeJson.ofParser parse).messageType (Text.trim line) = .ok ⟨"summary"⟩ := by
    simp only [SerdeJson.ofParser, hparse]
    show (do
      let m ← requiredField deString fields "message_type"
      Except.ok (ResticMessageType.mk m)) = _
    unfold requiredField
    rw [hprinted.messageType]
    rfl
  have hsum : (SerdeJson.ofParser parse).summary (Text.trim line) =
      ResticSummary.ofFields fields := by
    simp only [SerdeJson.ofParser, hparse]
    rfl
  by_cases hf : stats.Fits
  · rw [if_pos hf]
    exact findSummary_cons_summary ⟨h.text, hmsg, hsum.trans (hfits hf)⟩ rest
  · rw [if_neg hf]
    refine findSummary_cons_noise ?_ rest
    cases hs : ResticSummary.ofFields fields with
    | error e => exact .undecodableSummary e (hsum.trans hs)
    | ok s => exact absurd (hok s hs) hf

/-- The summary of an output with one summary line. -/
theorem findSummary_output {parse : String → Except String Json} {stats : BackupStats}
    {pre post : List String} {line : String} (hpre : ∀ l ∈ pre, NonSummaryLine parse l)
    (hline : SummaryLine parse stats line) (hpost : ∀ l ∈ post, NonSummaryLine parse l)
    (hu : stats.Unsigned) : findSummary (.ofParser parse) (pre ++ line :: post) =
      if stats.Fits then some stats.summary else none := by
  have hnone : findSummary (.ofParser parse) post = none := by
    have h := findSummary_skip hpost []
    rw [List.append_nil] at h
    exact h
  rw [findSummary_skip hpre, findSummary_line hline hu, hnone]

/-- An output is parsed to the statistics printed in it, or to none at all. -/
theorem parse_output {parse : String → Except String Json} {stats : BackupStats}
    {stdout : String} (pre post : List String) {line : String}
    (hlines : Text.lines stdout = pre ++ line :: post)
    (hpre : ∀ l ∈ pre, NonSummaryLine parse l) (hline : SummaryLine parse stats line)
    (hpost : ∀ l ∈ post, NonSummaryLine parse l) (hu : stats.Unsigned) :
    parseResticJsonOutput (.ofParser parse) stdout =
      if stats.Fits then .ok stats
      else .error (.backup (.outputParseFailed "No summary message found in restic output")) := by
  unfold parseResticJsonOutput
  rw [hlines, findSummary_output hpre hline hpost hu]
  split
  · rename_i hnone
    split at hnone
    · cases hnone
    · rename_i hf
      rw [if_neg hf]
  · rename_i summary hsome
    split at hsome
    · rename_i hf
      cases hsome
      rw [if_pos hf]
      rfl
    · cases hsome

/-! ## What is recorded -/

/-- A backup whose process exits with success is recorded as one exactly if its output parses. -/
theorem recorded_success_iff {serde : SerdeJson} {env : BackupEnv} {job : BackupJob}
    {config : RemoteConfig} {t : RunsTable} {cmd : ResticCommand} {output : Output}
    (hc : env.create = .done) (hu : env.update = .done)
    (hcmd : ResticCommand.new env.os env.which config = .ok cmd)
    (hspawn : executeResticCommand env.spawn cmd job = .ok output)
    (hs : output.success = true) :
    (∃ r, (executeBackup serde env job config t).1.find t.nextId = some r ∧
      r.status = "success") ↔ ∃ stats, parseResticJsonOutput serde output.stdout = .ok stats := by
  have hs' : ¬ output.success = false := by simp [hs]
  simp only [executeBackup_row hc hu hcmd, hspawn, conclude, if_neg hs', Option.some.injEq,
    exists_eq_left']
  cases parseResticJsonOutput serde output.stdout with
  | error e => simp [Run.finish, failureUpdate]
  | ok stats => simp [Run.finish, successUpdate]

/-- **Exactly when a success of restic is recorded as one.**  For every output of lines that are
    no summaries and one summary line with any unsigned 64-bit counters: it is parsed to exactly
    those counters and that snapshot, and a process that exited with success has its run recorded
    as `success`, if and only if each counter fits the integer type it is read into. -/
theorem summary_recorded_iff (parse : String → Except String Json) (stats : BackupStats)
    (stdout : String) (pre post : List String) (line : String)
    (hlines : Text.lines stdout = pre ++ line :: post)
    (hpre : ∀ l ∈ pre, NonSummaryLine parse l) (hline : SummaryLine parse stats line)
    (hpost : ∀ l ∈ post, NonSummaryLine parse l) (hunsigned : stats.Unsigned) :
    (parseResticJsonOutput (.ofParser parse) stdout = .ok stats ↔ stats.Fits) ∧
    ∀ (env : BackupEnv) (job : BackupJob) (config : RemoteConfig) (t : RunsTable)
      (cmd : ResticCommand) (stderr : String), env.create = .done → env.update = .done →
      ResticCommand.new env.os env.which config = .ok cmd →
      executeResticCommand env.spawn cmd job = .ok ⟨some 0, stdout, stderr⟩ →
      ((∃ r, (executeBackup (.ofParser parse) env job config t).1.find t.nextId = some r ∧
        r.status = "success") ↔ stats.Fits) := by
  have hout := parse_output pre post hlines hpre hline hpost hunsigned
  constructor
  · rw [hout]
    split
    · rename_i hf
      exact ⟨fun _ => hf, fun _ => rfl⟩
    · rename_i hf
      exact ⟨fun h => (by cases h), fun h => absurd h hf⟩
  · intro env job config t cmd stderr hc hu hcmd hspawn
    rw [recorded_success_iff hc hu hcmd hspawn rfl]
    show (∃ s, parseResticJsonOutput (.ofParser parse) stdout = .ok s) ↔ stats.Fits
    rw [hout]
    split
    · rename_i hf
      exact ⟨fun _ => hf, fun _ => ⟨stats, rfl⟩⟩
    · rename_i hf
      refine ⟨?_, fun h => absurd h hf⟩
      rintro ⟨s, hs⟩
      cases hs

/-! ## A summary line of restic -/

def summaryHead : String :=
  "\x7b\"message_type\":\"summary\",\"files_new\":10,\"files_changed\":5,"

def summaryTail : String :=
  ",\"total_bytes_processed\":10485760,\"snapshot_id\":\"abc123def456\"\x7d"

/-- The summary of the parser's own test, with another total of files. -/
def summaryLine (totalFiles : Nat) : String :=
  summaryHead ++
    ("\"files_unmodified\":85,\"dirs_new\":2,\"dirs_changed\":1,\"dirs_unmodified\":8," ++
    ("\"data_added\":1048576,\"total_files_processed\":" ++ (toString totalFiles ++ summaryTail)))

/-- Its fields. -/
def summaryFields (totalFiles : Nat) : List (String × Json) :=
  [("message_type", .string "summary"), ("files_new", .int 10), ("files_changed", .int 5),
    ("files_unmodified", .int 85), ("dirs_new", .int 2), ("dirs_changed", .int 1),
    ("dirs_unmodified", .int 8), ("data_added", .int 1048576),
    ("total_files_processed", .int totalFiles), ("total_bytes_processed", .int 10485760),
    ("snapshot_id", .string "abc123def456")]

/-- What a parser of JSON makes of that line, and of a text that is no JSON. -/
def parseSummaryLine (totalFiles : Nat) (line : String) : Except String Json :=
  if line = summaryLine totalFiles then .ok (.object (summaryFields totalFiles))
  else .error "expected value at line 1 column 1"

/-- The statistics in it. -/
def summaryStats (totalFiles : Nat) : BackupStats :=
  ⟨10, 5, 85, 2, 1, 8, 1048576, totalFiles, 10485760, "abc123def456"⟩

theorem printed_summaryFields (n : Nat) : PrintedSummary (summaryFields n) (summaryStats n) :=
  ⟨rfl, rfl, rfl, rfl, rfl, rfl, rfl, rfl, rfl, rfl, rfl⟩

theorem summaryLine_ne_empty (n : Nat) : summaryLine n ≠ "" := by
  unfold summaryLine
  exact append_ne_empty (by decide) _

theorem lines_summaryLine {n : Nat} (hn : '\n' ∉ (toString n).toList) :
    Text.lines (summaryLine n) = [summaryLine n] := by
  refine Text.lines_eq_singleton (summaryLine_ne_empty n) ?_
  unfold summaryLine
  rw [String.toList_append, List.mem_append, not_or, String.toList_append, List.mem_append, not_or,
    String.toList_append, List.mem_append, not_or, String.toList_append, List.mem_append, not_or]
  exact ⟨by decide +kernel, by decide +kernel, by decide +kernel, hn, by decide +kernel⟩

theorem trim_summaryLine (n : Nat) : Text.trim (summaryLine n) = summaryLine n := by
  have hfirst : summaryHead.toList.head? = some '\x7b' := by decide +kernel
  have hlast : summaryTail.toList.getLast? = some '\x7d' := by decide +kernel
  refine Text.trim_eq_self (a := '\x7b') (b := '\x7d') ?_ ?_ (by decide) (by decide)
  · simp only [summaryLine, String.toList_append, List.head?_append, hfirst]
    rfl
  · simp only [summaryLine, String.toList_append, List.getLast?_append, hlast]
    rfl

theorem summaryLine_summaryLine (n : Nat) :
    SummaryLine (parseSummaryLine n) (summaryStats n) (summaryLine n) := by
  refine ⟨?_, summaryFields n, ?_, printed_summaryFields n⟩
  · rw [trim_summaryLine]
    exact summaryLine_ne_empty n
  · rw [trim_summaryLine]
    exact if_pos rfl

/-- A hundred files, and a run that is recorded as a success. -/
theorem summary_recorded_iff_hundred :
    parseResticJsonOutput (.ofParser (parseSummaryLine 100)) (summaryLine 100) =
      .ok (summaryStats 100) ∧
    ∃ r, (executeBackup (.ofParser (parseSummaryLine 100)) (.printing (summaryLine 100))
      (.plain 1 "blade") (.ofRepository "sftp:user@host:/path" "secret") .empty).1.find 1 = some r ∧
        r.status = "success" := by
  have h := summary_recorded_iff (parseSummaryLine 100) (summaryStats 100) (summaryLine 100) [] []
    (summaryLine 100) (lines_summaryLine (by decide)) (by simp) (summaryLine_summaryLine 100)
    (by simp) (by decide)
  refine ⟨h.1.2 (by decide), ?_⟩
  exact (h.2 (.printing (summaryLine 100)) (.plain 1 "blade")
    (.ofRepository "sftp:user@host:/path" "secret") .empty _ "" rfl rfl rfl rfl).2 (by decide)

/-- A backup over 2 147 483 648 files: restic succeeds, and its summary is passed over. -/
theorem success_recorded_as_failed :
    ¬ ∀ (parse : String → Except String Json) (stats : BackupStats) (stdout : String)
      (pre post : List String) (line : String), Text.lines stdout = pre ++ line :: post →
      (∀ l ∈ pre, NonSummaryLine parse l) → SummaryLine parse stats line →
      (∀ l ∈ post, NonSummaryLine parse l) → stats.Unsigned →
      parseResticJsonOutput (.ofParser parse) stdout = .ok stats := by
  intro h
  have hfail := h (parseSummaryLine 2147483648) (summaryStats 2147483648) (summaryLine 2147483648)
    [] [] (summaryLine 2147483648) (lines_summaryLine (by decide)) (by simp)
    (summaryLine_summaryLine 2147483648) (by simp) (by decide)
  rw [parse_output [] [] (lines_summaryLine (by decide)) (by simp)
    (summaryLine_summaryLine 2147483648) (by simp) (by decide), if_neg (by decide)] at hfail
  cases hfail

end RBackup2

import RBackup2.Lib.Options
import RBackup2.Backup.Restic

/-!
# What restic reads in the backup command

`buildBackupCommand` flattens four lists of strings into one argument vector. `resticGrammar` is
what restic recovers from it, by position and leading characters.

* `read_flags` — the patterns and tags of a job are read as values, whatever their text.
* `command_line_fidelity_iff` — the vector is read as the job means it exactly when no source path
  starts with a hyphen and every element of `restic_args` is a string.
-/

set_option autoImplicit false

namespace RBackup2

open Options

/-- How restic reads the tokens after `backup`. -/
def resticGrammar : Grammar String where
  isOption t := t.toList.head? == some '-'
  takesValue t := t == "--exclude" || t == "--tag"
  stop := "--"
  isOption_of_takesValue := by
    intro t h
    rw [Bool.or_eq_true, beq_iff_eq, beq_iff_eq] at h
    rcases h with rfl | rfl <;> decide
  isOption_stop := by decide

/-- The tags `buildBackupCommand` passes: the standard ones, then the custom ones. -/
def BackupJob.allTags (job : BackupJob) : List String := job.getResticTags ++ job.tags.getD []

/-- The arguments of a backup, as the job means them. -/
def BackupJob.intended (job : BackupJob) : List (Item String) :=
  .option "--json" :: (job.sourcePaths.map .operand ++
    ((job.excludePatterns.getD []).map (.value "--exclude") ++
      job.allTags.map (.value "--tag")))

/-- The argument vector is read as the job means it: the source paths are the targets, the
    patterns and the tags are values, and after these comes one argument for each element. -/
def CommandLineFidelity (args : List String) (job : BackupJob) (elements : List Json) : Prop :=
  ∃ own extra, args = "backup" :: (own ++ extra) ∧ extra.map some = elements.map Json.asStr ∧
    resticGrammar.read (own ++ extra) = job.intended ++ resticGrammar.read extra

/-- No further target and no further pattern is read anywhere in the vector. -/
def NothingElseRead (args : List String) (job : BackupJob) : Prop :=
  operands (resticGrammar.read args.tail) = job.sourcePaths ∧
    values "--exclude" (resticGrammar.read args.tail) = job.excludePatterns.getD []

/-! ## The vector -/

theorem BackupJob.getResticTags_ne_nil (job : BackupJob) : job.getResticTags ≠ [] := by
  simp [getResticTags]

theorem Json.asStr_isSome_iff (e : Json) : e.asStr.isSome ↔ ∃ s, e = .string s := by
  cases e <;> simp [asStr]

theorem argStrings_array (elements : List Json) :
    argStrings (.array elements) = elements.filterMap Json.asStr := rfl

theorem map_some_argStrings {elements : List Json} (h : ∀ e ∈ elements, ∃ s, e = .string s) :
    (argStrings (.array elements)).map some = elements.map Json.asStr := by
  rw [argStrings_array]
  induction elements with
  | nil => rfl
  | cons e es ih =>
    obtain ⟨s, rfl⟩ := h e List.mem_cons_self
    have hs : Json.asStr (.string s) = some s := rfl
    rw [List.filterMap_cons_some hs, List.map_cons, List.map_cons, hs,
      ih fun e' he' => h e' (List.mem_cons_of_mem _ he')]

theorem buildBackupCommand_args (self : ResticCommand) (job : BackupJob) :
    (self.buildBackupCommand job).args = "backup" :: ("--json" :: (job.sourcePaths ++
      ((job.excludePatterns.getD []).flatMap (fun pattern => ["--exclude", pattern]) ++
        (job.allTags.flatMap (fun tag => ["--tag", tag]) ++ argStrings job.resticArgs)))) := by
  unfold ResticCommand.buildBackupCommand BackupJob.allTags
  cases job.excludePatterns <;> cases job.tags <;> simp

/-! ## Its reading -/

theorem read_json (ts : List String) :
    resticGrammar.read ("--json" :: ts) = .option "--json" :: resticGrammar.read ts :=
  Grammar.read_option (by decide) (by decide) (by decide) ts

/-- **The text of a pattern or of a tag is never taken for anything else than the value it is.** -/
theorem read_flags (patterns tags ts : List String) :
    resticGrammar.read (patterns.flatMap (fun pattern => ["--exclude", pattern]) ++
        (tags.flatMap (fun tag => ["--tag", tag]) ++ ts)) =
      patterns.map (.value "--exclude") ++
        (tags.map (.value "--tag") ++ resticGrammar.read ts) := by
  rw [Grammar.read_values (by decide) (by decide), Grammar.read_values (by decide) (by decide)]

theorem read_buildBackupCommand (self : ResticCommand) {job : BackupJob}
    (h : ∀ p ∈ job.sourcePaths, resticGrammar.isOption p = false) :
    resticGrammar.read (self.buildBackupCommand job).args.tail =
      job.intended ++ resticGrammar.read (argStrings job.resticArgs) := by
  rw [buildBackupCommand_args, List.tail_cons, read_json, Grammar.read_operands h, read_flags,
    BackupJob.intended, List.cons_append, List.append_assoc, List.append_assoc]

theorem operands_intended (job : BackupJob) : operands job.intended = job.sourcePaths := by
  simp [BackupJob.intended]

theorem excludes_intended (job : BackupJob) :
    values "--exclude" job.intended = job.excludePatterns.getD [] := by
  have hne : "--tag" ≠ "--exclude" := by decide
  simp [BackupJob.intended, values_map_value_ne hne]

theorem tags_intended (job : BackupJob) : values "--tag" job.intended = job.allTags := by
  have hne : "--exclude" ≠ "--tag" := by decide
  simp [BackupJob.intended, values_map_value_ne hne]

section Fidelity

variable {self : ResticCommand} {job : BackupJob} {elements : List Json}

theorem commandLineFidelity_of_plain (ha : job.resticArgs = .array elements)
    (hp : ∀ p ∈ job.sourcePaths, resticGrammar.isOption p = false)
    (hs : ∀ e ∈ elements, ∃ s, e = .string s) :
    CommandLineFidelity (self.buildBackupCommand job).args job elements := by
  have hread := read_buildBackupCommand self hp
  have hargs := buildBackupCommand_args self job
  rw [hargs, List.tail_cons] at hread
  refine ⟨"--json" :: (job.sourcePaths ++
    ((job.excludePatterns.getD []).flatMap (fun pattern => ["--exclude", pattern]) ++
      job.allTags.flatMap (fun tag => ["--tag", tag]))), argStrings job.resticArgs, ?_, ?_, ?_⟩
  · rw [hargs]
    simp only [List.cons_append, List.append_assoc]
  · rw [ha]
    exact map_some_argStrings hs
  · rw [← hread]
    simp only [List.cons_append, List.append_assoc]

theorem CommandLineFidelity.strings {args : List String}
    (h : CommandLineFidelity args job elements) : ∀ e ∈ elements, ∃ s, e = .string s := by
  obtain ⟨own, extra, -, hmap, -⟩ := h
  intro e he
  have hmem : e.asStr ∈ extra.map some := by
    rw [hmap]
    exact List.mem_map_of_mem he
  obtain ⟨s, -, hs⟩ := List.mem_map.1 hmem
  rw [← Json.asStr_isSome_iff, ← hs, Option.isSome_some]

/-- The tags follow the source paths, so a path that looks like an option cannot be made up for
    by what comes after it. -/
theorem CommandLineFidelity.plain
    (h : CommandLineFidelity (self.buildBackupCommand job).args job elements) :
    ∀ p ∈ job.sourcePaths, resticGrammar.isOption p = false := by
  obtain ⟨own, extra, hargs, -, hread⟩ := h
  rw [buildBackupCommand_args] at hargs
  rw [← (List.cons.inj hargs).2, read_json, BackupJob.intended, List.cons_append,
    List.append_assoc, List.append_assoc] at hread
  obtain ⟨tag, htag⟩ := List.exists_mem_of_ne_nil _ job.getResticTags_ne_nil
  have hmem : Item.value "--tag" tag ∈ job.allTags.map (Item.value "--tag") :=
    List.mem_map_of_mem (List.mem_append_left _ htag)
  exact Grammar.operands_of_read (List.cons.inj hread).2
    (List.mem_append_right _ (List.mem_append_left _ hmem)) rfl

end Fidelity

/-- **The argument vector says what the job says exactly when no source path starts with a hyphen
    and no element of `restic_args` is anything but a string.** The elements themselves may still
    name targets and patterns; the second part counts these too. -/
theorem command_line_fidelity_iff (self : ResticCommand) (job : BackupJob)
    (elements : List Json) (ha : job.resticArgs = .array elements) :
    (CommandLineFidelity (self.buildBackupCommand job).args job elements ↔
      (∀ p ∈ job.sourcePaths, p.toList.head? ≠ some '-') ∧
        ∀ e ∈ elements, ∃ s, e = .string s) ∧
    (CommandLineFidelity (self.buildBackupCommand job).args job elements ∧
        NothingElseRead (self.buildBackupCommand job).args job ↔
      ((∀ p ∈ job.sourcePaths, p.toList.head? ≠ some '-') ∧
        ∀ e ∈ elements, ∃ s, e = .string s) ∧
      operands (resticGrammar.read (argStrings job.resticArgs)) = [] ∧
        values "--exclude" (resticGrammar.read (argStrings job.resticArgs)) = []) := by
  have hplain : (∀ p ∈ job.sourcePaths, p.toList.head? ≠ some '-') ↔
      ∀ p ∈ job.sourcePaths, resticGrammar.isOption p = false := by
    simp [resticGrammar]
  have hiff : CommandLineFidelity (self.buildBackupCommand job).args job elements ↔
      (∀ p ∈ job.sourcePaths, p.toList.head? ≠ some '-') ∧
        ∀ e ∈ elements, ∃ s, e = .string s := by
    rw [hplain]
    constructor
    · intro h
      exact ⟨h.plain, h.strings⟩
    · rintro ⟨hp, hs⟩
      exact commandLineFidelity_of_plain ha hp hs
  refine ⟨hiff, ?_⟩
  rw [hiff]
  refine and_congr_right fun h => ?_
  rw [NothingElseRead, read_buildBackupCommand self (hplain.1 h.1), operands_append,
    values_append, operands_intended, excludes_intended, List.append_right_eq_self,
    List.append_right_eq_self]

def ResticCommand.plain : ResticCommand := ⟨"restic", "/repo", "secret", none, ∅⟩

/-- A job whose patterns and custom tag look like options. -/
def BackupJob.cautious (sourcePaths : List String) (elements : List Json) : BackupJob :=
  { BackupJob.plain 1 "blade" with
    sourcePaths := sourcePaths
    excludePatterns := some ["--", "-tmp"]
    tags := some ["--exclude"]
    resticArgs := .array elements }

/-- Both parts: an element that is an option names no target and no pattern, one that is a plain
    word is read as a target. -/
theorem command_line_fidelity_iff_blade :
    let job := BackupJob.cautious ["/home", ""] [.string "--one-file-system"]
    let other := BackupJob.cautious ["/home", ""] [.string "/var"]
    (CommandLineFidelity (ResticCommand.plain.buildBackupCommand job).args job
        [.string "--one-file-system"] ∧
      NothingElseRead (ResticCommand.plain.buildBackupCommand job).args job) ∧
    CommandLineFidelity (ResticCommand.plain.buildBackupCommand other).args other
        [.string "/var"] ∧
      ¬ NothingElseRead (ResticCommand.plain.buildBackupCommand other).args other := by
  intro job other
  have hstrings : ∀ s : String, ∀ e ∈ [Json.string s], ∃ s', e = .string s' := fun s e he =>
    ⟨s, List.mem_singleton.1 he⟩
  obtain ⟨-, hjob⟩ := command_line_fidelity_iff .plain job [.string "--one-file-system"] rfl
  obtain ⟨hfidelity, hother⟩ := command_line_fidelity_iff .plain other [.string "/var"] rfl
  have hread := hfidelity.2 ⟨by decide, hstrings "/var"⟩
  refine ⟨hjob.2 ⟨⟨by decide, hstrings "--one-file-system"⟩, by decide, by decide⟩, hread, ?_⟩
  exact fun hnothing => absurd (hother.1 ⟨hread, hnothing⟩).2.1 (by decide)

/-- The directory `-photos` is read as an option, and the rate `1024` is not passed at all. -/
theorem hyphen_path_and_number_misread :
    ¬ CommandLineFidelity
        (ResticCommand.plain.buildBackupCommand (.cautious ["/home", "-photos"] [])).args
        (.cautious ["/home", "-photos"] []) [] ∧
    ¬ CommandLineFidelity
        (ResticCommand.plain.buildBackupCommand
          (.cautious ["/home"] [.string "--limit-upload", .int 1024])).args
        (.cautious ["/home"] [.string "--limit-upload", .int 1024])
        [.string "--limit-upload", .int 1024] := by
  constructor
  · intro h
    exact absurd (h.plain "-photos" (by decide)) (by decide)
  · intro h
    obtain ⟨s, hs⟩ := h.strings (.int 1024) (by simp)
    cases hs

end RBackup2

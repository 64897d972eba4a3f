import RBackup2.Lib.Text
import RBackup2.Backup.CommandLine

/-!
# Snapshot tags

The tags of a snapshot say which job it belongs to. `getResticTags` writes up to four fields of
the job behind fixed labels; restic takes each value of `--tag` for a comma-separated list.

* `standard_tags_identify` — the standard tags, in any order, determine the four fields.
* `snapshot_attribution_iff` — exactly when the tags of a snapshot are the job's own, whole, and
  do not name another job.
-/

set_option autoImplicit false

namespace RBackup2

/-! ## The standard tags -/

/-- The fields of a job that `getResticTags` writes. -/
inductive TagField where
  | backup
  | backupName
  | origin
  | accountId
  deriving DecidableEq, Repr

def TagField.label : TagField → String
  | .backup => "backup:"
  | .backupName => "backup_name="
  | .origin => "origin="
  | .accountId => "account_id="

/-- The text of a field, if the job has it. -/
def BackupJob.tagField (job : BackupJob) : TagField → Option String
  | .backup => some job.id.display
  | .backupName => some job.name
  | .origin => job.originName
  | .accountId => job.accountId.map Uuid.display

theorem TagField.label_prefixFree : Text.PrefixFree TagField.label := by
  intro i j
  cases i <;> cases j <;> decide

theorem mem_getResticTags_iff (job : BackupJob) (tag : String) :
    tag ∈ job.getResticTags ↔ ∃ f text, job.tagField f = some text ∧ tag = f.label ++ text := by
  unfold BackupJob.getResticTags
  constructor
  · intro h
    rcases List.mem_append.1 h with h | h
    · rcases List.mem_append.1 h with h | h
      · rcases List.mem_cons.1 h with rfl | h
        · exact ⟨.backup, _, rfl, rfl⟩
        · rw [List.mem_singleton] at h
          exact ⟨.backupName, _, rfl, h⟩
      · cases ho : job.originName with
        | none => simp [ho] at h
        | some originName =>
          rw [ho, List.mem_singleton] at h
          exact ⟨.origin, originName, ho, h⟩
    · cases hc : job.accountId with
      | none => simp [hc] at h
      | some accountId =>
        rw [hc, List.mem_singleton] at h
        exact ⟨.accountId, accountId.display, by rw [BackupJob.tagField, hc, Option.map_some], h⟩
  · rintro ⟨f, text, hf, rfl⟩
    cases f with
    | backup =>
      rw [← Option.some.inj hf]
      simp [TagField.label]
    | backupName =>
      rw [← Option.some.inj hf]
      simp [TagField.label]
    | origin =>
      rw [BackupJob.tagField] at hf
      simp [hf, TagField.label]
    | accountId =>
      obtain ⟨accountId, hc, rfl⟩ := Option.map_eq_some_iff.1 hf
      simp [hc, TagField.label]

/-- A field and its text stand among the standard tags exactly when the job has them. -/
theorem label_append_mem_iff (job : BackupJob) (f : TagField) (text : String) :
    f.label ++ text ∈ job.getResticTags ↔ job.tagField f = some text := by
  rw [mem_getResticTags_iff]
  constructor
  · rintro ⟨f', text', hf, htag⟩
    obtain ⟨rfl, rfl⟩ := TagField.label_prefixFree.append_inj htag
    exact hf
  · intro hf
    exact ⟨f, text, hf, rfl⟩

/-- **The standard tags of a job, whatever their order, determine its id, its name, its origin
    name and its account, whatever the text of these.** -/
theorem standard_tags_identify (a b : BackupJob)
    (h : ∀ tag, tag ∈ a.getResticTags ↔ tag ∈ b.getResticTags) :
    a.id = b.id ∧ a.name = b.name ∧ a.originName = b.originName ∧ a.accountId = b.accountId := by
  have hfield : ∀ f, a.tagField f = b.tagField f := by
    intro f
    refine Option.ext fun text => ?_
    rw [← label_append_mem_iff, h, label_append_mem_iff]
  refine ⟨?_, ?_, hfield .origin, ?_⟩
  · exact Uuid.display_inj (Option.some.inj (hfield .backup))
  · exact Option.some.inj (hfield .backupName)
  · exact Option.map_injective (fun _ _ => Uuid.display_inj) (hfield .accountId)

/-- A job whose name, origin name and custom tags are given. -/
def BackupJob.labelled (id : Uuid) (name : String) (originName : Option String)
    (tags : List String) : BackupJob :=
  { BackupJob.plain id "blade" with name := name, originName := originName, tags := some tags }

/-- Names that contain other labels, and tags of their own that make no difference. -/
theorem standard_tags_identify_labels :
    let a := BackupJob.labelled 1 "origin=x" (some "backup:z") []
    let b := BackupJob.labelled 1 "origin=x" (some "backup:z") ["account_id=y"]
    a.id = b.id ∧ a.name = b.name ∧ a.originName = b.originName ∧ a.accountId = b.accountId :=
  standard_tags_identify _ _ fun _ => Iff.rfl

/-! ## The tags of a snapshot -/

/-- `values` are the arguments `buildBackupCommand` passes with `--tag`, for a job without further
    arguments. -/
def TagValues (args : List String) (job : BackupJob) (values : List String) : Prop :=
  args = "backup" :: "--json" :: (job.sourcePaths ++
    ((job.excludePatterns.getD []).flatMap (fun pattern => ["--exclude", pattern]) ++
      values.flatMap fun value => ["--tag", value]))

/-- The tags restic gives a snapshot: each value of `--tag` is a comma-separated list. -/
def snapshotTags (values : List String) : List String := values.flatMap (Text.split ',')

/-- The snapshots of `a` have the tags of `a`, each whole, and are not selected by the tag that
    identifies `b`. -/
structure Attributed (a b : BackupJob) (values : List String) : Prop where
  whole : snapshotTags values = a.getResticTags ++ a.tags.getD []
  notOther : "backup:" ++ b.id.display ∉ snapshotTags values

theorem flatMap_pair_inj {α : Type} {o : α} {vs ws : List α}
    (h : vs.flatMap (fun v => [o, v]) = ws.flatMap (fun w => [o, w])) : vs = ws := by
  induction vs generalizing ws with
  | nil => cases ws <;> simp at h; rfl
  | cons v vs ih =>
    cases ws with
    | nil => simp at h
    | cons w ws =>
      simp only [List.flatMap_cons, List.cons_append, List.nil_append, List.cons.injEq,
        true_and] at h
      rw [h.1, ih h.2]

theorem tagValues_iff (self : ResticCommand) {job : BackupJob} (ha : job.resticArgs = .array [])
    (values : List String) :
    TagValues (self.buildBackupCommand job).args job values ↔ values = job.allTags := by
  have hextra : argStrings job.resticArgs = [] := by rw [ha]; rfl
  rw [TagValues, buildBackupCommand_args, hextra, List.append_nil]
  constructor
  · intro h
    have htail := List.append_cancel_left (List.append_cancel_left
      (List.cons.inj (List.cons.inj h).2).2)
    exact (flatMap_pair_inj htail).symm
  · rintro rfl
    rfl

/-- These are the values restic reads, unless a source path looks like an option. -/
theorem values_tag_read (self : ResticCommand) {job : BackupJob}
    (ha : job.resticArgs = .array [])
    (hp : ∀ p ∈ job.sourcePaths, resticGrammar.isOption p = false) :
    TagValues (self.buildBackupCommand job).args job
      (Options.values "--tag" (resticGrammar.read (self.buildBackupCommand job).args.tail)) := by
  have hextra : argStrings job.resticArgs = [] := by rw [ha]; rfl
  rw [tagValues_iff self ha, read_buildBackupCommand self hp, hextra, Options.values_append,
    tags_intended]
  exact List.append_nil _

theorem Uuid.comma_not_mem_display (u : Uuid) : ',' ∉ u.display.toList := by
  intro h
  rcases Uuid.mem_display h with h | h
  · exact absurd h (by decide)
  · exact absurd h (by decide)

theorem TagField.comma_not_mem_label (f : TagField) : ',' ∉ f.label.toList := by
  cases f <;> decide

/-- A standard tag has a comma exactly when the name or the origin name has one. -/
theorem getResticTags_no_comma_iff (job : BackupJob) :
    (∀ tag ∈ job.getResticTags, ',' ∉ tag.toList) ↔
      ',' ∉ job.name.toList ∧ ∀ originName, job.originName = some originName →
        ',' ∉ originName.toList := by
  have hfield : (∀ tag ∈ job.getResticTags, ',' ∉ tag.toList) ↔
      ∀ f text, job.tagField f = some text → ',' ∉ text.toList := by
    constructor
    · intro h f text hf hmem
      refine h _ ((label_append_mem_iff job f text).2 hf) ?_
      rw [String.toList_append]
      exact List.mem_append_right _ hmem
    · intro h tag htag
      obtain ⟨f, text, hf, rfl⟩ := (mem_getResticTags_iff job tag).1 htag
      rw [String.toList_append, List.mem_append, not_or]
      exact ⟨f.comma_not_mem_label, h f text hf⟩
  rw [hfield]
  constructor
  · intro h
    exact ⟨h .backupName _ rfl, fun originName ho => h .origin originName ho⟩
  · rintro ⟨hname, horigin⟩ f text hf
    cases f with
    | backup =>
      rw [← Option.some.inj hf]
      exact Uuid.comma_not_mem_display _
    | backupName =>
      rw [← Option.some.inj hf]
      exact hname
    | origin => exact horigin text hf
    | accountId =>
      obtain ⟨accountId, -, rfl⟩ := Option.map_eq_some_iff.1 hf
      exact Uuid.comma_not_mem_display _

/-- A snapshot has the tags of its job, each whole, exactly when no text of them has a comma. -/
theorem snapshotTags_allTags_iff (a : BackupJob) :
    snapshotTags a.allTags = a.getResticTags ++ a.tags.getD [] ↔
      ',' ∉ a.name.toList ∧
        (∀ originName, a.originName = some originName → ',' ∉ originName.toList) ∧
        ∀ tag ∈ a.tags.getD [], ',' ∉ tag.toList := by
  rw [snapshotTags, BackupJob.allTags, Text.flatMap_split_eq_self_iff, List.forall_mem_append,
    getResticTags_no_comma_iff, and_assoc]

/-- The values are those of the job, and so attributed exactly as its texts allow. -/
theorem attributed_allTags_iff {a b : BackupJob} (hne : a.id ≠ b.id) :
    Attributed a b a.allTags ↔
      (',' ∉ a.name.toList ∧
        (∀ originName, a.originName = some originName → ',' ∉ originName.toList) ∧
        ∀ tag ∈ a.tags.getD [], ',' ∉ tag.toList) ∧
      "backup:" ++ b.id.display ∉ a.tags.getD [] := by
  have hother : "backup:" ++ b.id.display ∉ a.getResticTags := by
    intro hmem
    have hid := (label_append_mem_iff a .backup b.id.display).1 hmem
    exact hne (Uuid.display_inj (Option.some.inj hid))
  rw [← snapshotTags_allTags_iff]
  constructor
  · intro hattr
    refine ⟨hattr.whole, fun hmem => hattr.notOther ?_⟩
    rw [hattr.whole]
    exact List.mem_append_right _ hmem
  · rintro ⟨hw, hcustom⟩
    refine ⟨hw, ?_⟩
    rw [hw, List.mem_append, not_or]
    exact ⟨hother, hcustom⟩

/-- **The snapshots of a job carry its tags whole and are not taken for those of another job
    exactly when no name, origin name or custom tag has a comma and no custom tag is the other
    job's**: by the arguments that are passed with `--tag` and, where no source path looks like an
    option, by what restic reads. -/
theorem snapshot_attribution_iff (self : ResticCommand) (a b : BackupJob) (hne : a.id ≠ b.id)
    (ha : a.resticArgs = .array []) :
    ((∃ values, TagValues (self.buildBackupCommand a).args a values ∧ Attributed a b values) ↔
      (',' ∉ a.name.toList ∧
        (∀ originName, a.originName = some originName → ',' ∉ originName.toList) ∧
        ∀ tag ∈ a.tags.getD [], ',' ∉ tag.toList) ∧
      "backup:" ++ b.id.display ∉ a.tags.getD []) ∧
    ((∀ p ∈ a.sourcePaths, resticGrammar.isOption p = false) →
      (Attributed a b
        (Options.values "--tag" (resticGrammar.read (self.buildBackupCommand a).args.tail)) ↔
        (',' ∉ a.name.toList ∧
          (∀ originName, a.originName = some originName → ',' ∉ originName.toList) ∧
          ∀ tag ∈ a.tags.getD [], ',' ∉ tag.toList) ∧
        "backup:" ++ b.id.display ∉ a.tags.getD [])) := by
  rw [← attributed_allTags_iff hne]
  constructor
  · constructor
    · rintro ⟨values, hvalues, hattr⟩
      rwa [← (tagValues_iff self ha values).1 hvalues]
    · exact fun hattr => ⟨a.allTags, (tagValues_iff self ha _).2 rfl, hattr⟩
  · intro hp
    rw [(tagValues_iff self ha _).1 (values_tag_read self ha hp)]

/-- Both for a job whose origin name looks like a label. -/
theorem snapshot_attribution_iff_home :
    let a := BackupJob.labelled 1 "blade/home" (some "backup:") ["nightly"]
    let b := BackupJob.labelled 2 "blade/home" none []
    let args := (ResticCommand.plain.buildBackupCommand a).args
    (∃ values, TagValues args a values ∧ Attributed a b values) ∧
      Attributed a b (Options.values "--tag" (resticGrammar.read args.tail)) := by
  intro a b args
  obtain ⟨hpassed, hread⟩ := snapshot_attribution_iff .plain a b (by decide) rfl
  have htexts : (',' ∉ a.name.toList ∧
      (∀ originName, a.originName = some originName → ',' ∉ originName.toList) ∧
      ∀ tag ∈ a.tags.getD [], ',' ∉ tag.toList) ∧ "backup:" ++ b.id.display ∉ a.tags.getD [] :=
    ⟨⟨by decide, fun o ho => by cases ho; decide, by decide⟩, by decide +kernel⟩
  exact ⟨hpassed.2 htexts, (hread (by decide)).2 htexts⟩

/-- The name `home,work` is cut in two, and the custom tag `backup:` with the id of another job
    makes the snapshots those of that job. -/
theorem comma_and_foreign_tag_misattributed :
    (¬ ∃ values, TagValues (ResticCommand.plain.buildBackupCommand
        (.labelled 1 "home,work" none [])).args (.labelled 1 "home,work" none []) values ∧
      Attributed (.labelled 1 "home,work" none []) (.labelled 2 "music" none []) values) ∧
    ¬ ∃ values, TagValues (ResticCommand.plain.buildBackupCommand
        (.labelled 1 "home" none ["backup:" ++ Uuid.display 2])).args
        (.labelled 1 "home" none ["backup:" ++ Uuid.display 2]) values ∧
      Attributed (.labelled 1 "home" none ["backup:" ++ Uuid.display 2])
        (.labelled 2 "music" none []) values := by
  constructor
  · rintro ⟨values, hvalues, hattr⟩
    have hwhole := hattr.whole
    rw [(tagValues_iff _ rfl values).1 hvalues, snapshotTags_allTags_iff] at hwhole
    exact absurd hwhole.1 (by decide)
  · rintro ⟨values, -, hattr⟩
    have hother := hattr.notOther
    rw [hattr.whole] at hother
    exact hother (List.mem_append_right _ List.mem_cons_self)

end RBackup2

import Mathlib.Data.List.Pairwise
import RBackup2.Config.Remote
import RBackup2.Db.Schema
import RBackup2.Error

/-!
# Settings

How the table `settings` becomes the settings of a client: `load_config_from_db` collects the rows
of `get_settings_for_device` into a map, in the order the server returns them.  The server may
return them in any order `ORDER BY device_id NULLS FIRST` allows.

* `HashMap.lookup_collect` — of the pairs with one key, the last one counts.
* `load_config_effective` — the value of a key is the device's, otherwise a global one, otherwise
  there is none.
* `settings_well_defined_iff` — the map does not depend on the order exactly when the global rows
  of each key the device has no row for carry one value.
-/

set_option autoImplicit false

namespace RBackup2

open Sql

/-! ## Maps collected from pairs -/

/-- `collect` into a `HashMap`: a later pair replaces an earlier one. -/
def HashMap.collect {K V : Type} [DecidableEq K] (pairs : List (K × V)) : HashMap K V :=
  pairs.foldl (fun map p => map.insert p.1 p.2) ∅

theorem HashMap.lookup_foldl_insert {K V : Type} [DecidableEq K] (k : K) (pairs : List (K × V)) :
    ∀ map : HashMap K V, (pairs.foldl (fun map p => map.insert p.1 p.2) map).lookup k =
      ((pairs.reverse.find? fun p => p.1 == k).map Prod.snd).or (map.lookup k) := by
  induction pairs with
  | nil => intro map; rfl
  | cons p pairs ih =>
    intro map
    rw [List.foldl_cons, ih, List.reverse_cons, List.find?_append]
    cases pairs.reverse.find? fun p => p.1 == k with
    | some q => rfl
    | none =>
      by_cases hk : p.1 = k
      · subst hk
        simp [AList.lookup_insert]
      · simp [hk, AList.lookup_insert_ne (Ne.symm hk)]

/-- **The last pair with the key counts.** -/
theorem HashMap.lookup_collect {K V : Type} [DecidableEq K] (k : K) (pairs : List (K × V)) :
    (HashMap.collect pairs).lookup k = (pairs.reverse.find? fun p => p.1 == k).map Prod.snd := by
  rw [HashMap.collect, lookup_foldl_insert, AList.lookup_empty, Option.or_none]

/-! ## The queries -/

/-- A row of `settings`, with the columns that are read. -/
structure Setting where
  id : Int
  deviceId : Option String
  key : String
  value : String
  deriving DecidableEq, Repr

/-- The struct of the decoded fields. -/
def Setting.ofValues : List Value → Except DecodeError Setting
  | [.int id, .null, .text key, .text value, _, _, _] => .ok ⟨id, none, key, value⟩
  | [.int id, .text deviceId, .text key, .text value, _, _, _] =>
    .ok ⟨id, some deviceId, key, value⟩
  | _ => .error (.mismatchedTypes "id")

/-- The derived `FromRow`. -/
def Setting.fromRow (row : Row) : Except DecodeError Setting :=
  match decodeRow settingsTable settingFields row with
  | .error e => .error e
  | .ok values => Setting.ofValues values

/-- `fetch_all` of the rows the server returns. -/
def fetchSettings : List Row → Except DecodeError (List Setting)
  | [] => .ok []
  | row :: rest =>
    match Setting.fromRow row, fetchSettings rest with
    | .error e, _ => .error e
    | .ok _, .error e => .error e
    | .ok s, .ok ss => .ok (s :: ss)

/-- `get_settings_for_device`, from the rows its query returns. -/
def getSettings (rows : List Row) : Except AppError (List Setting) :=
  match fetchSettings rows with
  | .error e => .error (.ofSqlx e.display)
  | .ok settings => .ok settings

/-- `get_global_setting`: the first of the rows its query returns. -/
def getGlobalSetting (rows : List Row) : Except AppError (Option String) :=
  match fetchOptional [notNull "value" .text] [⟨"value", .string⟩] rows with
  | .error e => .error (.ofSqlx e.display)
  | .ok none => .ok none
  | .ok (some values) =>
    match values with
    | [.text value] => .ok (some value)
    | _ => .error (.ofSqlx (DecodeError.mismatchedTypes "value").display)

/-- `load_config_from_db`, from what its first two queries come to and the rows of the third. -/
def loadConfigFromDb (jobs : Except AppError (List BackupJob))
    (schedules : Except AppError (List Schedule)) (settingRows : List Row) :
    Except AppError RemoteConfig := do
  let jobs ← jobs
  let schedules ← schedules
  let settingsVec ← getSettings settingRows
  .ok {
    jobs := jobs
    schedules := schedules
    settings := HashMap.collect (settingsVec.map fun s => (s.key, s.value)) }

/-! ## The rows the server returns -/

/-- `WHERE device_id IS NULL OR device_id = $1`. -/
def Database.visibleSettings (db : Database) (deviceId : String) : List Row :=
  db.settings.filter fun r => r "device_id" == .null || r "device_id" == .text deviceId

/-- No value stands before a NULL.  The values themselves are all one device here. -/
def NullsFirst (a b : Row) : Prop := b "device_id" = .null → a "device_id" = .null

/-- The orders `ORDER BY device_id NULLS FIRST` allows. -/
structure Database.SettingOrder (db : Database) (deviceId : String) (rows : List Row) : Prop where
  perm : rows.Perm (db.visibleSettings deviceId)
  sorted : rows.Pairwise NullsFirst

/-- `SELECT value FROM settings WHERE device_id IS NULL AND key = $1`, in no particular order. -/
def Database.GlobalOrder (db : Database) (key : String) (rows : List Row) : Prop :=
  rows.Perm (db.settings.filter fun r => r "device_id" == .null && r "key" == .text key)

theorem Database.SettingOrder.mem_iff {db : Database} {deviceId : String} {rows : List Row}
    (h : db.SettingOrder deviceId rows) {r : Row} :
    r ∈ rows ↔ r ∈ db.settings ∧ (r "device_id" = .null ∨ r "device_id" = .text deviceId) := by
  rw [h.perm.mem_iff, Database.visibleSettings, List.mem_filter, Bool.or_eq_true, beq_iff_eq,
    beq_iff_eq]

theorem Database.SettingOrder.admits {db : Database} {deviceId : String} {rows : List Row}
    (h : db.SettingOrder deviceId rows) (hadm : db.Admitted) :
    ∀ r ∈ rows, Admits settingsTable r :=
  fun r hr => (hadm.settings r (h.mem_iff.1 hr).1).1

/-- The device's rows behind the global ones, both in any order. -/
theorem Database.SettingOrder.append {db : Database} {deviceId : String} {globals own : List Row}
    (hglobals : globals.Perm (db.settings.filter fun r => r "device_id" == .null))
    (hown : own.Perm (db.settings.filter fun r => r "device_id" == .text deviceId)) :
    db.SettingOrder deviceId (globals ++ own) := by
  have hnull : ∀ r ∈ globals, r "device_id" = .null := by
    intro r hr
    simpa using (List.mem_filter.1 (hglobals.mem_iff.1 hr)).2
  have htext : ∀ r ∈ own, r "device_id" = .text deviceId := by
    intro r hr
    simpa using (List.mem_filter.1 (hown.mem_iff.1 hr)).2
  constructor
  · refine (hglobals.append hown).trans ?_
    unfold Database.visibleSettings
    generalize db.settings = settings
    induction settings with
    | nil => exact .nil
    | cons r settings ih =>
      by_cases hr : r "device_id" = .null
      · simpa [List.filter_cons, hr] using ih
      · by_cases hd : r "device_id" = .text deviceId
        · simpa [List.filter_cons, hd] using List.perm_middle.trans (ih.cons r)
        · simpa [List.filter_cons, hr, hd] using ih
  · rw [List.pairwise_append]
    refine ⟨?_, ?_, fun a ha _ _ _ => hnull a ha⟩
    · exact List.pairwise_of_forall_mem_list fun a ha _ _ _ => hnull a ha
    · refine List.pairwise_of_forall_mem_list fun _ _ b hb hb' => ?_
      rw [htext b hb] at hb'
      cases hb'

/-- The order in which the query was modelled is one of them. -/
theorem Database.settingOrder_settingRows (db : Database) (deviceId : String) :
    db.SettingOrder deviceId (db.settingRows deviceId) :=
  .append (.refl _) (.refl _)

/-! ## What is collected -/

/-- The text in a column. -/
def textAt (r : Row) (column : String) : String :=
  match r column with
  | .text s => s
  | _ => ""

theorem textAt_eq {r : Row} {column s : String} (h : r column = .text s) : textAt r column = s := by
  rw [textAt, h]

/-- A row the schema admits has a key and a value. -/
theorem admits_text {r : Row} (h : Admits settingsTable r) :
    r "key" = .text (textAt r "key") ∧ r "value" = .text (textAt r "value") := by
  have hkey := h (notNull "key" (.varchar 255)) (by decide)
  have hvalue := h (notNull "value" .text) (by decide)
  obtain ⟨k, hk⟩ := Value.text_of_hasType (.inr hkey.1) (hkey.2 rfl)
  obtain ⟨v, hv⟩ := Value.text_of_hasType (n := 0) (.inl hvalue.1) (hvalue.2 rfl)
  have hk' : r "key" = .text k := hk
  have hv' : r "value" = .text v := hv
  exact ⟨by rw [textAt_eq hk', hk'], by rw [textAt_eq hv', hv']⟩

theorem key_eq_iff {r : Row} (h : Admits settingsTable r) {key : String} :
    r "key" = .text key ↔ textAt r "key" = key := by
  rw [(admits_text h).1, Value.text.injEq]

/-- No row the schema admits fails to decode. -/
theorem fromRow_admitted {r : Row} (h : Admits settingsTable r) :
    ∃ s, Setting.fromRow r = .ok s ∧ s.key = textAt r "key" ∧ s.value = textAt r "value" := by
  obtain ⟨hmatches, hnulls, helements⟩ := settings_gaps
  have hdecodes := (decodeRow_ok_iff h hmatches).2 (by
    rw [hnulls, helements]
    exact ⟨fun n hn => absurd hn List.not_mem_nil, fun n hn => absurd hn List.not_mem_nil⟩)
  obtain ⟨vs, hvs⟩ := hdecodes
  have hvalues : vs = [r "id", r "device_id", r "key", r "value", r "description",
    r "created_at", r "updated_at"] := decodeRow_values hvs
  have hid := h (notNull "id" .integer) (by decide)
  obtain ⟨n, hn⟩ : ∃ n, r "id" = .int n := Value.int_of_hasType hid.1 (hid.2 rfl)
  have hdevice := h (nullable "device_id" (.varchar 255)) (by decide)
  obtain ⟨hkey, hvalue⟩ := admits_text h
  rw [hn, hkey, hvalue] at hvalues
  simp only [Setting.fromRow, hvs]
  by_cases hnull : r "device_id" = .null
  · rw [hnull] at hvalues
    subst hvalues
    exact ⟨_, rfl, rfl, rfl⟩
  · obtain ⟨d, hd⟩ : ∃ d, r "device_id" = .text d :=
      Value.text_of_hasType (.inr hdevice.1) hnull
    rw [hd] at hvalues
    subst hvalues
    exact ⟨_, rfl, rfl, rfl⟩

theorem fetchSettings_admitted {rows : List Row} (h : ∀ r ∈ rows, Admits settingsTable r) :
    ∃ ss, fetchSettings rows = .ok ss ∧ ss.map (fun s => (s.key, s.value)) =
      rows.map fun r => (textAt r "key", textAt r "value") := by
  induction rows with
  | nil => exact ⟨[], rfl, rfl⟩
  | cons r rows ih =>
    obtain ⟨s, hs, hkey, hvalue⟩ := fromRow_admitted (h r List.mem_cons_self)
    obtain ⟨ss, hss, hpairs⟩ := ih fun r' hr' => h r' (List.mem_cons_of_mem _ hr')
    refine ⟨s :: ss, ?_, ?_⟩
    · simp only [fetchSettings, hs, hss]
    · rw [List.map_cons, List.map_cons, hpairs, hkey, hvalue]

/-- The map has the value of the last row with the key. -/
theorem load_config_lookup {rows : List Row} (h : ∀ r ∈ rows, Admits settingsTable r)
    (jobs : List BackupJob) (schedules : List Schedule) :
    ∃ config, loadConfigFromDb (.ok jobs) (.ok schedules) rows = .ok config ∧
      ∀ key, config.settings.lookup key =
        (rows.reverse.find? fun r => textAt r "key" == key).map fun r => textAt r "value" := by
  obtain ⟨ss, hss, hpairs⟩ := fetchSettings_admitted h
  have hget : getSettings rows = .ok ss := by rw [getSettings, hss]
  refine ⟨⟨jobs, schedules, HashMap.collect (ss.map fun s => (s.key, s.value))⟩, ?_,
    fun key => ?_⟩
  · unfold loadConfigFromDb
    rw [hget]
    rfl
  · rw [HashMap.lookup_collect, hpairs, ← List.map_reverse, List.find?_map, Option.map_map]
    rfl

/-! ## What counts -/

/-- The row sets the key for the device, or for all devices where that is NULL. -/
def Sets (r : Row) (device : Value) (key : String) : Prop :=
  r "device_id" = device ∧ r "key" = .text key

instance (r : Row) (device : Value) (key : String) : Decidable (Sets r device key) :=
  inferInstanceAs (Decidable (_ ∧ _))

/-- The device's value of a key counts, otherwise a global one. -/
structure Effective (db : Database) (deviceId : String) (settings : HashMap String String) :
    Prop where
  device : ∀ key, ∀ r ∈ db.settings, Sets r (.text deviceId) key →
    ∃ v, r "value" = .text v ∧ settings.lookup key = some v
  global : ∀ key, (∀ r ∈ db.settings, ¬ Sets r (.text deviceId) key) →
    (∃ r ∈ db.settings, Sets r .null key) →
    ∃ r ∈ db.settings, Sets r .null key ∧ ∃ v, r "value" = .text v ∧
      settings.lookup key = some v
  absent : ∀ key, (∀ r ∈ db.settings, ¬ Sets r (.text deviceId) key ∧ ¬ Sets r .null key) →
    settings.lookup key = none

instance : Std.Refl NullsFirst := ⟨fun _ h => h⟩

/-- Behind the last element with a property there is no other one with it. -/
theorem rel_of_find?_reverse {α : Type} {R : α → α → Prop} [Std.Refl R] {l : List α}
    (h : l.Pairwise R) {p : α → Bool} {x y : α} (hx : l.reverse.find? p = some x) (hy : y ∈ l)
    (hp : p y = true) : R y x := by
  have hmem : y ∈ l.filter p := List.mem_filter.2 ⟨hy, hp⟩
  have hlast := (h.filter p).rel_getLast hmem
  rw [← List.getLast?_filter, List.getLast?_eq_some_getLast (List.ne_nil_of_mem hmem)] at hx
  cases hx
  exact hlast

section Order

variable {db : Database} {deviceId : String} {rows : List Row}
  (hadm : db.Admitted) (hrows : db.SettingOrder deviceId rows)

include hadm hrows

/-- A row the search for a key can find sets it, for the device or for all. -/
theorem sets_of_find {key : String} {r : Row}
    (h : rows.reverse.find? (fun r => textAt r "key" == key) = some r) :
    r ∈ db.settings ∧ (Sets r .null key ∨ Sets r (.text deviceId) key) ∧
      r "value" = .text (textAt r "value") := by
  have hmem : r ∈ rows := List.mem_reverse.1 (List.mem_of_find?_eq_some h)
  have hr := hrows.admits hadm r hmem
  have hkey : r "key" = .text key := (key_eq_iff hr).2 (by simpa using List.find?_some h)
  obtain ⟨hdb, hdevice⟩ := hrows.mem_iff.1 hmem
  refine ⟨hdb, ?_, (admits_text hr).2⟩
  rcases hdevice with hnull | htext
  · exact .inl ⟨hnull, hkey⟩
  · exact .inr ⟨htext, hkey⟩

/-- A row that sets the key is among those the search for it runs through. -/
theorem mem_of_sets {key : String} {r : Row} (h : r ∈ db.settings)
    (hsets : Sets r .null key ∨ Sets r (.text deviceId) key) :
    r ∈ rows ∧ (textAt r "key" == key) = true := by
  have hr : Admits settingsTable r := (hadm.settings r h).1
  rcases hsets with ⟨hd, hk⟩ | ⟨hd, hk⟩
  · exact ⟨hrows.mem_iff.2 ⟨h, .inl hd⟩, by simpa using (key_eq_iff hr).1 hk⟩
  · exact ⟨hrows.mem_iff.2 ⟨h, .inr hd⟩, by simpa using (key_eq_iff hr).1 hk⟩

/-- If the device sets the key, the last row that sets it is the device's, of which there is one. -/
theorem find_of_device {key : String} {r : Row} (h : r ∈ db.settings)
    (hsets : Sets r (.text deviceId) key) :
    rows.reverse.find? (fun r => textAt r "key" == key) = some r := by
  obtain ⟨hmem, hkey⟩ := mem_of_sets hadm hrows h (.inr hsets)
  cases hfind : rows.reverse.find? fun r => textAt r "key" == key with
  | none => exact absurd hkey (List.find?_eq_none.1 hfind r (List.mem_reverse.2 hmem))
  | some last =>
    obtain ⟨h', hsets', -⟩ := sets_of_find hadm hrows hfind
    have hnull : NullsFirst r last := rel_of_find?_reverse hrows.sorted hfind hmem hkey
    rcases hsets' with hglobal | hdevice
    · -- a global row cannot stand behind the device's
      have hr := hnull hglobal.1
      rw [hsets.1] at hr
      cases hr
    · have hown : ∀ x ∈ db.settings, Sets x (.text deviceId) key →
          x ∈ db.settings.filter fun r => r "device_id" != .null := by
        intro x hx hx'
        rw [List.mem_filter, hx'.1]
        exact ⟨hx, rfl⟩
      have hsame : (r "device_id", r "key") = (last "device_id", last "key") := by
        rw [hsets.1, hsets.2, hdevice.1, hdevice.2]
      rw [List.inj_on_of_nodup_map hadm.settingKeys (hown r h hsets) (hown last h' hdevice) hsame]

/-- If the device does not set the key, the last row that sets it is a global one. -/
theorem find_of_global {key : String}
    (hnone : ∀ r ∈ db.settings, ¬ Sets r (.text deviceId) key)
    (hsome : ∃ r ∈ db.settings, Sets r .null key) :
    ∃ r ∈ db.settings, Sets r .null key ∧
      rows.reverse.find? (fun r => textAt r "key" == key) = some r := by
  obtain ⟨r, h, hsets⟩ := hsome
  obtain ⟨hmem, hkey⟩ := mem_of_sets hadm hrows h (.inl hsets)
  cases hlast : rows.reverse.find? fun r => textAt r "key" == key with
  | none => exact absurd hkey (List.find?_eq_none.1 hlast r (List.mem_reverse.2 hmem))
  | some r' =>
    obtain ⟨h', hsets', -⟩ := sets_of_find hadm hrows hlast
    exact ⟨r', h', hsets'.resolve_right (hnone r' h'), rfl⟩

theorem find_eq_none {key : String}
    (hnone : ∀ r ∈ db.settings, ¬ Sets r (.text deviceId) key ∧ ¬ Sets r .null key) :
    rows.reverse.find? (fun r => textAt r "key" == key) = none := by
  cases hlast : rows.reverse.find? fun r => textAt r "key" == key with
  | none => rfl
  | some r =>
    obtain ⟨h, hsets, -⟩ := sets_of_find hadm hrows hlast
    rcases hsets with hglobal | hdevice
    · exact absurd hglobal (hnone r h).2
    · exact absurd hdevice (hnone r h).1

end Order

/-- **Override precedence.** Whatever order the server returns the rows in, the settings are the
device's and, for the keys it does not set, global ones; the rows of other devices do not even
matter for the orders. -/
theorem load_config_effective (db : Database) (hadm : db.Admitted) (deviceId : String)
    (jobs : List BackupJob) (schedules : List Schedule) :
    (∀ rows, db.SettingOrder deviceId rows →
      ∃ config, loadConfigFromDb (.ok jobs) (.ok schedules) rows = .ok config ∧
        Effective db deviceId config.settings) ∧
    ∀ db' : Database, (db'.visibleSettings deviceId).Perm (db.visibleSettings deviceId) →
      ∀ rows, db'.SettingOrder deviceId rows ↔ db.SettingOrder deviceId rows := by
  refine ⟨fun rows hrows => ?_, fun db' hdb' rows => ?_⟩
  · obtain ⟨config, hconfig, hlookup⟩ :=
      load_config_lookup (hrows.admits hadm) jobs schedules
    refine ⟨config, hconfig, fun key r h hsets => ?_, fun key hnone hsome => ?_,
      fun key hnone => ?_⟩
    · refine ⟨textAt r "value", (admits_text (hadm.settings r h).1).2, ?_⟩
      rw [hlookup, find_of_device hadm hrows h hsets, Option.map_some]
    · obtain ⟨r, h, hsets, hlast⟩ := find_of_global hadm hrows hnone hsome
      refine ⟨r, h, hsets, textAt r "value", (admits_text (hadm.settings r h).1).2, ?_⟩
      rw [hlookup, hlast, Option.map_some]
    · rw [hlookup, find_eq_none hadm hrows hnone, Option.map_none]
  · exact ⟨fun h => ⟨h.perm.trans hdb', h.sorted⟩, fun h => ⟨h.perm.trans hdb'.symm, h.sorted⟩⟩

/-! ## Where the order matters -/

/-- The settings do not depend on the orders the server chooses, and for a key the device does not
    set they agree with `get_global_setting`. -/
structure WellDefined (db : Database) (deviceId : String) : Prop where
  settings : ∀ rows rows', db.SettingOrder deviceId rows → db.SettingOrder deviceId rows' →
    ∀ jobs schedules config config',
      loadConfigFromDb (.ok jobs) (.ok schedules) rows = .ok config →
      loadConfigFromDb (.ok jobs) (.ok schedules) rows' = .ok config' →
      ∀ key, config.settings.lookup key = config'.settings.lookup key
  global : ∀ rows, db.SettingOrder deviceId rows → ∀ jobs schedules config,
    loadConfigFromDb (.ok jobs) (.ok schedules) rows = .ok config →
    ∀ key, (∀ r ∈ db.settings, ¬ Sets r (.text deviceId) key) →
      ∀ globals, db.GlobalOrder key globals →
        getGlobalSetting globals = .ok (config.settings.lookup key)

theorem getGlobalSetting_head {rows : List Row} (h : ∀ r ∈ rows, Admits settingsTable r) :
    getGlobalSetting rows = .ok (rows.head?.map fun r => textAt r "value") := by
  cases rows with
  | nil => rfl
  | cons r rows =>
    obtain ⟨-, hvalue⟩ := admits_text (h r List.mem_cons_self)
    have hdecode : decodeRow [notNull "value" .text] [⟨"value", .string⟩] r =
        .ok [.text (textAt r "value")] := by
      simp [decodeRow, decodeField, notNull, compatible, FieldType.accepts, hvalue]
    simp only [getGlobalSetting, fetchOptional, hdecode, Except.map, List.head?_cons,
      Option.map_some]

section Global

variable {db : Database} (hadm : db.Admitted) {key : String} {globals : List Row}
  (hglobals : db.GlobalOrder key globals)

include hglobals

theorem mem_globalOrder {r : Row} : r ∈ globals ↔ r ∈ db.settings ∧ Sets r .null key := by
  rw [hglobals.mem_iff, List.mem_filter, Bool.and_eq_true, beq_iff_eq, beq_iff_eq, Sets]

include hadm

/-- `get_global_setting` returns the value of one of the rows, if there is any. -/
theorem getGlobalSetting_of_order :
    getGlobalSetting globals = .ok (globals.head?.map fun r => textAt r "value") :=
  getGlobalSetting_head fun r hr => (hadm.settings r ((mem_globalOrder hglobals).1 hr).1).1

end Global

/-- Every global row of a key the device does not set can be the one that counts. -/
theorem exists_order_of_global {db : Database} {deviceId key : String} (hadm : db.Admitted)
    (hnone : ∀ r ∈ db.settings, ¬ Sets r (.text deviceId) key) {r : Row} (h : r ∈ db.settings)
    (hsets : Sets r .null key) :
    ∃ rows, db.SettingOrder deviceId rows ∧
      rows.reverse.find? (fun r => textAt r "key" == key) = some r := by
  have hmem : r ∈ db.settings.filter fun r => r "device_id" == .null :=
    List.mem_filter.2 ⟨h, by rw [hsets.1]; rfl⟩
  obtain ⟨pre, post, hsplit⟩ := List.append_of_mem hmem
  have hperm : (pre ++ post ++ [r]).Perm (db.settings.filter fun r => r "device_id" == .null) := by
    rw [hsplit]
    exact (List.perm_append_singleton r _).trans List.perm_middle.symm
  have hrows : db.SettingOrder deviceId _ := Database.SettingOrder.append hperm (.refl _)
  refine ⟨_, hrows, ?_⟩
  -- the rows of the device are searched first, and none of them sets the key
  have hown : (db.settings.filter fun r => r "device_id" == .text deviceId).reverse.find?
      (fun r => textAt r "key" == key) = none := by
    rw [List.find?_eq_none]
    intro x hx hkey
    obtain ⟨hx, hdevice⟩ := List.mem_filter.1 (List.mem_reverse.1 hx)
    have hkey' := (key_eq_iff (hadm.settings x hx).1).2 (by simpa using hkey)
    exact hnone x hx ⟨by simpa using hdevice, hkey'⟩
  have hkey := (key_eq_iff (hadm.settings r h).1).1 hsets.2
  rw [List.reverse_append, List.find?_append, hown, List.reverse_append, List.reverse_singleton,
    List.singleton_append, List.find?_cons, hkey, beq_self_eq_true]
  rfl

/-- Settings that are well defined have one value for all devices. -/
theorem WellDefined.global_value {db : Database} {deviceId key : String}
    (hwell : WellDefined db deviceId) (hadm : db.Admitted)
    (hnone : ∀ r ∈ db.settings, ¬ Sets r (.text deviceId) key) {r r' : Row} (h : r ∈ db.settings)
    (h' : r' ∈ db.settings) (hsets : Sets r .null key) (hsets' : Sets r' .null key) :
    r "value" = r' "value" := by
  obtain ⟨rows, hrows, hlast⟩ := exists_order_of_global hadm hnone h hsets
  obtain ⟨rows', hrows', hlast'⟩ := exists_order_of_global hadm hnone h' hsets'
  obtain ⟨config, hconfig, hlookup⟩ := load_config_lookup (hrows.admits hadm) [] []
  obtain ⟨config', hconfig', hlookup'⟩ := load_config_lookup (hrows'.admits hadm) [] []
  have hsame := hwell.settings rows rows' hrows hrows' [] [] config config' hconfig hconfig' key
  rw [hlookup, hlookup', hlast, hlast', Option.map_some, Option.map_some,
    Option.some.injEq] at hsame
  rw [(admits_text (hadm.settings r h).1).2, (admits_text (hadm.settings r' h').1).2, hsame]

section Agreement

variable {db : Database} (hadm : db.Admitted) {deviceId key : String}
  (hvalue : (∀ r ∈ db.settings, ¬ Sets r (.text deviceId) key) →
    ∀ r ∈ db.settings, ∀ r' ∈ db.settings, Sets r .null key → Sets r' .null key →
      textAt r "value" = textAt r' "value")
  {rows rows' : List Row} (hrows : db.SettingOrder deviceId rows)

include hadm hvalue hrows

/-- The value that counts is the same in every order if the global rows agree. -/
theorem find_value_congr (hrows' : db.SettingOrder deviceId rows') :
    (rows.reverse.find? fun r => textAt r "key" == key).map (fun r => textAt r "value") =
      (rows'.reverse.find? fun r => textAt r "key" == key).map fun r => textAt r "value" := by
  by_cases hdevice : ∃ r ∈ db.settings, Sets r (.text deviceId) key
  · obtain ⟨r, h, hsets⟩ := hdevice
    rw [find_of_device hadm hrows h hsets, find_of_device hadm hrows' h hsets]
  · have hnone : ∀ r ∈ db.settings, ¬ Sets r (.text deviceId) key :=
      fun r h hsets => hdevice ⟨r, h, hsets⟩
    by_cases hglobal : ∃ r ∈ db.settings, Sets r .null key
    · obtain ⟨r, h, hsets, hlast⟩ := find_of_global hadm hrows hnone hglobal
      obtain ⟨r', h', hsets', hlast'⟩ := find_of_global hadm hrows' hnone hglobal
      rw [hlast, hlast', Option.map_some, Option.map_some, hvalue hnone r h r' h' hsets hsets']
    · have habsent : ∀ r ∈ db.settings, ¬ Sets r (.text deviceId) key ∧ ¬ Sets r .null key :=
        fun r h => ⟨hnone r h, fun hsets => hglobal ⟨r, h, hsets⟩⟩
      rw [find_eq_none hadm hrows habsent, find_eq_none hadm hrows' habsent]

/-- Without a row of the device it is that of the global row `get_global_setting` returns. -/
theorem find_value_global (hnone : ∀ r ∈ db.settings, ¬ Sets r (.text deviceId) key)
    {globals : List Row} (hglobals : db.GlobalOrder key globals) :
    globals.head?.map (fun r => textAt r "value") =
      (rows.reverse.find? fun r => textAt r "key" == key).map fun r => textAt r "value" := by
  cases globals with
  | nil =>
    have habsent : ∀ r ∈ db.settings, ¬ Sets r (.text deviceId) key ∧ ¬ Sets r .null key :=
      fun r h => ⟨hnone r h, fun hsets =>
        absurd ((mem_globalOrder hglobals).2 ⟨h, hsets⟩) List.not_mem_nil⟩
    rw [find_eq_none hadm hrows habsent]
    rfl
  | cons g globals =>
    obtain ⟨hg, hgsets⟩ := (mem_globalOrder hglobals).1 List.mem_cons_self
    obtain ⟨r, h, hsets, hlast⟩ := find_of_global hadm hrows hnone ⟨g, hg, hgsets⟩
    rw [hlast, List.head?_cons, Option.map_some, Option.map_some,
      hvalue hnone g hg r h hgsets hsets]

end Agreement

/-- **Exactly when the settings are well defined**: when the global rows of each key the device
does not set carry one value.  `UNIQUE (device_id, key)` does not see to it, since it takes any
two NULLs for different. -/
theorem settings_well_defined_iff (db : Database) (hadm : db.Admitted) (deviceId : String) :
    WellDefined db deviceId ↔
      ∀ key, (∀ r ∈ db.settings, ¬ Sets r (.text deviceId) key) →
        ∀ r ∈ db.settings, ∀ r' ∈ db.settings, Sets r .null key → Sets r' .null key →
          r "value" = r' "value" := by
  constructor
  · intro hwell key hnone r h r' h' hsets hsets'
    exact hwell.global_value hadm hnone h h' hsets hsets'
  · intro hagree
    have hvalue : ∀ key, (∀ r ∈ db.settings, ¬ Sets r (.text deviceId) key) →
        ∀ r ∈ db.settings, ∀ r' ∈ db.settings, Sets r .null key → Sets r' .null key →
          textAt r "value" = textAt r' "value" := by
      intro key hnone r h r' h' hsets hsets'
      rw [textAt, textAt, hagree key hnone r h r' h' hsets hsets']
    constructor
    · intro rows rows' hrows hrows' jobs schedules config config' hconfig hconfig' key
      obtain ⟨c, hc, hlookup⟩ := load_config_lookup (hrows.admits hadm) jobs schedules
      obtain ⟨c', hc', hlookup'⟩ := load_config_lookup (hrows'.admits hadm) jobs schedules
      cases hc.symm.trans hconfig
      cases hc'.symm.trans hconfig'
      rw [hlookup, hlookup']
      exact find_value_congr hadm (hvalue key) hrows hrows'
    · intro rows hrows jobs schedules config hconfig key hnone globals hglobals
      obtain ⟨c, hc, hlookup⟩ := load_config_lookup (hrows.admits hadm) jobs schedules
      cases hc.symm.trans hconfig
      rw [getGlobalSetting_of_order hadm hglobals, hlookup,
        find_value_global hadm (hvalue key) hrows hnone hglobals]

/-! ## Some contents -/

/-- A row of `settings`; the device is NULL for a global one. -/
def settingRow (id : Int) (device : Value) (key value : String) : Row
  | "id" => .int id
  | "device_id" => device
  | "key" => .text key
  | "value" => .text value
  | "created_at" => .timestamp 0
  | "updated_at" => .timestamp 0
  | _ => .null

/-- One device with these settings. -/
def Database.withSettings (settings : List Row) : Database :=
  { Database.sample (.json "\x7b\x7d") with settings := settings }

theorem Database.withSettings_admitted {settings : List Row}
    (hrows : ∀ r ∈ settings, Admits settingsTable r ∧
      (r "device_id" = .null ∨ r "device_id" = .text "blade"))
    (hids : (settings.map fun r => r "id").Nodup)
    (hkeys : ((settings.filter fun r => r "device_id" != .null).map fun r =>
      (r "device_id", r "key")).Nodup) : (Database.withSettings settings).Admitted := by
  have hsample := Database.sample_admitted (.inl rfl)
  have hother := hsample.primaryKeys
  simp only [List.forall_mem_cons] at hother
  obtain ⟨hdevices, hjobs, hschedules, hruns, -⟩ := hother
  refine ⟨hsample.devices, hsample.backupJobs, hsample.schedules, hsample.runs, fun r hr => ?_, ?_,
    hsample.jobNames, hkeys⟩
  · refine ⟨(hrows r hr).1, (hrows r hr).2.imp id fun hblade => ?_⟩
    exact ⟨_, List.mem_singleton.2 rfl, hblade.symm⟩
  · simp only [List.forall_mem_cons]
    exact ⟨hdevices, hjobs, hschedules, hruns, hids, by simp⟩

/-- A global value and the device's own. -/
def Database.overridden : Database :=
  .withSettings [settingRow 1 (.text "blade") "sync_interval_seconds" "60",
    settingRow 2 .null "sync_interval_seconds" "300"]

theorem Database.overridden_admitted : Database.overridden.Admitted :=
  Database.withSettings_admitted (by decide) (by decide) (by decide)

/-- The device's value counts. -/
theorem load_config_effective_blade :
    ∃ config, loadConfigFromDb (.ok []) (.ok []) (Database.overridden.settingRows "blade") =
        .ok config ∧
      Effective .overridden "blade" config.settings :=
  (load_config_effective .overridden Database.overridden_admitted "blade" [] []).1 _
    (Database.settingOrder_settingRows _ _)

/-- Every key has one global value here. -/
theorem settings_well_defined_iff_blade : WellDefined .overridden "blade" := by
  refine (settings_well_defined_iff .overridden Database.overridden_admitted "blade").2 ?_
  intro key hnone r hr r' hr' hsets hsets'
  have hglobal : ∀ x ∈ Database.overridden.settings, Sets x .null key →
      x = settingRow 2 .null "sync_interval_seconds" "300" := by
    intro x hx hx'
    rcases List.mem_cons.1 hx with rfl | hx
    · cases hx'.1
    · exact List.mem_singleton.1 hx
  rw [hglobal r hr hsets, hglobal r' hr' hsets']

/-- The repository as the migration leaves it and a second row with the one to use, which the
    documentation of the set-up has inserted. -/
def Database.repositoryTwice : Database :=
  .withSettings [settingRow 1 .null "repository_url" "",
    settingRow 2 .null "repository_url" "sftp:backup_user@backup.example.com:22//data/backups/"]

/-- Which of the two repositories the client uses is up to the server. -/
theorem settings_depend_on_order :
    ¬ ∀ db : Database, db.Admitted → ∀ deviceId, WellDefined db deviceId := by
  intro h
  have hadm : Database.repositoryTwice.Admitted :=
    Database.withSettings_admitted (by decide) (by decide) (by decide)
  have hnone : ∀ r ∈ Database.repositoryTwice.settings,
      ¬ Sets r (.text "blade") "repository_url" := by decide
  have hvalue := (h _ hadm "blade").global_value hadm hnone (.head _) (.tail _ (.head _))
    ⟨rfl, rfl⟩ ⟨rfl, rfl⟩
  exact absurd hvalue (by decide)

end RBackup2

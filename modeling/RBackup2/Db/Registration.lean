import RBackup2.Db.Integrity

/-!
# Registrations

`upsert_device` on the server: the INSERT of a new device and the UPDATE of one that is there.

* `upsertDevice_accepted_iff` — exactly when the server takes a registration.
* `contents_upsertDevice` — it leaves the other tables alone, and the device is there.
* `getDevice_registered_iff` — exactly when what `RETURNING *` gives back is decoded.
-/

set_option autoImplicit false

namespace RBackup2

open Sql Transition

/-! ## What the server takes -/

/-- The server takes the text for a `VARCHAR(n)`: nothing but blanks is beyond its length, and no
    character of it is NUL. -/
def Storable (n : Nat) (text : String) : Prop :=
  (text.toList.drop n).all (· == ' ') = true ∧ text.toList.contains (Char.ofNat 0) = false

instance (n : Nat) (text : String) : Decidable (Storable n text) :=
  inferInstanceAs (Decidable (_ ∧ _))

/-- The server takes the arguments of a registration for their columns. -/
def Registrable (deviceId name platform : String) (hostname : Option String) : Prop :=
  Storable 255 deviceId ∧ Storable 255 name ∧ Storable 50 platform ∧
    ∀ h ∈ hostname, Storable 255 h

theorem upsertDevice_sendable (now : DateTime) (deviceId name platform : String)
    (hostname : Option String) :
    (Query.upsertDevice now deviceId name platform hostname).params.all sendable = true ↔
      deviceId.toList.contains (Char.ofNat 0) = false ∧
        name.toList.contains (Char.ofNat 0) = false ∧
        platform.toList.contains (Char.ofNat 0) = false ∧
        ∀ h ∈ hostname, h.toList.contains (Char.ofNat 0) = false := by
  cases hostname <;> simp [Query.upsertDevice, sendable, orNull]

theorem hasType_hostname {hostname : Option String} :
    (orNull Value.text hostname).hasType (.varchar 255) = true ↔
      ∀ h ∈ hostname, h.length ≤ 255 := by
  rw [hasType_orNull]
  simp [Value.hasType]

/-- The row a registration leaves fits into `devices`. -/
theorem admits_registration {r : Row} {id name platform : String} {hostname : Option String}
    (hid : r "id" = .text id) (hname : r "name" = .text name)
    (hplatform : r "platform" = .text platform) (hhost : r "hostname" = orNull .text hostname)
    (hrest : ∀ c ∈ devicesTable, c.name ∉ ["id", "name", "platform", "hostname"] →
      (r c.name).hasType c.type = true ∧ (c.notNull = true → r c.name ≠ .null)) :
    Admits devicesTable r ↔ id.length ≤ 255 ∧ name.length ≤ 255 ∧ platform.length ≤ 50 ∧
      ∀ h ∈ hostname, h.length ≤ 255 := by
  have hsplit : Admits devicesTable r ↔
      ((r "id").hasType (.varchar 255) = true ∧ r "id" ≠ .null) ∧
        ((r "name").hasType (.varchar 255) = true ∧ r "name" ≠ .null) ∧
        ((r "platform").hasType (.varchar 50) = true ∧ r "platform" ≠ .null) ∧
        (r "hostname").hasType (.varchar 255) = true := by
    constructor
    · intro h
      have hcol : ∀ n t, notNull n t ∈ devicesTable → (r n).hasType t = true ∧ r n ≠ .null :=
        fun n t hc => ⟨(h _ hc).1, (h _ hc).2 rfl⟩
      exact ⟨hcol _ _ (by decide), hcol _ _ (by decide), hcol _ _ (by decide),
        (h (nullable "hostname" (.varchar 255)) (by decide)).1⟩
    · rintro ⟨hid, hname, hplatform, hhost⟩ c hc
      by_cases hn : c.name ∈ ["id", "name", "platform", "hostname"]
      · have hcases : ∀ c ∈ devicesTable, c.name ∈ ["id", "name", "platform", "hostname"] →
            c = notNull "id" (.varchar 255) ∨ c = notNull "name" (.varchar 255) ∨
              c = notNull "platform" (.varchar 50) ∨ c = nullable "hostname" (.varchar 255) := by
          decide
        rcases hcases c hc hn with rfl | rfl | rfl | rfl
        · exact ⟨hid.1, fun _ => hid.2⟩
        · exact ⟨hname.1, fun _ => hname.2⟩
        · exact ⟨hplatform.1, fun _ => hplatform.2⟩
        · exact ⟨hhost, fun h => (by cases h)⟩
      · exact hrest c hc hn
  rw [hsplit, hid, hname, hplatform, hhost, hasType_hostname]
  simp [Value.hasType]

/-- What a registration sets where the device is there already. -/
def registrationValues (now : DateTime) (name platform : String) (hostname : Option String) :
    List (String × Value) :=
  [("name", .text name), ("platform", .text platform), ("hostname", orNull .text hostname),
    ("last_seen", .timestamp now), ("updated_at", .timestamp now)]

/-- The row of a device that registers for the first time. -/
def registrationRow (now : DateTime) (deviceId name platform : String)
    (hostname : Option String) : Row :=
  Table.devices.newRow now [("id", .text deviceId), ("name", .text name),
    ("platform", .text platform), ("hostname", orNull .text hostname),
    ("last_seen", .timestamp now), ("enabled", .bool true)]

theorem fits_registrationValues {r : Row} (hr : Admits devicesTable r) (now : DateTime)
    {deviceId : String} (name platform : String) (hostname : Option String)
    (hid : r "id" = .text deviceId) :
    schema.Fits .devices (r.assign (registrationValues now name platform hostname)) ↔
      deviceId.length ≤ 255 ∧ name.length ≤ 255 ∧ platform.length ≤ 50 ∧
        ∀ h ∈ hostname, h.length ≤ 255 := by
  refine (and_iff_left rfl).trans (admits_registration ?_ rfl rfl rfl fun c hc hn => ?_)
  · exact hid
  · rcases r.assign_cases (registrationValues now name platform hostname) c.name with heq | hmem
    · rw [heq]
      exact hr c hc
    · have htime : ∀ c ∈ devicesTable, c.name = "last_seen" ∨ c.name = "updated_at" →
          c.type = .timestamptz := by decide
      simp only [List.mem_cons, List.not_mem_nil, or_false, not_or] at hn
      simp only [registrationValues, List.mem_cons, Prod.mk.injEq, List.not_mem_nil,
        or_false] at hmem
      obtain ⟨hname, -⟩ | ⟨hname, -⟩ | ⟨hname, -⟩ | ⟨hname, hval⟩ | ⟨hname, hval⟩ := hmem
      · exact absurd hname hn.2.1
      · exact absurd hname hn.2.2.1
      · exact absurd hname hn.2.2.2
      · rw [registrationValues, hval, htime c hc (.inl hname)]
        exact ⟨rfl, fun _ => by simp⟩
      · rw [registrationValues, hval, htime c hc (.inr hname)]
        exact ⟨rfl, fun _ => by simp⟩

theorem fits_registrationRow {now : DateTime} {deviceId name platform : String}
    {hostname : Option String} :
    schema.Fits .devices (registrationRow now deviceId name platform hostname) ↔
      deviceId.length ≤ 255 ∧ name.length ≤ 255 ∧ platform.length ≤ 50 ∧
        ∀ h ∈ hostname, h.length ≤ 255 :=
  (and_iff_left rfl).trans (admits_registration rfl rfl rfl rfl (of_decide_eq_true rfl))

/-- What the columns have a place for, whether the device is there or not. -/
theorem checks_upsertStatement_iff {s : Server} (hs : schema.Valid s.contents) (now : DateTime)
    (id name platform : String) (hostname : Option String) :
    schema.Checks s.contents (upsertStatement now id name platform hostname s.contents) ↔
      id.length ≤ 255 ∧ name.length ≤ 255 ∧ platform.length ≤ 50 ∧
        ∀ h ∈ hostname, h.length ≤ 255 := by
  unfold upsertStatement
  by_cases hthere : (s.contents .devices).any fun r => r "id" == .text id
  · rw [if_pos hthere]
    have hkeys : ∀ n ∈ ["name", "platform", "hostname", "last_seen", "updated_at"],
        n ∉ schema.keyColumns .devices := by decide
    have hrow : ∀ r ∈ s.contents .devices, (r "id" == .text id) = true → _ :=
      fun r hr hid => fits_registrationValues (hs.fits .devices r hr).1 now name platform hostname
        (by simpa using hid)
    refine (Schema.checks_update_iff hs ?_).trans
      ⟨fun h => ?_, fun h r hr hp => (hrow r hr hp).2 h⟩
    · exact fun r _ => hkeys
    · obtain ⟨r, hr, hid⟩ := List.any_eq_true.1 hthere
      exact (hrow r hr hid).1 (h r hr hid)
  · rw [if_neg hthere]
    refine Iff.trans ⟨fun h => h.1.1, fun h => ⟨⟨h, fun p hp => absurd hp List.not_mem_nil⟩, ?_⟩⟩
      fits_registrationRow
    exact (distinct_insert_iff hs (t := .devices) rfl h.1).2 fun r hr hid =>
      hthere (List.any_eq_true.2 ⟨r, hr, beq_iff_eq.2 hid⟩)

/-- **Exactly when the server takes a registration**, whether the device is there or not. -/
theorem upsertDevice_accepted_iff {s : Server} (hs : schema.Valid s.contents) (now : DateTime)
    (deviceId name platform : String) (hostname : Option String) :
    (∃ s', s.execute (.client (.upsertDevice deviceId name platform hostname) now) = some s') ↔
      Registrable deviceId name platform hostname := by
  have hhost : (∀ h ∈ hostname.map (cutBlanks 255), h.length ≤ 255) ↔
      ∀ h ∈ hostname, (h.toList.drop 255).all (· == ' ') = true := by
    simp only [Option.mem_map, forall_exists_index, and_imp, forall_apply_eq_imp_iff₂,
      length_cutBlanks_le_iff]
  rw [Server.accepts_iff, ClientStatement.query, upsertDevice_sendable, Query.upsertDevice,
    checks_upsertStatement_iff hs, hhost]
  simp only [length_cutBlanks_le_iff, Registrable, Storable]
  grind

/-! ## What it leaves -/

/-- A statement of a registration leaves the other tables alone, and the device is there, with its
    id as the column is given it. -/
theorem contents_upsertDevice {s s' : Server} {now : DateTime} {deviceId name platform : String}
    {hostname : Option String}
    (h : s.execute (.client (.upsertDevice deviceId name platform hostname) now) = some s') :
    (∀ t, t ≠ .devices → s'.contents t = s.contents t) ∧
      ∃ r ∈ s'.contents .devices, r "id" = .text (cutBlanks 255 deviceId) := by
  obtain ⟨c, hc, rfl⟩ := Option.map_eq_some_iff.1 h
  obtain ⟨-, rfl⟩ := Schema.execute_eq_some_iff.1 (Query.run_eq_some hc).2
  simp only [ClientStatement.query, Query.upsertDevice, upsertStatement]
  split
  · rename_i hthere
    refine ⟨fun t ht => Function.update_of_ne ht _ _, ?_⟩
    obtain ⟨r, hr, hid⟩ := List.any_eq_true.1 hthere
    have hid' : r "id" = .text (cutBlanks 255 deviceId) := by simpa using hid
    refine ⟨r.assign (registrationValues now (cutBlanks 255 name) (cutBlanks 50 platform)
      (hostname.map (cutBlanks 255))), ?_, hid'⟩
    rw [Schema.apply, Function.update_self]
    exact mem_updateRows.2 ⟨r, hr, .inl ⟨hid, rfl⟩⟩
  · refine ⟨fun t ht => Function.update_of_ne ht _ _, ?_⟩
    refine ⟨registrationRow now (cutBlanks 255 deviceId) (cutBlanks 255 name)
      (cutBlanks 50 platform) (hostname.map (cutBlanks 255)), ?_, rfl⟩
    rw [Schema.apply, Function.update_self]
    exact List.mem_append_right _ (List.mem_singleton_self _)

/-- A registration keeps the metadata of a device, and gives a new one some. -/
theorem metadata_upsertDevice {s s' : Server} {now : DateTime} {deviceId name platform : String}
    {hostname : Option String}
    (h : s.execute (.client (.upsertDevice deviceId name platform hostname) now) = some s') :
    (∀ r ∈ s'.contents .devices, r "id" = .text (cutBlanks 255 deviceId) →
      r "metadata" ≠ .null) ↔
    ∀ r ∈ s.contents .devices, r "id" = .text (cutBlanks 255 deviceId) → r "metadata" ≠ .null := by
  obtain ⟨c, hc, rfl⟩ := Option.map_eq_some_iff.1 h
  obtain ⟨-, rfl⟩ := Schema.execute_eq_some_iff.1 (Query.run_eq_some hc).2
  simp only [ClientStatement.query, Query.upsertDevice, upsertStatement]
  by_cases hthere : (s.contents .devices).any fun r => r "id" == .text (cutBlanks 255 deviceId)
  · rw [if_pos hthere, Schema.apply, Function.update_self]
    constructor
    · intro h r hr hid
      exact h (r.assign (registrationValues now _ _ _))
        (mem_updateRows.2 ⟨r, hr, .inl ⟨by simpa using hid, rfl⟩⟩) hid
    · intro h x hx hid
      obtain ⟨r, hr, ⟨-, rfl⟩ | ⟨-, rfl⟩⟩ := mem_updateRows.1 hx
      · exact h r hr hid
      · exact h x hr hid
  · rw [if_neg hthere, Schema.apply, Function.update_self]
    constructor
    · exact fun h r hr => h r (List.mem_append_left _ hr)
    · intro h r hr
      rcases List.mem_append.1 hr with hr | hr
      · exact h r hr
      · rw [List.mem_singleton.1 hr]
        exact fun _ hnull => by cases hnull

/-- What `RETURNING *` gives back is decoded unless the metadata of the device is NULL. -/
theorem getDevice_registered_iff {s s' : Server} (hs : schema.Valid s.contents) {now : DateTime}
    {deviceId name platform : String} {hostname : Option String}
    (h : s.execute (.client (.upsertDevice deviceId name platform hostname) now) = some s') :
    (∃ vs, s'.database.getDevice (cutBlanks 255 deviceId) = .ok (some vs)) ↔
      ∀ r ∈ s.contents .devices, r "id" = .text (cutBlanks 255 deviceId) →
        r "metadata" ≠ .null := by
  have hadm := Server.admitted_of_valid (Server.execute_valid hs h)
  obtain ⟨-, r, hr, hid⟩ := contents_upsertDevice h
  have hmem : ∀ x, x ∈ s'.database.deviceRows (cutBlanks 255 deviceId) ↔
      x ∈ s'.contents .devices ∧ x "id" = .text (cutBlanks 255 deviceId) := by
    intro x
    rw [Database.deviceRows, List.mem_filter, beq_iff_eq]
    rfl
  have hsome : (∃ vs, s'.database.getDevice (cutBlanks 255 deviceId) = .ok (some vs)) ↔
      ∃ o, s'.database.getDevice (cutBlanks 255 deviceId) = .ok o := by
    refine ⟨fun ⟨vs, hvs⟩ => ⟨_, hvs⟩, fun ⟨o, ho⟩ => ?_⟩
    cases hrows : s'.database.deviceRows (cutBlanks 255 deviceId) with
    | nil => exact absurd ((hmem r).2 ⟨hr, hid⟩) (by simp [hrows])
    | cons x rest =>
      rw [Database.getDevice, hrows, fetchOptional] at ho
      rw [Database.getDevice, hrows, fetchOptional]
      cases hx : decodeRow devicesTable deviceFields x with
      | error e =>
        rw [hx] at ho
        cases ho
      | ok vs => exact ⟨vs, rfl⟩
  rw [hsome, ← metadata_upsertDevice h]
  refine (fetchOptional_decodes_iff devices_gaps (hadm.primaryKeys _ (by simp))
    hadm.devices).trans ?_
  constructor
  · intro hall x hx hxid
    exact (hall x ((hmem x).2 ⟨hx, hxid⟩)).1 "metadata" (by simp)
  · intro hall x hx
    obtain ⟨hx, hxid⟩ := (hmem x).1 hx
    refine ⟨fun n hn => ?_, fun n hn => (by cases hn)⟩
    rw [List.mem_singleton.1 hn]
    exact hall x hx hxid

end RBackup2

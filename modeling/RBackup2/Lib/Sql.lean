import Mathlib.Algebra.Ring.Int.Defs
import Mathlib.Data.List.Nodup

/-!
# SQL rows and the structs they decode into

Tables as lists of typed columns, rows as functions from column names to values, and the decoding
of a row into the fields of a struct, field by field and by name.

* `Admits` — what the types and the `NOT NULL` constraints of a table let a row hold.
* `decodeRow`, `fetchAll`, `fetchOptional` — the decoding of a row, and of the rows of a query: one
  row that does not decode fails the query.
* `nullGaps`, `elementGaps` — where a table admits a NULL, or a NULL array element, that its struct
  has no place for.
* `decodeRow_ok_iff` — an admitted row decodes exactly if it has no NULL in a gap.
-/

set_option autoImplicit false

namespace Sql

/-! ## Tables -/

inductive SqlType where
  | varchar (n : Nat)
  | text
  | textArray
  | integer
  | bigint
  | boolean
  | timestamptz
  | uuid
  | jsonb
  deriving DecidableEq, Repr

/-- A value of a column; JSON by its text. -/
inductive Value where
  | null
  | text (s : String)
  | array (items : List (Option String))
  | int (n : Int)
  | bool (b : Bool)
  | timestamp (t : Int)
  | uuid (u : BitVec 128)
  | json (text : String)
  deriving DecidableEq, Repr

/-- The values a column of the type stores; NULL is of every type. -/
def Value.hasType : Value → SqlType → Bool
  | .null, _ => true
  | .text s, .varchar n => decide (s.length ≤ n)
  | .text _, .text => true
  | .array _, .textArray => true
  | .int n, .integer => decide (-2 ^ 31 ≤ n ∧ n < 2 ^ 31)
  | .int n, .bigint => decide (-2 ^ 63 ≤ n ∧ n < 2 ^ 63)
  | .bool _, .boolean => true
  | .timestamp _, .timestamptz => true
  | .uuid _, .uuid => true
  | .json _, .jsonb => true
  | _, _ => false

/-- What a `VARCHAR(n)` column is given for a text: blanks beyond its length are cut off. -/
def cutBlanks (n : Nat) (text : String) : String :=
  if (text.toList.drop n).all (· == ' ') then String.ofList (text.toList.take n) else text

/-- A text fits into the column exactly if nothing but blanks is beyond its length. -/
theorem length_cutBlanks_le_iff {n : Nat} {text : String} :
    (cutBlanks n text).length ≤ n ↔ (text.toList.drop n).all (· == ' ') = true := by
  unfold cutBlanks
  split
  · rename_i hblank
    refine iff_of_true ?_ hblank
    rw [String.length_ofList, List.length_take]
    omega
  · rename_i hblank
    refine iff_of_false (fun hle => hblank ?_) hblank
    rw [List.drop_eq_nil_of_le (by rwa [String.length_toList])]
    rfl

/-- The value is an array with a NULL in it. -/
def Value.hasNullElement : Value → Bool
  | .array items => items.any Option.isNone
  | _ => false

structure Column where
  name : String
  type : SqlType
  notNull : Bool
  deriving DecidableEq, Repr

abbrev Row := String → Value

/-- The row keeps the types and the `NOT NULL` constraints. -/
def Admits (columns : List Column) (row : Row) : Prop :=
  ∀ c ∈ columns, (row c.name).hasType c.type = true ∧ (c.notNull = true → row c.name ≠ .null)

instance (columns : List Column) (row : Row) : Decidable (Admits columns row) :=
  inferInstanceAs (Decidable (∀ _ ∈ _, _))

/-! ## Structs -/

inductive FieldType where
  | string
  | i32
  | i64
  | bool
  | dateTime
  | uuid
  | json
  | vec (t : FieldType)
  | option (t : FieldType)
  deriving DecidableEq, Repr

structure Field where
  name : String
  type : FieldType
  deriving DecidableEq, Repr

/-- The SQL types a field can be decoded from. -/
def compatible : SqlType → FieldType → Bool
  | ty, .option t => compatible ty t
  | .varchar _, .string => true
  | .text, .string => true
  | .textArray, .vec .string => true
  | .textArray, .vec (.option .string) => true
  | .integer, .i32 => true
  | .bigint, .i64 => true
  | .boolean, .bool => true
  | .timestamptz, .dateTime => true
  | .uuid, .uuid => true
  | .jsonb, .json => true
  | _, _ => false

def FieldType.isOption : FieldType → Bool
  | .option _ => true
  | _ => false

/-- The elements of the field's array, if it is one, may not be NULL. -/
def FieldType.bareElements : FieldType → Bool
  | .option t => t.bareElements
  | .vec t => !t.isOption
  | _ => false

/-- No NULL, nor a NULL element, is decoded into anything but an `Option`. -/
def FieldType.accepts : FieldType → Value → Bool
  | .option t, v => v == .null || t.accepts v
  | .vec t, v => v != .null && (t.isOption || !v.hasNullElement)
  | _, v => v != .null

/-! ## Decoding -/

inductive DecodeError where
  | columnNotFound (name : String)
  | mismatchedTypes (name : String)
  | unexpectedNull (name : String)
  deriving DecidableEq, Repr

/-- sqlx's text of the error; of the types it names the column only. -/
def DecodeError.display : DecodeError → String
  | .columnNotFound name => "no column found for name: " ++ name
  | .mismatchedTypes name =>
    "error occurred while decoding column \"" ++ name ++ "\": mismatched types"
  | .unexpectedNull name => "error occurred while decoding column \"" ++ name ++
      "\": unexpected null; try decoding as an `Option`"

def decodeField (columns : List Column) (row : Row) (f : Field) : Except DecodeError Value :=
  match columns.find? (fun c => c.name == f.name) with
  | none => .error (.columnNotFound f.name)
  | some c =>
    if compatible c.type f.type = false then .error (.mismatchedTypes f.name)
    else if f.type.accepts (row f.name) = false then .error (.unexpectedNull f.name)
    else .ok (row f.name)

/-- The values of the fields, in their order. -/
def decodeRow (columns : List Column) (fields : List Field) (row : Row) :
    Except DecodeError (List Value) :=
  match fields with
  | [] => .ok []
  | f :: rest =>
    match decodeField columns row f, decodeRow columns rest row with
    | .error e, _ => .error e
    | .ok _, .error e => .error e
    | .ok v, .ok vs => .ok (v :: vs)

/-- `fetch_all`. -/
def fetchAll (columns : List Column) (fields : List Field) :
    List Row → Except DecodeError (List (List Value))
  | [] => .ok []
  | row :: rest =>
    match decodeRow columns fields row, fetchAll columns fields rest with
    | .error e, _ => .error e
    | .ok _, .error e => .error e
    | .ok vs, .ok vss => .ok (vs :: vss)

/-- `fetch_optional`. -/
def fetchOptional (columns : List Column) (fields : List Field) :
    List Row → Except DecodeError (Option (List Value))
  | [] => .ok none
  | row :: _ => (decodeRow columns fields row).map some

/-! ## Where a table and a struct disagree -/

/-- Every field has a column it can be decoded from. -/
def Matches (columns : List Column) (fields : List Field) : Bool :=
  fields.all fun f => (columns.find? fun c => c.name == f.name).any fun c =>
    compatible c.type f.type

/-- The column may hold a NULL and the field is no `Option`. -/
def nullGap (columns : List Column) (f : Field) : Bool :=
  !f.type.isOption && (columns.find? fun c => c.name == f.name).all fun c => !c.notNull

/-- The columns whose NULL has no place in the struct. -/
def nullGaps (columns : List Column) (fields : List Field) : List String :=
  (fields.filter (nullGap columns)).map Field.name

/-- The columns whose NULL elements have no place in the struct. -/
def elementGaps (fields : List Field) : List String :=
  (fields.filter fun f => f.type.bareElements).map Field.name

/-- The row has no NULL in the first columns, and no NULL element in the others. -/
def Row.Without (row : Row) (nulls elements : List String) : Prop :=
  (∀ n ∈ nulls, row n ≠ .null) ∧ ∀ n ∈ elements, (row n).hasNullElement = false

instance (row : Row) (nulls elements : List String) : Decidable (row.Without nulls elements) :=
  inferInstanceAs (Decidable (_ ∧ _))

/-- A field accepts what is no NULL, or may be one, and has no NULL element, or may have one. -/
theorem accepts_iff (t : FieldType) (v : Value) :
    t.accepts v = true ↔ (t.isOption = true ∨ v ≠ .null) ∧
      (t.bareElements = true → v.hasNullElement = false) := by
  induction t with
  | option t ih =>
    rw [FieldType.accepts, Bool.or_eq_true, ih]
    by_cases hv : v = .null
    · subst hv
      simp [FieldType.isOption, Value.hasNullElement]
    · simp [FieldType.isOption, FieldType.bareElements, hv]
  | vec t ih =>
    have hvec : (FieldType.vec t).isOption = false := rfl
    rw [FieldType.accepts, FieldType.bareElements, hvec]
    cases t.isOption <;> simp
  | _ => simp [FieldType.accepts, FieldType.isOption, FieldType.bareElements]

theorem decodeField_ok_iff {columns : List Column} {row : Row} {f : Field} {c : Column}
    (hc : columns.find? (fun c => c.name == f.name) = some c)
    (ht : compatible c.type f.type = true) :
    (∃ v, decodeField columns row f = .ok v) ↔ f.type.accepts (row f.name) = true := by
  unfold decodeField
  rw [hc]
  simp only [ht, Bool.true_eq_false, if_false]
  cases f.type.accepts (row f.name) <;> simp

theorem decodeRow_cons_ok_iff {columns : List Column} {fields : List Field} {row : Row}
    {f : Field} : (∃ vs, decodeRow columns (f :: fields) row = .ok vs) ↔
      (∃ v, decodeField columns row f = .ok v) ∧ ∃ vs, decodeRow columns fields row = .ok vs := by
  simp only [decodeRow]
  cases decodeField columns row f <;> cases decodeRow columns fields row <;> simp

/-- An admitted row meets its `NOT NULL` constraints, so only a gap can hold a NULL. -/
theorem accepts_of_admits {columns : List Column} {row : Row} (hadm : Admits columns row)
    {f : Field} {c : Column} (hc : columns.find? (fun c => c.name == f.name) = some c) :
    f.type.accepts (row f.name) = true ↔
      (nullGap columns f = true → row f.name ≠ .null) ∧
        (f.type.bareElements = true → (row f.name).hasNullElement = false) := by
  have hname : c.name = f.name := by simpa using List.find?_some hc
  have hnull := (hadm c (List.mem_of_find?_eq_some hc)).2
  rw [hname] at hnull
  rw [accepts_iff]
  apply and_congr_left
  intro _
  cases hopt : f.type.isOption with
  | true => simp [nullGap, hopt]
  | false =>
    cases hnn : c.notNull with
    | true => simp [nullGap, hc, hopt, hnn, hnull hnn]
    | false => simp [nullGap, hc, hopt, hnn]

/-- **An admitted row decodes exactly if it has no NULL where its struct has no place for one.** -/
theorem decodeRow_ok_iff {columns : List Column} {row : Row} (hadm : Admits columns row) :
    ∀ {fields : List Field}, Matches columns fields = true →
      ((∃ vs, decodeRow columns fields row = .ok vs) ↔
        row.Without (nullGaps columns fields) (elementGaps fields))
  | [], _ => by simp [decodeRow, Row.Without, nullGaps, elementGaps]
  | f :: fields, hm => by
    rw [Matches, List.all_cons, Bool.and_eq_true, Option.any_eq_true] at hm
    obtain ⟨⟨c, hc, ht⟩, hrest⟩ := hm
    have ih := decodeRow_ok_iff hadm hrest
    rw [decodeRow_cons_ok_iff, ih, decodeField_ok_iff hc ht, accepts_of_admits hadm hc]
    simp only [Row.Without, nullGaps, elementGaps, List.filter_cons]
    cases nullGap columns f <;> cases f.type.bareElements <;>
      simp [and_assoc, and_comm, and_left_comm]

theorem decodeField_value {columns : List Column} {row : Row} {f : Field} {v : Value}
    (h : decodeField columns row f = .ok v) : v = row f.name := by
  unfold decodeField at h
  split at h
  · cases h
  · split at h
    · cases h
    · split at h
      · cases h
      · cases h
        rfl

/-- A decoded row has the values of its columns. -/
theorem decodeRow_values {columns : List Column} {row : Row} :
    ∀ {fields : List Field} {vs : List Value}, decodeRow columns fields row = .ok vs →
      vs = fields.map fun f => row f.name
  | [], vs, h => by
    cases h
    rfl
  | f :: fields, vs, h => by
    simp only [decodeRow] at h
    split at h
    · cases h
    · cases h
    · rename_i v vs hv hvs
      cases h
      rw [decodeField_value hv, decodeRow_values hvs, List.map_cons]

/-- What a column of text holds. -/
theorem Value.text_of_hasType {v : Value} {n : Nat}
    (h : v.hasType .text = true ∨ v.hasType (.varchar n) = true) (hv : v ≠ .null) :
    ∃ s, v = .text s := by
  cases v with
  | null => exact absurd rfl hv
  | text s => exact ⟨s, rfl⟩
  | _ => simp [Value.hasType] at h

/-- What a column of integers holds. -/
theorem Value.int_of_hasType {v : Value} (h : v.hasType .integer = true) (hv : v ≠ .null) :
    ∃ n, v = .int n := by
  cases v with
  | null => exact absurd rfl hv
  | int n => exact ⟨n, rfl⟩
  | _ => simp [Value.hasType] at h

/-- What a column of timestamps holds. -/
theorem Value.timestamp_of_hasType {v : Value} (h : v.hasType .timestamptz = true)
    (hv : v ≠ .null) : ∃ t, v = .timestamp t := by
  cases v with
  | null => exact absurd rfl hv
  | timestamp t => exact ⟨t, rfl⟩
  | _ => simp [Value.hasType] at h

/-- What a column of UUIDs holds. -/
theorem Value.uuid_of_hasType {v : Value} (h : v.hasType .uuid = true) (hv : v ≠ .null) :
    ∃ u, v = .uuid u := by
  cases v with
  | null => exact absurd rfl hv
  | uuid u => exact ⟨u, rfl⟩
  | _ => simp [Value.hasType] at h

/-- What a column of truth values holds. -/
theorem Value.bool_of_hasType {v : Value} (h : v.hasType .boolean = true) (hv : v ≠ .null) :
    ∃ b, v = .bool b := by
  cases v with
  | null => exact absurd rfl hv
  | bool b => exact ⟨b, rfl⟩
  | _ => simp [Value.hasType] at h

theorem fetchAll_ok_iff {columns : List Column} {fields : List Field} {rows : List Row} :
    (∃ vss, fetchAll columns fields rows = .ok vss) ↔
      ∀ row ∈ rows, ∃ vs, decodeRow columns fields row = .ok vs := by
  induction rows with
  | nil => simp [fetchAll]
  | cons row rest ih =>
    rw [List.forall_mem_cons, ← ih]
    simp only [fetchAll]
    cases decodeRow columns fields row <;> cases fetchAll columns fields rest <;> simp

/-- The row with a key is the only one, where the keys are distinct. -/
theorem head?_filter_key {rows : List Row} {key : String} {v : Value}
    (hnd : (rows.map fun r => r key).Nodup) {row : Row} :
    row ∈ (rows.filter fun r => r key == v).head? ↔ row ∈ rows.filter fun r => r key == v := by
  constructor
  · intro h
    exact List.mem_of_mem_head? h
  · intro h
    have hkey : ∀ r ∈ rows.filter (fun r => r key == v), r key = v := by
      intro r hr
      simpa using (List.mem_filter.1 hr).2
    cases hrows : rows.filter fun r => r key == v with
    | nil =>
      rw [hrows] at h
      cases h
    | cons first rest =>
      have hfirst : first ∈ rows.filter fun r => r key == v := by
        rw [hrows]
        exact List.mem_cons_self
      have hsame : first = row := List.inj_on_of_nodup_map hnd (List.mem_filter.1 hfirst).1
        (List.mem_filter.1 h).1 ((hkey first hfirst).trans (hkey row h).symm)
      rw [hsame]
      rfl

/-- Only the first row is decoded. -/
theorem fetchOptional_ok_iff {columns : List Column} {fields : List Field} {rows : List Row} :
    (∃ o, fetchOptional columns fields rows = .ok o) ↔
      ∀ row ∈ rows.head?, ∃ vs, decodeRow columns fields row = .ok vs := by
  cases rows with
  | nil => simp [fetchOptional]
  | cons row rest =>
    simp only [fetchOptional, List.head?_cons, Option.mem_some_iff, forall_eq']
    cases decodeRow columns fields row <;> simp [Except.map]

end Sql

import Mathlib.Data.List.Nodup
import Mathlib.Data.List.Pairwise
import Mathlib.Logic.Function.Basic
import Mathlib.Order.Bounds.Basic
import RBackup2.Lib.Sql

/-!
# Tables that refer to each other

Tables with the constraints of SQL — types, `NOT NULL`, `CHECK`, `PRIMARY KEY`, `UNIQUE` and
`REFERENCES … ON DELETE CASCADE` — and the three statements that write to them.  The server checks
the rows a statement touches and no others.

* `Schema.Valid` — contents that satisfy all constraints.
* `Schema.execute` — INSERT, UPDATE and DELETE with the checks the server makes.
* `Schema.checks_update_iff` — an UPDATE that leaves keys and references alone is accepted if the
  new rows fit.
* `Schema.execute_valid` — they keep contents valid.
* `Schema.mem_delete_iff` — a DELETE removes a row exactly if the row is deleted or depends on a
  deleted one; `Schema.delete_greatest` — what it leaves is the largest part in which every
  reference resolves.
-/

set_option autoImplicit false

namespace Sql

/-! ## Rows -/

/-- The row with new values in some columns. -/
def Row.assign (row : Row) (values : List (String × Value)) : Row := fun column =>
  (values.lookup column).getD (row column)

/-- A row of NULLs. -/
def Row.empty : Row := fun _ => .null

theorem Row.assign_of_lookup {row : Row} {values : List (String × Value)} {column : String}
    {v : Value} (h : values.lookup column = some v) : row.assign values column = v := by
  rw [Row.assign, h, Option.getD_some]

theorem Row.assign_of_not_mem {row : Row} {values : List (String × Value)} {column : String}
    (h : column ∉ values.map Prod.fst) : row.assign values column = row column := by
  have hnone : values.lookup column = none := by
    rw [List.lookup_eq_none_iff]
    intro p hp
    rw [bne_iff_ne]
    rintro rfl
    exact h (List.mem_map_of_mem hp)
  rw [Row.assign, hnone, Option.getD_none]

/-- A column keeps its value or is given one. -/
theorem Row.assign_cases (row : Row) (values : List (String × Value)) (column : String) :
    row.assign values column = row column ∨ (column, row.assign values column) ∈ values := by
  cases h : values.lookup column with
  | none => exact .inl (by rw [Row.assign, h, Option.getD_none])
  | some v =>
    obtain ⟨before, after, rfl, -⟩ := List.lookup_eq_some_iff.1 h
    rw [Row.assign_of_lookup h]
    exact .inr (List.mem_append_right _ List.mem_cons_self)

theorem Row.Without.assign {row : Row} {nulls elements : List String}
    (h : row.Without nulls elements) {values : List (String × Value)}
    (hv : ∀ p ∈ values, (p.1 ∈ nulls → p.2 ≠ .null) ∧
      (p.1 ∈ elements → p.2.hasNullElement = false)) :
    (row.assign values).Without nulls elements := by
  refine ⟨fun n hn => ?_, fun n hn => ?_⟩
  · rcases row.assign_cases values n with heq | hmem
    · rw [heq]
      exact h.1 n hn
    · exact (hv _ hmem).1 hn
  · rcases row.assign_cases values n with heq | hmem
    · rw [heq]
      exact h.2 n hn
    · exact (hv _ hmem).2 hn

/-- Values of the right types keep a row admitted. -/
theorem Admits.assign {columns : List Column} {row : Row} (h : Admits columns row)
    {values : List (String × Value)} (hv : ∀ p ∈ values, ∀ c ∈ columns, c.name = p.1 →
      p.2.hasType c.type = true ∧ (c.notNull = true → p.2 ≠ .null)) :
    Admits columns (row.assign values) := by
  intro c hc
  rcases row.assign_cases values c.name with heq | hmem
  · rw [heq]
    exact h c hc
  · exact hv _ hmem c hc rfl

/-- The types a row has after an assignment, by what is assigned. -/
theorem Admits.assign_iff {columns : List Column} {row : Row} (h : Admits columns row)
    {values : List (String × Value)} : Admits columns (row.assign values) ↔
      ∀ c ∈ columns, ∀ v ∈ values.lookup c.name,
        v.hasType c.type = true ∧ (c.notNull = true → v ≠ .null) := by
  refine forall₂_congr fun c hc => ?_
  cases hl : values.lookup c.name with
  | none =>
    rw [Row.assign, hl]
    simpa using h c hc
  | some v => simp [Row.assign_of_lookup hl]

/-- The values of the row in some columns, unless one of them is NULL. -/
def keyOf (columns : List String) (row : Row) : Option (List Value) :=
  if .null ∈ columns.map row then none else some (columns.map row)

theorem keyOf_single {column : String} {row : Row} (h : row column ≠ .null) :
    keyOf [column] row = some [row column] := by
  have hne : Value.null ∉ [column].map row := by simpa using h.symm
  rw [keyOf, if_neg hne]
  rfl

/-- A key is not changed by new values in other columns. -/
theorem keyOf_assign {columns : List String} {row : Row} {values : List (String × Value)}
    (h : (values.map Prod.fst).Disjoint columns) :
    keyOf columns (row.assign values) = keyOf columns row := by
  have hsame : columns.map (row.assign values) = columns.map row :=
    List.map_congr_left fun n hn => Row.assign_of_not_mem fun hmem => h hmem hn
  rw [keyOf, hsame, keyOf]

/-! ## Schemas and contents -/

/-- The tables of a database.  References go to the key of a table of lower rank. -/
structure Schema (τ : Type) where
  columns : τ → List Column
  /-- The primary key. -/
  key : τ → String
  /-- The conditions of the `CHECK` constraints. -/
  check : τ → Row → Bool
  /-- The `UNIQUE` constraints; they do not compare rows with a NULL. -/
  unique : τ → List (List String)
  /-- The columns that refer to the key of a table, `ON DELETE CASCADE`. -/
  references : τ → List (String × τ)
  rank : τ → Nat
  depth : Nat
  tables : List τ
  rank_lt : ∀ t, ∀ p ∈ references t, rank p.2 < rank t
  rank_lt_depth : ∀ t, rank t < depth
  mem_tables : ∀ t, t ∈ tables

/-- The rows of every table. -/
abbrev Contents (τ : Type) := τ → List Row

/-- The rows of every table, as sets. -/
def Contents.rows {τ : Type} (c : Contents τ) : τ → Set Row := fun t => {r | r ∈ c t}

namespace Schema

variable {τ : Type} (s : Schema τ)

/-- The row keeps the constraints that concern no other row. -/
def Fits (t : τ) (r : Row) : Prop := Admits (s.columns t) r ∧ s.check t r = true

instance (t : τ) (r : Row) : Decidable (s.Fits t r) := inferInstanceAs (Decidable (_ ∧ _))

/-- Every reference of the row is NULL or resolves. -/
def Resolves (D : τ → Set Row) (t : τ) (r : Row) : Prop :=
  ∀ p ∈ s.references t, r p.1 = .null ∨ ∃ x ∈ D p.2, x (s.key p.2) = r p.1

instance (c : Contents τ) (t : τ) (r : Row) : Decidable (s.Resolves c.rows t r) :=
  inferInstanceAs (Decidable (∀ p ∈ s.references t, r p.1 = .null ∨
    ∃ x ∈ c p.2, x (s.key p.2) = r p.1))

/-- Every reference resolves. -/
def Closed (D : τ → Set Row) : Prop := ∀ t, ∀ r ∈ D t, s.Resolves D t r

/-- The columns no two rows may agree on. -/
def distinctBy (t : τ) : List (List String) := [s.key t] :: s.unique t

/-- No two of the rows agree where they may not. -/
def Distinct (t : τ) (rows : List Row) : Prop :=
  ∀ columns ∈ s.distinctBy t, (rows.filterMap (keyOf columns)).Nodup

instance (t : τ) (rows : List Row) : Decidable (s.Distinct t rows) :=
  inferInstanceAs (Decidable (∀ _ ∈ _, _))

/-- The contents satisfy all constraints. -/
structure Valid (c : Contents τ) : Prop where
  fits : ∀ t, ∀ r ∈ c t, s.Fits t r
  closed : s.Closed c.rows
  distinct : ∀ t, s.Distinct t (c t)

variable {s}

theorem Resolves.mono {D D' : τ → Set Row} (h : D ≤ D') {t : τ} {r : Row}
    (hr : s.Resolves D t r) : s.Resolves D' t r := by
  intro p hp
  rcases hr p hp with hnull | ⟨x, hx, hkey⟩
  · exact .inl hnull
  · exact .inr ⟨x, h p.2 hx, hkey⟩

/-- Rows that agree where no two may are one. -/
theorem eq_of_keyOf {rows : List Row} {columns : List String}
    (hnd : (rows.filterMap (keyOf columns)).Nodup) {x y : Row} (hx : x ∈ rows) (hy : y ∈ rows)
    {k : List Value} (hxk : keyOf columns x = some k) (hyk : keyOf columns y = some k) :
    x = y := by
  by_contra hne
  rw [List.Nodup, List.pairwise_filterMap] at hnd
  have hsymm : Std.Symm fun a b : Row =>
      ∀ c, keyOf columns a = some c → ∀ d, keyOf columns b = some d → c ≠ d :=
    ⟨fun a b h c hc d hd => (h d hd c hc).symm⟩
  exact hnd.forall hx hy hne k hxk k hyk rfl

theorem Valid.eq_of_key {c : Contents τ} (h : s.Valid c) {t : τ} {x y : Row} (hx : x ∈ c t)
    (hy : y ∈ c t) (hkey : x (s.key t) = y (s.key t)) (hne : x (s.key t) ≠ .null) : x = y :=
  eq_of_keyOf (h.distinct t _ List.mem_cons_self) hx hy (keyOf_single hne)
    (hkey ▸ keyOf_single (hkey ▸ hne))

/-! ## Cascades -/

variable (s)

/-- Drops the rows with a reference that does not resolve, `n` times. -/
def sweep : Nat → Contents τ → Contents τ
  | 0, c => c
  | n + 1, c =>
    let d := sweep n c
    fun t => (d t).filter fun r => decide (s.Resolves d.rows t r)

variable {s}

theorem sweep_sublist (n : Nat) (c : Contents τ) (t : τ) : (s.sweep n c t).Sublist (c t) := by
  induction n with
  | zero => exact List.Sublist.refl _
  | succ n ih => exact List.filter_sublist.trans ih

/-- After `n` sweeps the references of the tables of rank less than `n` resolve. -/
theorem resolves_sweep {c : Contents τ} :
    ∀ {n : Nat} {t : τ} {r : Row}, s.rank t < n → r ∈ s.sweep n c t →
      s.Resolves (s.sweep n c).rows t r
  | n + 1, t, r, ht, hr => by
    obtain ⟨-, hres⟩ := List.mem_filter.1 hr
    intro p hp
    rcases of_decide_eq_true hres p hp with hnull | ⟨x, hx, hkey⟩
    · exact .inl hnull
    · -- the row referred to stays, since it is in a table of lower rank
      have hlt : s.rank p.2 < n := by
        have := s.rank_lt t p hp
        omega
      have hstay : x ∈ s.sweep (n + 1) c p.2 :=
        List.mem_filter.2 ⟨hx, decide_eq_true (resolves_sweep hlt hx)⟩
      exact .inr ⟨x, hstay, hkey⟩

theorem closed_sweep (c : Contents τ) : s.Closed (s.sweep s.depth c).rows := fun t _ hr =>
  resolves_sweep (s.rank_lt_depth t) hr

/-- A sweep drops no row of a part in which every reference resolves. -/
theorem le_sweep {c : Contents τ} {D : τ → Set Row} (hD : s.Closed D) (hle : D ≤ c.rows) :
    ∀ n, D ≤ (s.sweep n c).rows
  | 0 => hle
  | n + 1 => fun t r hr => List.mem_filter.2 ⟨le_sweep hD hle n t hr,
      decide_eq_true ((hD t r hr).mono (le_sweep hD hle n))⟩

section Delete

variable [DecidableEq τ]

variable (s) in
/-- `DELETE FROM t WHERE p`.  The rows that have lost a reference are deleted as well, as long as
    there are any. -/
def delete (t : τ) (p : Row → Bool) (c : Contents τ) : Contents τ :=
  s.sweep s.depth (Function.update c t ((c t).filter fun r => !p r))

/-- The row is deleted itself, or refers to a row that depends on a deleted one. -/
inductive Depends (s : Schema τ) (c : Contents τ) (t : τ) (p : Row → Bool) : τ → Row → Prop where
  | deleted {r : Row} : p r = true → Depends s c t p t r
  | refers {u : τ} {r x : Row} {ref : String × τ} : ref ∈ s.references u → r ref.1 ≠ .null →
      x ∈ c ref.2 → x (s.key ref.2) = r ref.1 → Depends s c t p ref.2 x → Depends s c t p u r

theorem delete_sublist (t : τ) (p : Row → Bool) (c : Contents τ) (u : τ) :
    (s.delete t p c u).Sublist (c u) := by
  refine (sweep_sublist _ _ u).trans ?_
  by_cases h : u = t
  · subst h
    rw [Function.update_self]
    exact List.filter_sublist
  · rw [Function.update_of_ne h]

theorem closed_delete (t : τ) (p : Row → Bool) (c : Contents τ) :
    s.Closed (s.delete t p c).rows := closed_sweep _

theorem not_mem_delete {t : τ} {p : Row → Bool} {c : Contents τ} {r : Row}
    (h : r ∈ s.delete t p c t) : p r = false := by
  have hmem := (sweep_sublist _ _ t).subset h
  rw [Function.update_self] at hmem
  simpa using (List.mem_filter.1 hmem).2

/-- **What a DELETE leaves** is the largest part without the deleted rows in which every reference
    resolves. -/
theorem delete_greatest (t : τ) (p : Row → Bool) (c : Contents τ) :
    IsGreatest {D : τ → Set Row | s.Closed D ∧ D ≤ c.rows ∧ ∀ r ∈ D t, p r = false}
      (s.delete t p c).rows := by
  refine ⟨⟨closed_delete t p c, fun u r hr => (delete_sublist t p c u).subset hr,
    fun r hr => not_mem_delete hr⟩, ?_⟩
  rintro D ⟨hD, hle, hdel⟩
  refine le_sweep hD (fun u r hr => ?_) s.depth
  by_cases h : u = t
  · subst h
    have hmem : r ∈ (c u).filter fun r => !p r :=
      List.mem_filter.2 ⟨hle u hr, by rw [hdel r hr]; rfl⟩
    simpa [Contents.rows] using hmem
  · have hmem : r ∈ c u := hle u hr
    simpa [Contents.rows, h] using hmem

/-- **A row is removed exactly if it depends on a deleted one.** -/
theorem mem_delete_iff {c : Contents τ} (hc : s.Valid c) {t u : τ} {p : Row → Bool} {r : Row} :
    r ∈ s.delete t p c u ↔ r ∈ c u ∧ ¬ Depends s c t p u r := by
  constructor
  · intro hr
    refine ⟨(delete_sublist t p c u).subset hr, fun hdep => ?_⟩
    induction hdep with
    | deleted hp => exact absurd hp (by rw [not_mem_delete hr]; decide)
    | refers href hne hx hkey _ ih =>
      -- what it refers to is the one row with the key, and is gone
      rcases closed_delete t p c _ _ hr _ href with hnull | ⟨y, hy, hykey⟩
      · exact hne hnull
      · have hxy := hc.eq_of_key hx ((delete_sublist t p c _).subset hy) (hkey.trans hykey.symm)
          (hkey ▸ hne)
        exact ih (hxy ▸ hy)
  · rintro ⟨hr, hdep⟩
    -- the rows that do not depend on a deleted one refer to such rows only
    let D : τ → Set Row := fun u => {r | r ∈ c u ∧ ¬ Depends s c t p u r}
    have hclosed : s.Closed D := by
      rintro u r ⟨hr, hdep⟩ ref href
      by_cases hnull : r ref.1 = .null
      · exact .inl hnull
      · obtain ⟨x, hx, hkey⟩ := (hc.closed u r hr ref href).resolve_left hnull
        exact .inr ⟨x, ⟨hx, fun hxdep => hdep (.refers href hnull hx hkey hxdep)⟩, hkey⟩
    have hstay : ∀ r ∈ D t, p r = false := fun r hr =>
      Bool.eq_false_iff.2 fun hp => hr.2 (.deleted hp)
    exact (delete_greatest t p c).2 ⟨hclosed, fun _ _ hr => hr.1, hstay⟩ u ⟨hr, hdep⟩

/-- A DELETE no row of a table depends on leaves the table as it is. -/
theorem delete_eq_self {c : Contents τ} (hc : s.Valid c) {t u : τ} {p : Row → Bool}
    (hnd : (c u).Nodup) (h : ∀ r ∈ c u, ¬ Depends s c t p u r) : s.delete t p c u = c u := by
  have hsub : c u ⊆ s.delete t p c u := fun r hr => (mem_delete_iff hc).2 ⟨hr, h r hr⟩
  exact (delete_sublist t p c u).eq_of_length_le (hnd.length_le_of_subset hsub)

end Delete

end Schema

/-! ## Statements -/

/-- The statements that write to a table. -/
inductive Statement (τ : Type) where
  | insert (t : τ) (row : Row)
  | update (t : τ) (p : Row → Bool) (values : Row → List (String × Value))
  | delete (t : τ) (p : Row → Bool)

/-- The rows after an UPDATE. -/
def updateRows (p : Row → Bool) (values : Row → List (String × Value)) (rows : List Row) :
    List Row :=
  rows.map fun r => if p r then r.assign (values r) else r

theorem mem_updateRows {p : Row → Bool} {values : Row → List (String × Value)} {rows : List Row}
    {x : Row} : x ∈ updateRows p values rows ↔
      ∃ r ∈ rows, (p r = true ∧ x = r.assign (values r)) ∨ (p r = false ∧ x = r) := by
  unfold updateRows
  rw [List.mem_map]
  refine exists_congr fun r => and_congr_right fun _ => ?_
  cases p r <;> simp [eq_comm]

namespace Schema

variable {τ : Type} (s : Schema τ)

/-- The server lets the row into the table, as far as its columns and references go. -/
def Accepts (c : Contents τ) (t : τ) (r : Row) : Prop := s.Fits t r ∧ s.Resolves c.rows t r

instance (c : Contents τ) (t : τ) (r : Row) : Decidable (s.Accepts c t r) :=
  inferInstanceAs (Decidable (_ ∧ _))

/-- No row refers to the value of the key of `t`. -/
def Unreferenced (c : Contents τ) (t : τ) (key : Value) : Prop :=
  ∀ u ∈ s.tables, ∀ x ∈ c u, ∀ ref ∈ s.references u, ref.2 = t → x ref.1 = key → key = .null

instance [DecidableEq τ] (c : Contents τ) (t : τ) (key : Value) :
    Decidable (s.Unreferenced c t key) := inferInstanceAs (Decidable (∀ _ ∈ _, _))

/-- A key that an UPDATE leaves nobody with is a key that nobody refers to (`NO ACTION`). -/
def KeepsKey (c : Contents τ) (t : τ) (rows : List Row) (key : Value) : Prop :=
  (∃ y ∈ rows, y (s.key t) = key) ∨ s.Unreferenced c t key

instance [DecidableEq τ] (c : Contents τ) (t : τ) (rows : List Row) (key : Value) :
    Decidable (s.KeepsKey c t rows key) := inferInstanceAs (Decidable (_ ∨ _))

/-- What the server checks of a statement, on the rows it leaves.  That it compares keys while an
    UPDATE is at work, so that it may refuse to move them through each other, is left out. -/
def Checks (c : Contents τ) : Statement τ → Prop
  | .insert t row => s.Accepts c t row ∧ s.Distinct t (c t ++ [row])
  | .update t p values => (∀ r ∈ c t, p r = true → s.Accepts c t (r.assign (values r)) ∧
      s.KeepsKey c t (updateRows p values (c t)) (r (s.key t))) ∧
        s.Distinct t (updateRows p values (c t))
  | .delete _ _ => True

instance [DecidableEq τ] (c : Contents τ) : (st : Statement τ) → Decidable (s.Checks c st)
  | .insert t row =>
    inferInstanceAs (Decidable (s.Accepts c t row ∧ s.Distinct t (c t ++ [row])))
  | .update t p values => inferInstanceAs (Decidable ((∀ r ∈ c t, p r = true →
      s.Accepts c t (r.assign (values r)) ∧
        s.KeepsKey c t (updateRows p values (c t)) (r (s.key t))) ∧
          s.Distinct t (updateRows p values (c t))))
  | .delete _ _ => inferInstanceAs (Decidable True)

/-- The columns that are keys or references. -/
def keyColumns (t : τ) : List String :=
  (s.distinctBy t).flatten ++ (s.references t).map Prod.fst

variable {s} in
/-- **An UPDATE that leaves keys and references alone** is accepted if the new rows fit. -/
theorem checks_update_iff {c : Contents τ} (hc : s.Valid c) {t : τ} {p : Row → Bool}
    {values : Row → List (String × Value)}
    (hkeys : ∀ r ∈ c t, ∀ n ∈ (values r).map Prod.fst, n ∉ s.keyColumns t) :
    s.Checks c (.update t p values) ↔
      ∀ r ∈ c t, p r = true → s.Fits t (r.assign (values r)) := by
  constructor
  · exact fun h r hr hp => (h.1 r hr hp).1.1
  · refine fun hfits => ⟨fun r hr hp => ⟨⟨hfits r hr hp, fun ref href => ?_⟩, .inl ?_⟩,
      fun columns hcols => ?_⟩
    · rw [Row.assign_of_not_mem fun hmem => hkeys r hr _ hmem
        (List.mem_append_right _ (List.mem_map_of_mem href))]
      exact hc.closed t r hr ref href
    · refine ⟨_, mem_updateRows.2 ⟨r, hr, .inl ⟨hp, rfl⟩⟩, Row.assign_of_not_mem fun hmem => ?_⟩
      exact hkeys r hr _ hmem (by simp [keyColumns, distinctBy])
    · have hsame : (updateRows p values (c t)).filterMap (keyOf columns) =
          (c t).filterMap (keyOf columns) := by
        rw [updateRows, List.filterMap_map]
        refine List.filterMap_congr fun r hr => ?_
        rw [Function.comp_apply]
        split
        · refine keyOf_assign fun n hn hcol => hkeys r hr n hn ?_
          exact List.mem_append_left _ (List.mem_flatten.2 ⟨columns, hcols, hcol⟩)
        · rfl
      rw [hsame]
      exact hc.distinct t columns hcols

variable [DecidableEq τ]

def apply (c : Contents τ) : Statement τ → Contents τ
  | .insert t row => Function.update c t (c t ++ [row])
  | .update t p values => Function.update c t (updateRows p values (c t))
  | .delete t p => s.delete t p c

/-- The contents after a statement, unless the server refuses it. -/
def execute (c : Contents τ) (st : Statement τ) : Option (Contents τ) :=
  if s.Checks c st then some (s.apply c st) else none

variable {s}

theorem execute_eq_some_iff {c c' : Contents τ} {st : Statement τ} :
    s.execute c st = some c' ↔ s.Checks c st ∧ s.apply c st = c' := by
  simp [execute]

/-- What holds of the rows of one table after and of the others as before holds of all. -/
theorem forall_update {P : τ → List Row → Prop} {c : Contents τ} {t : τ} {rows : List Row}
    (hother : ∀ u, P u (c u)) (ht : P t rows) : ∀ u, P u (Function.update c t rows u) := by
  intro u
  by_cases h : u = t
  · subst h
    rwa [Function.update_self]
  · rw [Function.update_of_ne h]
    exact hother u

section Rows

variable {P : τ → Row → Prop} {c : Contents τ} (hc : ∀ u, ∀ r ∈ c u, P u r)

include hc

theorem forall_insert {t : τ} {row : Row} (h : P t row) :
    ∀ u, ∀ r ∈ s.apply c (.insert t row) u, P u r := by
  refine forall_update (P := fun u rows => ∀ r ∈ rows, P u r) hc fun r hr => ?_
  rcases List.mem_append.1 hr with hr | hr
  · exact hc t r hr
  · rwa [List.mem_singleton.1 hr]

theorem forall_assign {t : τ} {p : Row → Bool} {values : Row → List (String × Value)}
    (h : ∀ r ∈ c t, p r = true → P t (r.assign (values r))) :
    ∀ u, ∀ r ∈ s.apply c (.update t p values) u, P u r := by
  refine forall_update (P := fun u rows => ∀ r ∈ rows, P u r) hc fun x hx => ?_
  obtain ⟨r, hr, ⟨hp, rfl⟩ | ⟨-, rfl⟩⟩ := mem_updateRows.1 hx
  · exact h r hr hp
  · exact hc t x hr

theorem forall_delete {t : τ} {p : Row → Bool} :
    ∀ u, ∀ r ∈ s.apply c (.delete t p) u, P u r :=
  fun u r hr => hc u r ((delete_sublist t p c u).subset hr)

end Rows

theorem Valid.insert {c : Contents τ} (hc : s.Valid c) {t : τ} {row : Row}
    (h : s.Checks c (.insert t row)) : s.Valid (s.apply c (.insert t row)) := by
  obtain ⟨⟨hfits, hres⟩, hdist⟩ := h
  have hle : c.rows ≤ (s.apply c (.insert t row)).rows :=
    forall_update (P := fun u rows => c.rows u ⊆ {r | r ∈ rows}) (fun u r hr => hr)
      fun r hr => List.mem_append_left _ hr
  exact ⟨forall_insert hc.fits hfits,
    forall_insert (P := s.Resolves _) (fun u r hr => (hc.closed u r hr).mono hle) (hres.mono hle),
    forall_update (P := s.Distinct) hc.distinct hdist⟩

/-- A row whose references go to other tables than the one that is replaced. -/
theorem Resolves.of_other {c : Contents τ} {t u : τ} {rows : List Row} {r : Row}
    (h : s.Resolves c.rows u r) (hother : ∀ ref ∈ s.references u, ref.2 ≠ t) :
    s.Resolves (Contents.rows (Function.update c t rows)) u r := by
  intro ref href
  rcases h ref href with hnull | ⟨x, hx, hkey⟩
  · exact .inl hnull
  · refine .inr ⟨x, ?_, hkey⟩
    show x ∈ Function.update c t rows ref.2
    rwa [Function.update_of_ne (hother ref href)]

/-- Rows of the other tables find what they refer to, if no key they refer to is given up. -/
theorem Resolves.of_keepsKey {c : Contents τ} {t u : τ} {rows : List Row} {r : Row}
    (h : s.Resolves c.rows u r) (hkeys : ∀ x ∈ c t, s.KeepsKey c t rows (x (s.key t)))
    (hr : r ∈ c u) : s.Resolves (Contents.rows (Function.update c t rows)) u r := by
  intro ref href
  by_cases hnull : r ref.1 = .null
  · exact .inl hnull
  · obtain ⟨x, hx, hkey⟩ := (h ref href).resolve_left hnull
    right
    by_cases ht : ref.2 = t
    · subst ht
      rcases hkeys x hx with ⟨y, hy, hykey⟩ | hfree
      · refine ⟨y, ?_, hykey.trans hkey⟩
        show y ∈ Function.update c ref.2 rows ref.2
        rwa [Function.update_self]
      · have hgone := hfree u (s.mem_tables u) r hr ref href rfl hkey.symm
        exact absurd (hkey.symm.trans hgone) hnull
    · refine ⟨x, ?_, hkey⟩
      show x ∈ Function.update c t rows ref.2
      rwa [Function.update_of_ne ht]

theorem Valid.update {c : Contents τ} (hc : s.Valid c) {t : τ} {p : Row → Bool}
    {values : Row → List (String × Value)} (h : s.Checks c (.update t p values)) :
    s.Valid (s.apply c (.update t p values)) := by
  obtain ⟨hrows, hdist⟩ := h
  have hresolves : ∀ u, ∀ r ∈ s.apply c (.update t p values) u, s.Resolves c.rows u r :=
    forall_assign hc.closed fun r hr hp => (hrows r hr hp).1.2
  refine ⟨forall_assign hc.fits fun r hr hp => (hrows r hr hp).1.1, fun u r hr => ?_,
    forall_update (P := s.Distinct) hc.distinct hdist⟩
  by_cases hu : u = t
  · -- the updated table refers to others
    subst hu
    exact (hresolves u r hr).of_other fun ref href hsame => by
      have hlt := s.rank_lt u ref href
      rw [hsame] at hlt
      exact absurd hlt (Nat.lt_irrefl _)
  · refine (hresolves u r hr).of_keepsKey (fun x hx => ?_) ?_
    · cases hp : p x with
      | true => exact (hrows x hx hp).2
      | false => exact .inl ⟨x, mem_updateRows.2 ⟨x, hx, .inr ⟨hp, rfl⟩⟩, rfl⟩
    · have hmem : r ∈ Function.update c t (updateRows p values (c t)) u := hr
      rwa [Function.update_of_ne hu] at hmem

theorem Valid.delete {c : Contents τ} (hc : s.Valid c) (t : τ) (p : Row → Bool) :
    s.Valid (s.delete t p c) :=
  ⟨fun u r hr => hc.fits u r ((delete_sublist t p c u).subset hr), closed_delete t p c,
    fun u columns hcols => (hc.distinct u columns hcols).sublist
      ((delete_sublist t p c u).filterMap _)⟩

/-- **The statements keep all constraints.** -/
theorem execute_valid {c c' : Contents τ} {st : Statement τ} (hc : s.Valid c)
    (h : s.execute c st = some c') : s.Valid c' := by
  obtain ⟨hchecks, rfl⟩ := execute_eq_some_iff.1 h
  cases st with
  | insert t row => exact hc.insert hchecks
  | update t p values => exact hc.update hchecks
  | delete t p => exact hc.delete t p

end Schema

end Sql

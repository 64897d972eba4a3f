import RBackup2.Lib.Calendar
import RBackup2.Lib.Text
import Mathlib.Order.Bounds.Basic

/-!
# Cron expressions

The syntax of cron fields, and what a field list means in a dialect: dialects differ in how they
number the days of the week, in how the two day fields combine and in whether steps are limited.

* `Expr`, `parseFive`, `parseSix` — five fields, and five behind a field of seconds;
* `Dialect.Matches` — the instants an expression matches;
* `Dialect.matches_moment` — a moment matches by its own fields;
* `Dialect.occurs_later_iff` — an expression that has a day at all runs again and again;
* `Field.selects_weekdays` — a field without day numbers means the same under both numberings of
  the days of the week;
* `Field.selects_weekdays_iff` — a field of day numbers does only if it selects the whole week;
* `FieldSyntax` — texts of six or seven fields, in a syntax that may know more than a crontab's;
* `FieldSyntax.Extends.runs_iff` — behind a zero, a text runs exactly if its fields are taken and
  name a date.
-/

set_option autoImplicit false

namespace Cron

open Calendar

/-! ## Syntax -/

/-- `*`, or numbers or names from one to another. -/
inductive Base where
  | star
  | numbers (lo hi : Nat)
  | names (lo hi : Nat)
  deriving DecidableEq, Repr

structure Item where
  base : Base
  step : Nat
  step_pos : 0 < step
  deriving DecidableEq, Repr

/-- A list of items, which is not empty. -/
structure Field where
  first : Item
  rest : List Item
  deriving DecidableEq, Repr

structure Expr where
  minute : Field
  hour : Field
  dayOfMonth : Field
  month : Field
  dayOfWeek : Field
  deriving DecidableEq, Repr

def Field.items (f : Field) : List Item := f.first :: f.rest

/-- The field starts with `*`. -/
def Field.starred (f : Field) : Bool := f.first.base == .star

/-- The field `0`. -/
def Field.zero : Field := ⟨⟨.numbers 0 0, 1, Nat.one_pos⟩, []⟩

def monthNames : List String :=
  ["jan", "feb", "mar", "apr", "may", "jun", "jul", "aug", "sep", "oct", "nov", "dec"]

def weekdayNames : List String := ["sun", "mon", "tue", "wed", "thu", "fri", "sat"]

def isBlank (c : Char) : Bool := c == ' ' || c == '\t' || c == '\n' || c == '\r'

def parseNumber (w : List Char) : Option Nat :=
  if w ≠ [] ∧ w.all Char.isDigit = true then
    some (w.foldl (fun n c => 10 * n + (c.toNat - 48)) 0)
  else none

/-- The position of a name in its list, in whatever case it is written. -/
def parseName (names : List String) (w : List Char) : Option Nat :=
  names.findIdx? (fun n => n.toList == w.map Char.toLower)

def parseBase (names : List String) (w : List Char) : Option Base :=
  if w = ['*'] then some .star
  else
    match w.splitOn '-' with
    | [p] =>
      match parseNumber p, parseName names p with
      | some n, _ => some (.numbers n n)
      | none, some i => some (.names i i)
      | none, none => none
    | [p, q] =>
      match parseNumber p, parseNumber q, parseName names p, parseName names q with
      | some lo, some hi, _, _ => some (.numbers lo hi)
      | _, _, some lo, some hi => some (.names lo hi)
      | _, _, _, _ => none
    | _ => none

/-- An item; only `*` and a range take a step. -/
def parseItem (names : List String) (w : List Char) : Option Item :=
  match w.splitOn '/' with
  | [b] => (parseBase names b).map (fun base => ⟨base, 1, Nat.one_pos⟩)
  | [b, n] =>
    match parseBase names b, parseNumber n with
    | some base, some step =>
      if h : 0 < step ∧ (b = ['*'] ∨ '-' ∈ b) then some ⟨base, step, h.1⟩ else none
    | _, _ => none
  | _ => none

def parseField (names : List String) (w : List Char) : Option Field :=
  match w.splitOn ',' with
  | [] => none
  | i :: rest =>
    match parseItem names i, rest.mapM (parseItem names) with
    | some first, some rest => some ⟨first, rest⟩
    | _, _ => none

def parseFields : List (List Char) → Option Expr
  | [m, h, d, mo, w] => do
    let minute ← parseField [] m
    let hour ← parseField [] h
    let dayOfMonth ← parseField [] d
    let month ← parseField monthNames mo
    let dayOfWeek ← parseField weekdayNames w
    some ⟨minute, hour, dayOfMonth, month, dayOfWeek⟩
  | _ => none

/-- Minute, hour, day of month, month, day of week. -/
def parseFive (s : String) : Option Expr := parseFields (Text.words isBlank s.toList)

/-- The same behind a field of seconds. -/
def parseSix (s : String) : Option (Field × Expr) :=
  match Text.words isBlank s.toList with
  | [] => none
  | second :: fields => do
    let sec ← parseField [] second
    let x ← parseFields fields
    some (sec, x)

theorem words_zero (s : String) :
    Text.words isBlank ("0 " ++ s).toList = ['0'] :: Text.words isBlank s.toList := by
  have hzero : ∀ c ∈ ['0'], isBlank c = false := by
    intro c hc
    rw [List.mem_singleton.1 hc]
    rfl
  rw [String.toList_append]
  exact Text.words_cons_word hzero (by simp) (c := ' ') rfl s.toList

theorem parseField_zero : parseField [] ['0'] = some .zero := by decide

/-- A zero in front of a five-field expression is its field of seconds. -/
theorem parseSix_zero {s : String} {x : Expr} (h : parseFive s = some x) :
    parseSix ("0 " ++ s) = some (.zero, x) := by
  unfold parseFive at h
  unfold parseSix
  rw [words_zero]
  simp only [parseField_zero, h]
  rfl

/-! ## Numbers -/

/-- How a field is numbered, and what its numbers stand for. -/
structure Numbering where
  first : Nat
  last : Nat
  /-- The number of the first name, and how many names there are. -/
  nameFirst : Nat
  nameCount : Nat
  value : Nat → Nat

def Numbering.minutes : Numbering := ⟨0, 59, 0, 0, id⟩

def Numbering.hours : Numbering := ⟨0, 23, 0, 0, id⟩

def Numbering.daysOfMonth : Numbering := ⟨1, 31, 0, 0, id⟩

def Numbering.months : Numbering := ⟨1, 12, 1, 12, id⟩

/-- Days of the week from 0 for Sunday to 6 for Saturday, and 7 for Sunday again. -/
def Numbering.weekdaysFromZero : Numbering := ⟨0, 7, 0, 7, (· % 7)⟩

/-- Days of the week from 1 for Sunday to 7 for Saturday. -/
def Numbering.weekdaysFromOne : Numbering := ⟨1, 7, 1, 7, (· - 1)⟩

def Base.lo (n : Numbering) : Base → Nat
  | .star => n.first
  | .numbers lo _ => lo
  | .names lo _ => n.nameFirst + lo

def Base.hi (n : Numbering) : Base → Nat
  | .star => n.last
  | .numbers _ hi => hi
  | .names _ hi => n.nameFirst + hi

/-- The numbers of an item, up from the first by steps. -/
def Item.numbers (n : Numbering) (i : Item) : List Nat :=
  List.range' (i.base.lo n) ((i.base.hi n - i.base.lo n) / i.step + 1) i.step

def Item.inRange (n : Numbering) (i : Item) : Bool :=
  decide (n.first ≤ i.base.lo n ∧ i.base.lo n ≤ i.base.hi n ∧ i.base.hi n ≤ n.last) &&
    match i.base with
    | .names _ hi => decide (hi < n.nameCount)
    | _ => true

def Field.inRange (n : Numbering) (f : Field) : Bool := f.items.all (Item.inRange n)

/-- No step goes beyond the last number of the field. -/
def Field.shortSteps (n : Numbering) (f : Field) : Bool :=
  f.items.all fun i => decide (i.step ≤ n.last)

def Field.selects (n : Numbering) (f : Field) (v : Nat) : Bool :=
  f.items.any (fun i => (i.numbers n).any (fun k => n.value k == v))

theorem Field.selects_iff {n : Numbering} {f : Field} {v : Nat} :
    f.selects n v = true ↔ ∃ i ∈ f.items, ∃ k ∈ i.numbers n, n.value k = v := by
  simp [Field.selects]

theorem Item.inRange_iff {n : Numbering} {i : Item} (h : i.inRange n = true) :
    n.first ≤ i.base.lo n ∧ i.base.lo n ≤ i.base.hi n ∧ i.base.hi n ≤ n.last := by
  unfold Item.inRange at h
  rw [Bool.and_eq_true, decide_eq_true_iff] at h
  exact h.1

theorem Item.mem_numbers {n : Numbering} {i : Item} (h : i.base.lo n ≤ i.base.hi n) {k : Nat} :
    k ∈ i.numbers n ↔ ∃ j, k = i.base.lo n + i.step * j ∧ k ≤ i.base.hi n := by
  unfold Item.numbers
  rw [List.mem_range']
  constructor
  · rintro ⟨j, hj, rfl⟩
    refine ⟨j, rfl, ?_⟩
    have hle : i.step * j ≤ i.base.hi n - i.base.lo n := by
      rw [Nat.mul_comm]
      exact (Nat.le_div_iff_mul_le i.step_pos).1 (Nat.lt_succ_iff.1 hj)
    omega
  · rintro ⟨j, rfl, hk⟩
    refine ⟨j, Nat.lt_succ_iff.2 ((Nat.le_div_iff_mul_le i.step_pos).2 ?_), rfl⟩
    rw [Nat.mul_comm]
    omega

/-- Every field selects something. -/
theorem Field.exists_selects {n : Numbering} {f : Field} (hf : f.inRange n = true) :
    ∃ k, n.first ≤ k ∧ k ≤ n.last ∧ f.selects n (n.value k) = true := by
  have hmem : f.first ∈ f.items := List.mem_cons_self
  have hin := Item.inRange_iff (List.all_eq_true.1 hf _ hmem)
  have hlo : f.first.base.lo n ∈ f.first.numbers n :=
    (Item.mem_numbers hin.2.1).2 ⟨0, by omega, hin.2.1⟩
  exact ⟨_, hin.1, by omega, Field.selects_iff.2 ⟨_, hmem, _, hlo, rfl⟩⟩

/-! ## Dialects -/

/-- How the two day fields combine. -/
inductive DayRule where
  /-- A day has to match both. -/
  | both
  /-- A day has to match one of them, unless one starts with `*`. -/
  | either
  deriving DecidableEq, Repr

structure Dialect where
  weekdays : Numbering
  dayRule : DayRule
  /-- A step beyond the last number of its field is refused. -/
  limitsSteps : Bool

/-- A field is taken if its numbers are in range, and its steps where they are limited. -/
def Dialect.takes (d : Dialect) (n : Numbering) (f : Field) : Bool :=
  f.inRange n && (!d.limitsSteps || f.shortSteps n)

def Dialect.inRange (d : Dialect) (x : Expr) : Bool :=
  d.takes .minutes x.minute && d.takes .hours x.hour && d.takes .daysOfMonth x.dayOfMonth &&
    d.takes .months x.month && d.takes d.weekdays x.dayOfWeek

theorem Dialect.takes_zero (d : Dialect) : d.takes .minutes .zero = true := by
  unfold Dialect.takes
  cases d.limitsSteps <;> decide

theorem Dialect.inRange_of_takes {d : Dialect} {n : Numbering} {f : Field}
    (h : d.takes n f = true) : f.inRange n = true :=
  (Bool.and_eq_true_iff.1 h).1

def Dialect.matchesDay (d : Dialect) (x : Expr) (month day weekday : Nat) : Bool :=
  x.month.selects .months month &&
    match d.dayRule with
    | .both =>
      x.dayOfMonth.selects .daysOfMonth day && x.dayOfWeek.selects d.weekdays weekday
    | .either =>
      if x.dayOfMonth.starred || x.dayOfWeek.starred then
        x.dayOfMonth.selects .daysOfMonth day && x.dayOfWeek.selects d.weekdays weekday
      else x.dayOfMonth.selects .daysOfMonth day || x.dayOfWeek.selects d.weekdays weekday

/-- What a moment has to meet. -/
def Dialect.matchesMoment (d : Dialect) (second : Field) (x : Expr) (t : Moment) : Bool :=
  second.selects .minutes t.second && x.minute.selects .minutes t.minute &&
    x.hour.selects .hours t.hour && d.matchesDay x t.date.month t.date.day t.date.weekday

/-- The instants an expression with a field of seconds matches. -/
def Dialect.Matches (d : Dialect) (second : Field) (x : Expr) (u : Int) : Prop :=
  ∃ t : Moment, t.instant = u ∧ d.matchesMoment second x t = true

theorem Dialect.matches_moment {d : Dialect} {second : Field} {x : Expr} {t : Moment} :
    d.Matches second x t.instant ↔ d.matchesMoment second x t = true := by
  constructor
  · rintro ⟨t', heq, h⟩
    rw [← Moment.instant_injective heq]
    exact h
  · exact fun h => ⟨t, rfl, h⟩

/-- A day that matches has an instant that matches. -/
theorem Dialect.exists_moment {d : Dialect} {x : Expr} (hx : d.inRange x = true) (date : Date) :
    ∃ t : Moment, t.date = date ∧ ∀ d' : Dialect, d'.matchesMoment .zero x t =
      d'.matchesDay x date.month date.day date.weekday := by
  unfold Dialect.inRange at hx
  simp only [Bool.and_eq_true] at hx
  obtain ⟨⟨⟨⟨hm, hh⟩, -⟩, -⟩, -⟩ := hx
  obtain ⟨minute, -, hmlt, hmsel⟩ := Field.exists_selects (Dialect.inRange_of_takes hm)
  obtain ⟨hour, -, hhlt, hhsel⟩ := Field.exists_selects (Dialect.inRange_of_takes hh)
  refine ⟨⟨date, hour, minute, 0, Nat.lt_succ_of_le hhlt, Nat.lt_succ_of_le hmlt, by decide⟩, rfl,
    fun d' => ?_⟩
  have hsec : Field.zero.selects .minutes 0 = true := by decide
  unfold Dialect.matchesMoment
  rw [hsec, show x.minute.selects .minutes minute = true from hmsel,
    show x.hour.selects .hours hour = true from hhsel]
  rfl

/-- Some day of the year and of the week is one of the expression's. -/
def Dialect.HasDay (d : Dialect) (x : Expr) : Prop :=
  ∃ month day weekday, 1 ≤ month ∧ month ≤ 12 ∧ 1 ≤ day ∧ day ≤ monthLength true month ∧
    weekday < 7 ∧ d.matchesDay x month day weekday = true

theorem Dialect.matchesMoment_cycles (d : Dialect) (second : Field) (x : Expr) (t : Moment)
    (n : Nat) : d.matchesMoment second x (t.cycles n) = d.matchesMoment second x t := by
  unfold Dialect.matchesMoment Moment.cycles
  simp only [Date.weekday_cycles]
  rfl

/-- **An expression runs again** after any instant exactly if it has a day. -/
theorem Dialect.occurs_later_iff {d d' : Dialect} {x : Expr} (hx : d'.inRange x = true)
    (now : Int) : (∃ u, now < u ∧ d.Matches .zero x u) ↔ d.HasDay x := by
  constructor
  · rintro ⟨u, -, t, -, ht⟩
    have hlen := Nat.le_trans t.date.day_le (monthLength_le_leap _ _)
    unfold Dialect.matchesMoment at ht
    rw [Bool.and_eq_true] at ht
    exact ⟨_, _, _, t.date.month_pos, t.date.month_le, t.date.day_pos, hlen, t.date.weekday_lt,
      ht.2⟩
  · rintro ⟨month, day, weekday, hm, hm', hd, hd', hw, hday⟩
    obtain ⟨date, -, rfl, rfl, rfl⟩ := exists_date hm hm' hd hd' hw
    obtain ⟨t, rfl, ht⟩ := Dialect.exists_moment hx date
    obtain ⟨n, hn⟩ := t.exists_later now
    refine ⟨_, hn, Dialect.matches_moment.2 ?_⟩
    rw [Dialect.matchesMoment_cycles, ht, hday]

/-- An instant is the least one later than the instant before it. -/
theorem isLeast_pred_iff (P : Int → Prop) (u : Int) : IsLeast {v | u - 1 < v ∧ P v} u ↔ P u := by
  refine ⟨fun hu => hu.1.2, fun hu => ⟨⟨by omega, hu⟩, fun v hv => ?_⟩⟩
  have hlt : u - 1 < v := hv.1
  omega

/-! ## The two numberings of the days of the week -/

def Base.isNumbers : Base → Bool
  | .numbers _ _ => true
  | _ => false

theorem Item.selects_weekdays {i : Item} (h : i.base.isNumbers = false)
    (hin : i.inRange .weekdaysFromZero = true) :
    i.inRange .weekdaysFromOne = true ∧ ∀ w,
      ((∃ k ∈ i.numbers .weekdaysFromZero, k % 7 = w) ↔
        ∃ k ∈ i.numbers .weekdaysFromOne, k - 1 = w) := by
  have hzero := Item.inRange_iff hin
  obtain ⟨base, step, hpos⟩ := i
  cases base with
  | numbers lo hi => cases h
  | star =>
    refine ⟨rfl, fun w => ?_⟩
    have hmem : ∀ k, k ∈ (Item.mk .star step hpos).numbers .weekdaysFromZero ↔
        ∃ j, k = 0 + step * j ∧ k ≤ 7 := fun k =>
      Item.mem_numbers (n := .weekdaysFromZero) (i := ⟨.star, step, hpos⟩) (Nat.zero_le 7)
    have hmem' : ∀ k, k ∈ (Item.mk .star step hpos).numbers .weekdaysFromOne ↔
        ∃ j, k = 1 + step * j ∧ k ≤ 7 := fun k =>
      Item.mem_numbers (n := .weekdaysFromOne) (i := ⟨.star, step, hpos⟩) (show 1 ≤ 7 by omega)
    constructor
    · rintro ⟨k, hk, hw⟩
      obtain ⟨j, hkj, hk7⟩ := (hmem k).1 hk
      by_cases hlast : k = 7
      · exact ⟨1, (hmem' 1).2 ⟨0, by omega, by omega⟩, by omega⟩
      · exact ⟨k + 1, (hmem' _).2 ⟨j, by omega, by omega⟩, by omega⟩
    · rintro ⟨k, hk, hw⟩
      obtain ⟨j, hkj, hk7⟩ := (hmem' k).1 hk
      exact ⟨k - 1, (hmem _).2 ⟨j, by omega, by omega⟩, by omega⟩
  | names lo hi =>
    have hcount : hi < 7 := by
      unfold Item.inRange at hin
      exact of_decide_eq_true (Bool.and_eq_true_iff.1 hin).2
    simp only [Base.lo, Base.hi, Numbering.weekdaysFromZero] at hzero
    have hmem : ∀ k, k ∈ (Item.mk (.names lo hi) step hpos).numbers .weekdaysFromZero ↔
        ∃ j, k = 0 + lo + step * j ∧ k ≤ 0 + hi := fun k =>
      Item.mem_numbers (n := .weekdaysFromZero) (i := ⟨.names lo hi, step, hpos⟩) hzero.2.1
    have hmem' : ∀ k, k ∈ (Item.mk (.names lo hi) step hpos).numbers .weekdaysFromOne ↔
        ∃ j, k = 1 + lo + step * j ∧ k ≤ 1 + hi :=
      fun k => Item.mem_numbers (n := .weekdaysFromOne) (i := ⟨.names lo hi, step, hpos⟩)
        (show 1 + lo ≤ 1 + hi by omega)
    refine ⟨?_, fun w => ⟨?_, ?_⟩⟩
    · unfold Item.inRange
      refine Bool.and_eq_true_iff.2 ⟨decide_eq_true ?_, decide_eq_true hcount⟩
      simp only [Base.lo, Base.hi, Numbering.weekdaysFromOne]
      omega
    · rintro ⟨k, hk, hw⟩
      obtain ⟨j, hkj, hkhi⟩ := (hmem k).1 hk
      exact ⟨k + 1, (hmem' _).2 ⟨j, by omega, by omega⟩, by omega⟩
    · rintro ⟨k, hk, hw⟩
      obtain ⟨j, hkj, hkhi⟩ := (hmem' k).1 hk
      exact ⟨k - 1, (hmem _).2 ⟨j, by omega, by omega⟩, by omega⟩

/-- **Without day numbers** a field means the same under both numberings. -/
theorem Field.selects_weekdays {f : Field} (h : ∀ i ∈ f.items, i.base.isNumbers = false)
    (hf : f.inRange .weekdaysFromZero = true) :
    f.inRange .weekdaysFromOne = true ∧
      ∀ w, f.selects .weekdaysFromZero w = f.selects .weekdaysFromOne w := by
  have hitems := fun i hi => Item.selects_weekdays (h i hi) (List.all_eq_true.1 hf i hi)
  refine ⟨List.all_eq_true.2 fun i hi => (hitems i hi).1, fun w => ?_⟩
  rw [Bool.eq_iff_iff, Field.selects_iff, Field.selects_iff]
  constructor
  · rintro ⟨i, hi, hk⟩
    exact ⟨i, hi, ((hitems i hi).2 w).1 hk⟩
  · rintro ⟨i, hi, hk⟩
    exact ⟨i, hi, ((hitems i hi).2 w).2 hk⟩

/-- A day number is one day earlier in the numbering from one. -/
theorem Field.selects_shift {f : Field} (h : ∀ i ∈ f.items, i.base.isNumbers = true)
    (hf : f.inRange .weekdaysFromOne = true) {w : Nat} (hw : w < 7) :
    f.selects .weekdaysFromOne w = f.selects .weekdaysFromZero ((w + 1) % 7) := by
  have hitems : ∀ i ∈ f.items, i.numbers .weekdaysFromOne = i.numbers .weekdaysFromZero ∧
      ∀ k ∈ i.numbers .weekdaysFromOne, (k - 1 = w ↔ k % 7 = (w + 1) % 7) := by
    intro i hi
    have hin := Item.inRange_iff (List.all_eq_true.1 hf i hi)
    have hbase := h i hi
    refine ⟨?_, fun k hk => ?_⟩
    · unfold Item.numbers
      cases hb : i.base with
      | numbers lo hi => rfl
      | star => rw [hb] at hbase; cases hbase
      | names lo hi => rw [hb] at hbase; cases hbase
    · obtain ⟨j, hkj, hhi⟩ := (Item.mem_numbers hin.2.1).1 hk
      simp only [Numbering.weekdaysFromOne] at hin hkj hhi
      omega
  rw [Bool.eq_iff_iff, Field.selects_iff, Field.selects_iff]
  constructor
  · rintro ⟨i, hi, k, hk, hkw⟩
    obtain ⟨heq, hval⟩ := hitems i hi
    exact ⟨i, hi, k, heq ▸ hk, (hval k hk).1 hkw⟩
  · rintro ⟨i, hi, k, hk, hkw⟩
    obtain ⟨heq, hval⟩ := hitems i hi
    exact ⟨i, hi, k, heq ▸ hk, (hval k (heq ▸ hk)).2 hkw⟩

example : (parseField weekdayNames "1,3,5".toList).map (fun f =>
    ((List.range 7).filter (f.selects .weekdaysFromZero),
      (List.range 7).filter (f.selects .weekdaysFromOne))) = some ([1, 3, 5], [0, 2, 4]) := by
  decide

/-- **A field of day numbers** means the same under both numberings only if it selects the whole
    week: shifting it by a day must not change it. -/
theorem Field.selects_weekdays_iff {f : Field} (h : ∀ i ∈ f.items, i.base.isNumbers = true)
    (hone : f.inRange .weekdaysFromOne = true) (hzero : f.inRange .weekdaysFromZero = true) :
    (∀ w < 7, f.selects .weekdaysFromZero w = f.selects .weekdaysFromOne w) ↔
      ∀ w < 7, f.selects .weekdaysFromZero w = true := by
  constructor
  · intro hsame
    have hshift : ∀ w < 7, f.selects .weekdaysFromZero w =
        f.selects .weekdaysFromZero ((w + 1) % 7) := fun w hw =>
      (hsame w hw).trans (Field.selects_shift h hone hw)
    obtain ⟨k, -, -, hk⟩ := Field.exists_selects hzero
    -- from the selected day on, every later day of the week is selected
    have hall : ∀ j, f.selects .weekdaysFromZero ((k + j) % 7) = true := by
      intro j
      induction j with
      | zero => exact hk
      | succ j ih =>
        have hstep := hshift ((k + j) % 7) (Nat.mod_lt _ (by omega))
        rw [show ((k + j) % 7 + 1) % 7 = (k + (j + 1)) % 7 by omega] at hstep
        rw [← hstep]
        exact ih
    intro w hw
    have hday := hall (w + 6 * k)
    rw [show (k + (w + 6 * k)) % 7 = w by omega] at hday
    exact hday
  · intro hall w hw
    rw [hall w hw, Field.selects_shift h hone hw, hall _ (Nat.mod_lt _ (by omega))]

/-! ## Texts of six or seven fields -/

/-- The fields in the order they are written, the last of which may be missing. -/
inductive Part where
  | second
  | minute
  | hour
  | dayOfMonth
  | month
  | dayOfWeek
  | year
  deriving DecidableEq, Repr

def parts : List Part := [.second, .minute, .hour, .dayOfMonth, .month, .dayOfWeek, .year]

def Part.names : Part → List String
  | .month => monthNames
  | .dayOfWeek => weekdayNames
  | _ => []

/-- The years an implementation knows. -/
def Numbering.years : Numbering := ⟨1970, 2100, 0, 0, id⟩

def Part.numbering (weekdays : Numbering) : Part → Numbering
  | .second => .minutes
  | .minute => .minutes
  | .hour => .hours
  | .dayOfMonth => .daysOfMonth
  | .month => .months
  | .dayOfWeek => weekdays
  | .year => .years

def Part.value (t : Moment) : Part → Int
  | .second => t.second
  | .minute => t.minute
  | .hour => t.hour
  | .dayOfMonth => t.date.day
  | .month => t.date.month
  | .dayOfWeek => t.date.weekday
  | .year => t.date.year

/-- How an implementation reads the fields: which texts it accepts, and the values they select. -/
structure FieldSyntax where
  accepts : Part → List Char → Bool
  selects : Part → List Char → Int → Bool

/-- The fields of a text; there are six of them, or seven. -/
def FieldSyntax.Accepts (syn : FieldSyntax) (text : String) : Prop :=
  ((Text.words isBlank text.toList).length = 6 ∨ (Text.words isBlank text.toList).length = 7) ∧
    ∀ p ∈ parts.zip (Text.words isBlank text.toList), syn.accepts p.1 p.2 = true

instance (syn : FieldSyntax) (text : String) : Decidable (syn.Accepts text) :=
  inferInstanceAs (Decidable (_ ∧ _))

/-- The instants at which an accepted text runs. -/
def FieldSyntax.RunsAt (syn : FieldSyntax) (text : String) (u : Int) : Prop :=
  syn.Accepts text ∧ ∃ t : Moment, t.instant = u ∧
    ∀ p ∈ parts.zip (Text.words isBlank text.toList), syn.selects p.1 p.2 (p.1.value t) = true

/-- The words from the minutes on, each with its field. -/
def fieldsFromMinutes (e : String) : List (Part × List Char) :=
  parts.tail.zip (Text.words isBlank e.toList)

/-- Five fields, or six with a year, that are all taken behind a field of seconds. -/
def FieldSyntax.TakesRest (syn : FieldSyntax) (e : String) : Prop :=
  ((Text.words isBlank e.toList).length = 5 ∨ (Text.words isBlank e.toList).length = 6) ∧
    ∀ p ∈ fieldsFromMinutes e, syn.accepts p.1 p.2 = true

/-- What a field asks of a date. -/
def Part.ofDate (date : Date) : Part → Option Int
  | .dayOfMonth => some date.day
  | .month => some date.month
  | .dayOfWeek => some date.weekday
  | .year => some date.year
  | _ => none

/-- The date has the day, the month, the weekday and the year of the fields. -/
def FieldSyntax.Names (syn : FieldSyntax) (e : String) (date : Date) : Prop :=
  ∀ p ∈ fieldsFromMinutes e, ∀ v, p.1.ofDate date = some v → syn.selects p.1 p.2 v = true

/-- A field with the syntax of a crontab means what it means there, up to the numbering of the
    days of the week and the limit of the steps; there may be other fields.  Whatever is accepted
    selects a number of its field and nothing but such numbers. -/
structure FieldSyntax.Extends (syn : FieldSyntax) (d : Dialect) : Prop where
  accepts : ∀ (part : Part) (w : List Char) (f : Field), parseField part.names w = some f →
    syn.accepts part w = d.takes (part.numbering d.weekdays) f
  selects : ∀ (part : Part) (w : List Char) (f : Field), parseField part.names w = some f →
    syn.accepts part w = true →
      ∀ v : Nat, syn.selects part w v = f.selects (part.numbering d.weekdays) v
  nonempty : ∀ (part : Part) (w : List Char), syn.accepts part w = true →
    ∃ k : Nat, (part.numbering d.weekdays).first ≤ k ∧ k ≤ (part.numbering d.weekdays).last ∧
      syn.selects part w ((part.numbering d.weekdays).value k) = true
  within : ∀ (part : Part) (w : List Char) (v : Int), syn.accepts part w = true →
    syn.selects part w v = true →
      ∃ k : Nat, (part.numbering d.weekdays).first ≤ k ∧ k ≤ (part.numbering d.weekdays).last ∧
        v = (part.numbering d.weekdays).value k

/-- No other fields than those of a crontab. -/
def FieldSyntax.plain (d : Dialect) : FieldSyntax where
  accepts := fun part w =>
    (parseField part.names w).any fun f => d.takes (part.numbering d.weekdays) f
  selects := fun part w v =>
    (parseField part.names w).any fun f =>
      decide (0 ≤ v) && f.selects (part.numbering d.weekdays) v.toNat

theorem FieldSyntax.plain_accepts {d : Dialect} {part : Part} {w : List Char}
    (h : (FieldSyntax.plain d).accepts part w = true) :
    ∃ f, parseField part.names w = some f ∧ d.takes (part.numbering d.weekdays) f = true := by
  cases hf : parseField part.names w with
  | none =>
    simp [FieldSyntax.plain, hf] at h
  | some f =>
    simp only [FieldSyntax.plain, hf, Option.any_some] at h
    exact ⟨f, rfl, h⟩

theorem FieldSyntax.plain_extends (d : Dialect) : (FieldSyntax.plain d).Extends d where
  accepts := by
    intro part w f hf
    simp only [FieldSyntax.plain, hf, Option.any_some]
  selects := by
    intro part w f hf _ v
    simp [FieldSyntax.plain, hf]
  nonempty := by
    intro part w hacc
    obtain ⟨f, hf, htakes⟩ := FieldSyntax.plain_accepts hacc
    obtain ⟨k, hfirst, hlast, hk⟩ := Field.exists_selects (Dialect.inRange_of_takes htakes)
    exact ⟨k, hfirst, hlast, by simp [FieldSyntax.plain, hf, hk]⟩
  within := by
    intro part w v hacc hsel
    obtain ⟨f, hf, htakes⟩ := FieldSyntax.plain_accepts hacc
    simp only [FieldSyntax.plain, hf, Option.any_some, Bool.and_eq_true, decide_eq_true_iff]
      at hsel
    obtain ⟨i, hi, k, hk, hvalue⟩ := Field.selects_iff.1 hsel.2
    have hin := Item.inRange_iff (List.all_eq_true.1 (Dialect.inRange_of_takes htakes) i hi)
    obtain ⟨j, hkj, hhi⟩ := (Item.mem_numbers hin.2.1).1 hk
    exact ⟨k, by omega, by omega, by omega⟩

/-- The words of six fields. -/
theorem parseSix_words {text : String} {second : Field} {x : Expr}
    (h : parseSix text = some (second, x)) :
    ∃ s m hr d mo w, Text.words isBlank text.toList = [s, m, hr, d, mo, w] ∧
      parseField [] s = some second ∧ parseField [] m = some x.minute ∧
      parseField [] hr = some x.hour ∧ parseField [] d = some x.dayOfMonth ∧
      parseField monthNames mo = some x.month ∧ parseField weekdayNames w = some x.dayOfWeek := by
  unfold parseSix at h
  split at h
  · cases h
  · rename_i s fields hwords
    obtain ⟨sec, hsec, h⟩ := Option.bind_eq_some_iff.1 h
    obtain ⟨x', hx', h⟩ := Option.bind_eq_some_iff.1 h
    cases h
    unfold parseFields at hx'
    split at hx'
    · rename_i m hr d mo w _
      obtain ⟨minute, hminute, hx'⟩ := Option.bind_eq_some_iff.1 hx'
      obtain ⟨hour, hhour, hx'⟩ := Option.bind_eq_some_iff.1 hx'
      obtain ⟨day, hday, hx'⟩ := Option.bind_eq_some_iff.1 hx'
      obtain ⟨month, hmonth, hx'⟩ := Option.bind_eq_some_iff.1 hx'
      obtain ⟨weekday, hweekday, hx'⟩ := Option.bind_eq_some_iff.1 hx'
      cases hx'
      exact ⟨s, m, hr, d, mo, w, hwords, hsec, hminute, hhour, hday, hmonth, hweekday⟩
    · cases hx'

/-- Six fields in the syntax of a crontab are accepted if they are taken. -/
theorem FieldSyntax.Extends.accepts_six {syn : FieldSyntax} {d : Dialect}
    (hsyn : syn.Extends d) {text : String} {second : Field} {x : Expr}
    (h : parseSix text = some (second, x)) :
    syn.Accepts text ↔ d.takes .minutes second = true ∧ d.inRange x = true := by
  obtain ⟨s, m, hr, dm, mo, w, hwords, h1, h2, h3, h4, h5, h6⟩ := parseSix_words h
  have a1 := hsyn.accepts .second s second h1
  have a2 := hsyn.accepts .minute m x.minute h2
  have a3 := hsyn.accepts .hour hr x.hour h3
  have a4 := hsyn.accepts .dayOfMonth dm x.dayOfMonth h4
  have a5 := hsyn.accepts .month mo x.month h5
  have a6 := hsyn.accepts .dayOfWeek w x.dayOfWeek h6
  unfold FieldSyntax.Accepts Dialect.inRange
  rw [hwords]
  simp [parts, a1, a2, a3, a4, a5, a6, Part.numbering, and_assoc]

/-- Accepted, they run when the crontab fields match. -/
theorem FieldSyntax.Extends.runsAt_six {syn : FieldSyntax} {d : Dialect}
    (hsyn : syn.Extends d) (hrule : d.dayRule = .both) {text : String} {second : Field} {x : Expr}
    (h : parseSix text = some (second, x)) (hacc : syn.Accepts text) (u : Int) :
    syn.RunsAt text u ↔ d.Matches second x u := by
  obtain ⟨s, m, hr, dm, mo, w, hwords, h1, h2, h3, h4, h5, h6⟩ := parseSix_words h
  have hall := hacc.2
  rw [hwords] at hall
  simp only [parts, List.zip_cons_cons, List.zip_nil_right, List.forall_mem_cons] at hall
  obtain ⟨r1, r2, r3, r4, r5, r6, -⟩ := hall
  have s1 := hsyn.selects .second s second h1 r1
  have s2 := hsyn.selects .minute m x.minute h2 r2
  have s3 := hsyn.selects .hour hr x.hour h3 r3
  have s4 := hsyn.selects .dayOfMonth dm x.dayOfMonth h4 r4
  have s5 := hsyn.selects .month mo x.month h5 r5
  have s6 := hsyn.selects .dayOfWeek w x.dayOfWeek h6 r6
  unfold FieldSyntax.RunsAt Dialect.Matches Dialect.matchesMoment Dialect.matchesDay
  rw [and_iff_right hacc, hwords, hrule]
  simp [parts, Part.value, s1, s2, s3, s4, s5, s6, Part.numbering, and_assoc, and_left_comm]

/-! ## Texts behind a zero -/

theorem exists_two {α : Type} {l : List α} (h : 2 ≤ l.length) : ∃ a b l', l = a :: b :: l' := by
  rcases l with _ | ⟨a, _ | ⟨b, l'⟩⟩
  · simp only [List.length_nil] at h
    omega
  · simp only [List.length_cons, List.length_nil] at h
    omega
  · exact ⟨a, b, l', rfl⟩

theorem exists_six {α : Type} {l : List α} (h : l.length = 6) :
    ∃ a b c d e f, l = [a, b, c, d, e, f] := by
  rcases l with _ | ⟨a, _ | ⟨b, _ | ⟨c, _ | ⟨d, _ | ⟨e, _ | ⟨f, _ | _⟩⟩⟩⟩⟩⟩ <;>
    simp only [List.length_cons, List.length_nil] at h <;> try omega
  exact ⟨a, b, c, d, e, f, rfl⟩

section Zero

variable {syn : FieldSyntax} {d : Dialect} (hsyn : syn.Extends d) {e : String}

include hsyn

theorem FieldSyntax.Extends.accepts_second_zero : syn.accepts .second ['0'] = true := by
  rw [hsyn.accepts .second ['0'] .zero parseField_zero]
  exact d.takes_zero

theorem FieldSyntax.Extends.accepts_zero_iff : syn.Accepts ("0 " ++ e) ↔ syn.TakesRest e := by
  unfold FieldSyntax.Accepts FieldSyntax.TakesRest fieldsFromMinutes
  rw [words_zero, parts, List.zip_cons_cons, List.forall_mem_cons,
    and_iff_right hsyn.accepts_second_zero]
  simp only [List.length_cons, Nat.reduceEqDiff, List.tail_cons]

/-- A named date has a named date of the same day from 1970 on. -/
theorem FieldSyntax.Extends.exists_names {date : Date} (htakes : syn.TakesRest e)
    (hdate : syn.Names e date) : ∃ date', syn.Names e date' ∧ 1970 ≤ date'.year := by
  obtain ⟨hlen, hacc⟩ := htakes
  unfold FieldSyntax.Names fieldsFromMinutes at *
  rcases hlen with hlen | hlen
  · -- without a year the date comes back
    let date' := date.cycles (1970 - date.year).toNat
    have hsame : ∀ part ∈ parts.tail.take 5, part.ofDate date' = part.ofDate date := by
      have hweekday : date'.weekday = date.weekday := date.weekday_cycles _
      simp [parts, Part.ofDate, hweekday, show date'.day = date.day from rfl,
        show date'.month = date.month from rfl]
    refine ⟨date', fun p hp v hv => hdate p hp v ?_, by simp only [date', Date.cycles]; omega⟩
    rw [← hv, hsame]
    rw [List.zip_eq_zip_take_min] at hp
    have hmem := (List.of_mem_zip hp).1
    rwa [hlen] at hmem
  · obtain ⟨m, hr, dm, mo, w, y, hwords⟩ := exists_six hlen
    rw [hwords] at hacc hdate
    have hmem : (Part.year, y) ∈ parts.tail.zip [m, hr, dm, mo, w, y] := by simp [parts]
    obtain ⟨k, hk, -, hvalue⟩ := hsyn.within .year y date.year (hacc _ hmem)
      (hdate _ hmem _ rfl)
    simp only [Part.numbering, Numbering.years, id] at hk hvalue
    exact ⟨date, by rw [hwords]; exact hdate, by omega⟩

/-- A named date has an instant at which the text runs. -/
theorem FieldSyntax.Extends.exists_runsAt {date : Date} (htakes : syn.TakesRest e)
    (hdate : syn.Names e date) :
    ∃ t : Moment, t.date = date ∧ syn.RunsAt ("0 " ++ e) t.instant := by
  obtain ⟨m, hr, rest, hwords⟩ := exists_two (l := Text.words isBlank e.toList) (by
    have hlen := htakes.1
    omega)
  have hfields : fieldsFromMinutes e =
      (.minute, m) :: (.hour, hr) :: (parts.drop 3).zip rest := by
    unfold fieldsFromMinutes
    rw [hwords]
    rfl
  have hacc := htakes.2
  unfold FieldSyntax.Names at hdate
  rw [hfields] at hacc hdate
  obtain ⟨minute, -, hmlt, hmsel⟩ := hsyn.nonempty .minute m (hacc (.minute, m) (by simp))
  obtain ⟨hour, -, hhlt, hhsel⟩ := hsyn.nonempty .hour hr (hacc (.hour, hr) (by simp))
  let t : Moment := ⟨date, hour, minute, 0, Nat.lt_succ_of_le hhlt, Nat.lt_succ_of_le hmlt,
    by omega⟩
  refine ⟨t, rfl, hsyn.accepts_zero_iff.2 htakes, t, rfl, fun p hp => ?_⟩
  rw [words_zero, parts, List.zip_cons_cons, List.mem_cons] at hp
  rcases hp with rfl | hp
  · have hzero := hsyn.selects .second ['0'] .zero parseField_zero
      hsyn.accepts_second_zero 0
    exact hzero.trans (show Field.zero.selects .minutes 0 = true by decide)
  · have hrest : p ∈ fieldsFromMinutes e := hp
    rw [hfields] at hrest
    rcases List.mem_cons.1 hrest with rfl | hrest
    · exact hmsel
    rcases List.mem_cons.1 hrest with rfl | hlast
    · exact hhsel
    · have hpart : p.1 ∈ [Part.dayOfMonth, .month, .dayOfWeek, .year] := (List.of_mem_zip hlast).1
      have hvalue : p.1.ofDate date = some (p.1.value t) := by
        obtain ⟨part, w⟩ := p
        cases part <;> first | rfl | simp at hpart
      exact hdate p (by simp [hlast]) _ hvalue

/-- A text that runs takes its fields, and they name the date at which it does. -/
theorem FieldSyntax.Extends.names_of_runsAt {u : Int} (h : syn.RunsAt ("0 " ++ e) u) :
    syn.TakesRest e ∧ ∃ date, syn.Names e date := by
  obtain ⟨hacc, t, -, hsel⟩ := h
  refine ⟨hsyn.accepts_zero_iff.1 hacc, t.date, fun p hp v hv => ?_⟩
  have hvalue : v = p.1.value t := by
    obtain ⟨part, w⟩ := p
    cases part <;> cases hv <;> rfl
  rw [hvalue]
  refine hsel p ?_
  rw [words_zero, parts, List.zip_cons_cons]
  exact List.mem_cons_of_mem _ hp

/-- **A text runs after a reading before 1970 exactly if its fields are taken and a date of the
    calendar has their day, month, weekday and year.** -/
theorem FieldSyntax.Extends.runs_iff {now : Int} (hnow : now < 0) :
    (∃ u, now < u ∧ syn.RunsAt ("0 " ++ e) u) ↔
      syn.TakesRest e ∧ ∃ date, syn.Names e date := by
  constructor
  · rintro ⟨u, -, hrun⟩
    exact hsyn.names_of_runsAt hrun
  · rintro ⟨htakes, date, hdate⟩
    obtain ⟨date', hdate', hyear⟩ := hsyn.exists_names htakes hdate
    obtain ⟨t, rfl, hrun⟩ := hsyn.exists_runsAt htakes hdate'
    have hdays := t.date.le_toDays
    have hmono := daysBeforeYear_mono hyear
    exact ⟨_, by unfold Moment.instant; omega, hrun⟩

end Zero

end Cron

import Mathlib.Data.List.Basic

/-!
# Reading an argument vector

`Grammar.read` reads the tokens after a command word from left to right: an option, an option with
the value that follows it, or an operand. The stop token ends the options: every token after it is
an operand.

* `Grammar.read_operands`, `Grammar.read_values` — a block of plain tokens, and a block of pairs
  of an option and its value, are read on their own.
* `Grammar.operands_of_read` — if a vector is read as the operands `xs` followed by something that
  is no operand, no token of `xs` looks like an option.
-/

set_option autoImplicit false

namespace Options

variable {α : Type}

/-- What one or two tokens of an argument vector are read as. -/
inductive Item (α : Type) where
  | option (name : α)
  | value (name v : α)
  /-- An option that takes a value, at the end of the vector. -/
  | missing (name : α)
  | operand (s : α)
  deriving DecidableEq, Repr

/-- The operand an item is. -/
def Item.asOperand : Item α → Option α
  | .operand s => some s
  | _ => none

/-- The value an item gives the option `name`. -/
def Item.valueOf [DecidableEq α] (name : α) : Item α → Option α
  | .value n v => if n = name then some v else none
  | _ => none

/-- The tokens that look like options, those of them that take a value, and the one that ends
    the options. -/
structure Grammar (α : Type) where
  isOption : α → Bool
  takesValue : α → Bool
  stop : α
  isOption_of_takesValue : ∀ t, takesValue t → isOption t
  isOption_stop : isOption stop

/-- The operands among some items, in order. -/
def operands (items : List (Item α)) : List α := items.filterMap Item.asOperand

/-- The values some items give the option `name`, in order. -/
def values [DecidableEq α] (name : α) (items : List (Item α)) : List α :=
  items.filterMap (Item.valueOf name)

@[simp] theorem operands_option_cons (name : α) (xs : List (Item α)) :
    operands (.option name :: xs) = operands xs := rfl

@[simp] theorem operands_append (xs ys : List (Item α)) :
    operands (xs ++ ys) = operands xs ++ operands ys := List.filterMap_append

@[simp] theorem operands_map_operand (xs : List α) : operands (xs.map Item.operand) = xs := by
  simp [operands, List.filterMap_map, Function.comp_def, Item.asOperand]

@[simp] theorem operands_map_value (name : α) (xs : List α) :
    operands (xs.map (Item.value name)) = [] := by
  simp [operands, Item.asOperand]

variable {g : Grammar α}

theorem Grammar.ne_stop {t : α} (h : g.isOption t = false) : t ≠ g.stop := by
  intro he
  rw [he, g.isOption_stop] at h
  exact absurd h (by decide)

theorem Grammar.not_takesValue {t : α} (h : g.isOption t = false) : ¬ g.takesValue t := by
  intro ht
  rw [g.isOption_of_takesValue t ht] at h
  exact absurd h (by decide)

variable [DecidableEq α]

@[simp] theorem values_option_cons (name name' : α) (xs : List (Item α)) :
    values name (.option name' :: xs) = values name xs := rfl

@[simp] theorem values_append (name : α) (xs ys : List (Item α)) :
    values name (xs ++ ys) = values name xs ++ values name ys := List.filterMap_append

@[simp] theorem values_map_operand (name : α) (xs : List α) :
    values name (xs.map Item.operand) = [] := by
  simp [values, Item.valueOf]

@[simp] theorem values_map_value (name : α) (xs : List α) :
    values name (xs.map (Item.value name)) = xs := by
  simp [values, List.filterMap_map, Function.comp_def, Item.valueOf]

theorem values_map_value_ne {name name' : α} (h : name' ≠ name) (xs : List α) :
    values name (xs.map (Item.value name')) = [] := by
  simp [values, Item.valueOf, h]

/-- The items of the tokens `ts`. -/
def Grammar.read (g : Grammar α) : List α → List (Item α)
  | [] => []
  | t :: ts =>
    if t = g.stop then ts.map .operand
    else if g.takesValue t then
      match ts with
      | [] => [.missing t]
      | v :: rest => .value t v :: g.read rest
    else if g.isOption t then .option t :: g.read ts
    else .operand t :: g.read ts

theorem Grammar.read_cons (t : α) (ts : List α) :
    g.read (t :: ts) =
      if t = g.stop then ts.map .operand
      else if g.takesValue t then
        match ts with
        | [] => [.missing t]
        | v :: rest => .value t v :: g.read rest
      else if g.isOption t then .option t :: g.read ts
      else .operand t :: g.read ts := by
  cases ts <;> rfl

theorem Grammar.read_operand {t : α} (h : g.isOption t = false) (ts : List α) :
    g.read (t :: ts) = .operand t :: g.read ts := by
  rw [read_cons, if_neg (ne_stop h), if_neg (not_takesValue h), if_neg (by simp [h])]

theorem Grammar.read_option {t : α} (hs : t ≠ g.stop) (hv : ¬ g.takesValue t)
    (h : g.isOption t) (ts : List α) : g.read (t :: ts) = .option t :: g.read ts := by
  rw [read_cons, if_neg hs, if_neg hv, if_pos h]

theorem Grammar.read_value {t : α} (hs : t ≠ g.stop) (hv : g.takesValue t) (v : α)
    (ts : List α) : g.read (t :: v :: ts) = .value t v :: g.read ts := by
  rw [read_cons, if_neg hs, if_pos hv]

theorem Grammar.read_operands {xs : List α} (h : ∀ x ∈ xs, g.isOption x = false)
    (ts : List α) : g.read (xs ++ ts) = xs.map .operand ++ g.read ts := by
  induction xs with
  | nil => rfl
  | cons x xs ih =>
    rw [List.cons_append, read_operand (h x List.mem_cons_self), List.map_cons, List.cons_append,
      ih fun y hy => h y (List.mem_cons_of_mem x hy)]

theorem Grammar.read_values {t : α} (hs : t ≠ g.stop) (hv : g.takesValue t) (vs ts : List α) :
    g.read (vs.flatMap (fun v => [t, v]) ++ ts) = vs.map (.value t) ++ g.read ts := by
  induction vs with
  | nil => rfl
  | cons v vs ih =>
    rw [List.flatMap_cons, List.append_assoc, List.cons_append, List.cons_append,
      List.nil_append, read_value hs hv, ih, List.map_cons, List.cons_append]

/-- The first item of a token that looks like an option is not that token as an operand, unless
    the token ends the options. -/
theorem Grammar.read_isOption_head {t : α} (hs : t ≠ g.stop) (h : g.isOption t) (ts : List α)
    (more : List (Item α)) : g.read (t :: ts) ≠ .operand t :: more := by
  rw [read_cons, if_neg hs]
  by_cases hv : g.takesValue t
  · rw [if_pos hv]
    cases ts <;> simp
  · rw [if_neg hv, if_pos h]
    simp

/-- **A vector that is read as the operands `xs` and then as something else than operands has no
    token in `xs` that looks like an option.** -/
theorem Grammar.operands_of_read {xs ts : List α} {more : List (Item α)}
    (h : g.read (xs ++ ts) = xs.map .operand ++ more) {i : Item α} (hi : i ∈ more)
    (hno : i.asOperand = none) : ∀ x ∈ xs, g.isOption x = false := by
  induction xs with
  | nil => simp
  | cons x xs ih =>
    rw [List.cons_append, List.map_cons, List.cons_append] at h
    have hx : g.isOption x = false := by
      by_contra hx
      by_cases hs : x = g.stop
      · -- every item is an operand after the stop token, so `i` is one
        rw [read_cons, if_pos hs] at h
        have hmem : i ∈ (xs ++ ts).map Item.operand := by
          rw [h]
          exact List.mem_cons_of_mem _ (List.mem_append_right _ hi)
        obtain ⟨s, -, rfl⟩ := List.mem_map.1 hmem
        simp [Item.asOperand] at hno
      · exact read_isOption_head hs (by simpa using hx) _ _ h
    rw [read_operand hx] at h
    intro y hy
    rcases List.mem_cons.1 hy with rfl | hy
    · exact hx
    · exact ih (List.cons.inj h).2 y hy

end Options

import Mathlib.Data.List.Basic

/-!
# Text, as Rust's `str` cuts it

`str::lines`, `str::trim` and the splitting at separators, over the characters of a string.

* `lines` — a line ends at `\n`, a `\r` before it belongs to the line ending, and the last line
  needs no ending; `lines_eq_singleton` says which texts are one line, and
  `lines_append_newline` that a text behind a line ending has its lines to itself;
* `trim` — drops white space (the Unicode property `White_Space`) at both ends; `trim_eq_self`
  says which texts it leaves alone;
* `words` — the maximal blocks without separators; `words_cons_word` puts a word and a separator
  in front;
* `split` — the pieces between separators; `flatMap_split_eq_self_iff` says when splitting leaves
  a list of texts as it is;
* `PrefixFree` — labels of which none starts another, so that a label and the text behind it are
  read back.
-/

set_option autoImplicit false

namespace Text

/-- `char::is_whitespace`: the characters with the property `White_Space`. -/
def isWhitespace (c : Char) : Bool :=
  let n := c.toNat
  (9 ≤ n && n ≤ 13) || n == 0x20 || n == 0x85 || n == 0xA0 || n == 0x1680 ||
    (0x2000 ≤ n && n ≤ 0x200A) || n == 0x2028 || n == 0x2029 || n == 0x202F || n == 0x205F ||
    n == 0x3000

/-- The lines of a text; `cur` is the current line so far, last character first. -/
def linesFrom : List Char → List Char → List (List Char)
  | cur, [] => if cur = [] then [] else [cur.reverse]
  | cur, c :: cs =>
    if c = '\n' then
      (match cur with
        | '\r' :: cur => cur.reverse
        | cur => cur.reverse) :: linesFrom [] cs
    else linesFrom (c :: cur) cs

/-- `str::lines`. -/
def lines (s : String) : List String := (linesFrom [] s.toList).map String.ofList

theorem linesFrom_of_not_mem {s : List Char} (h : '\n' ∉ s) :
    ∀ cur : List Char, linesFrom cur s =
      if s.reverse ++ cur = [] then [] else [(s.reverse ++ cur).reverse] := by
  induction s with
  | nil => intro cur; rfl
  | cons c s ih =>
    intro cur
    rw [List.mem_cons, not_or] at h
    show (if c = '\n' then _ else linesFrom (c :: cur) s) = _
    rw [if_neg (Ne.symm h.1), ih h.2, List.reverse_cons, List.append_assoc,
      List.singleton_append]

theorem linesFrom_append_newline (a s : List Char) :
    ∀ cur : List Char,
      linesFrom cur (a ++ '\n' :: s) = linesFrom cur (a ++ ['\n']) ++ linesFrom [] s := by
  induction a with
  | nil => intro cur; rfl
  | cons c a ih =>
    intro cur
    simp only [List.cons_append, linesFrom]
    split
    · rw [ih, List.cons_append]
    · exact ih _

/-- The text behind a line ending has its lines to itself. -/
theorem lines_append_newline (a s : String) :
    lines (a ++ "\n" ++ s) = lines (a ++ "\n") ++ lines s := by
  have hnl : "\n".toList = ['\n'] := rfl
  simp only [lines, String.toList_append, hnl, List.append_assoc, List.singleton_append,
    linesFrom_append_newline a.toList s.toList, List.map_append]

/-- A text without line endings is one line. -/
theorem lines_eq_singleton {s : String} (hne : s ≠ "") (h : '\n' ∉ s.toList) :
    lines s = [s] := by
  have hlist : s.toList ≠ [] := fun e => hne (String.toList_eq_nil_iff.1 e)
  rw [lines, linesFrom_of_not_mem h, List.append_nil, if_neg (by simpa using hlist)]
  simp

/-- `str::trim`. -/
def trim (s : String) : String :=
  String.ofList ((s.toList.dropWhile isWhitespace).reverse.dropWhile isWhitespace).reverse

theorem dropWhile_eq_self {l : List Char} {a : Char} (h : l.head? = some a)
    (ha : isWhitespace a = false) : l.dropWhile isWhitespace = l := by
  cases l with
  | nil => rfl
  | cons c l =>
    cases h
    rw [List.dropWhile_cons, ha]
    rfl

/-- A text that starts and ends with a character that is no white space. -/
theorem trim_eq_self {s : String} {a b : Char} (hs : s.toList.head? = some a)
    (hs' : s.toList.getLast? = some b) (ha : isWhitespace a = false)
    (hb : isWhitespace b = false) : trim s = s := by
  have hback : s.toList.reverse.head? = some b := by rw [List.head?_reverse, hs']
  rw [trim, dropWhile_eq_self hs ha, dropWhile_eq_self hback hb, List.reverse_reverse,
    String.ofList_toList]

/-- The words of a text; `cur` is the current word so far, last character first. -/
def wordsFrom (sep : Char → Bool) : List Char → List Char → List (List Char)
  | cur, [] => if cur = [] then [] else [cur.reverse]
  | cur, c :: cs =>
    if sep c then
      if cur = [] then wordsFrom sep [] cs else cur.reverse :: wordsFrom sep [] cs
    else wordsFrom sep (c :: cur) cs

/-- The maximal blocks without separators. -/
def words (sep : Char → Bool) (s : List Char) : List (List Char) := wordsFrom sep [] s

theorem wordsFrom_word {sep : Char → Bool} {w : List Char} (hw : ∀ c ∈ w, sep c = false)
    (s : List Char) :
    ∀ cur : List Char, wordsFrom sep cur (w ++ s) = wordsFrom sep (w.reverse ++ cur) s := by
  induction w with
  | nil => intro cur; rfl
  | cons c w ih =>
    intro cur
    have hc : sep c = false := hw c List.mem_cons_self
    have hrest := ih (fun x hx => hw x (List.mem_cons_of_mem _ hx)) (c :: cur)
    simp only [List.cons_append, wordsFrom, hc, Bool.false_eq_true, if_false, hrest]
    simp

/-- A word and a separator in front of a text are one more word. -/
theorem words_cons_word {sep : Char → Bool} {w : List Char} (hw : ∀ c ∈ w, sep c = false)
    (hne : w ≠ []) {c : Char} (hc : sep c = true) (s : List Char) :
    words sep (w ++ c :: s) = w :: words sep s := by
  rw [words, wordsFrom_word hw, List.append_nil, wordsFrom, if_pos hc, if_neg (by simpa using hne),
    List.reverse_reverse, words]

/-! ## Pieces -/

/-- `str::split` at a character. -/
def split (c : Char) (s : String) : List String := (s.toList.splitOn c).map String.ofList

theorem split_of_not_mem {c : Char} {s : String} (h : c ∉ s.toList) : split c s = [s] := by
  rw [split, List.splitOn_eq_singleton h, List.map_singleton, String.ofList_toList]

theorem length_split_pos (c : Char) (s : String) : 0 < (split c s).length := by
  rw [split, List.length_map]
  exact List.length_pos_iff.2 (List.splitOn_ne_nil c _)

theorem one_lt_length_split {c : Char} {s : String} (h : c ∈ s.toList) :
    1 < (split c s).length := by
  obtain ⟨a, b, hs⟩ := List.append_of_mem h
  have ha := List.length_pos_iff.2 (List.splitOn_ne_nil c a)
  have hb := List.length_pos_iff.2 (List.splitOn_ne_nil c b)
  rw [split, List.length_map, hs, List.splitOn_append_cons_self, List.length_append]
  omega

theorem length_le_flatMap_split (c : Char) (ss : List String) :
    ss.length ≤ (ss.flatMap (split c)).length := by
  induction ss with
  | nil => exact Nat.le_refl 0
  | cons s ss ih =>
    have hs := length_split_pos c s
    rw [List.flatMap_cons, List.length_append, List.length_cons]
    omega

/-- **Splitting leaves texts whole exactly when none of them has the separator.** -/
theorem flatMap_split_eq_self_iff (c : Char) (ss : List String) :
    ss.flatMap (split c) = ss ↔ ∀ s ∈ ss, c ∉ s.toList := by
  induction ss with
  | nil => simp
  | cons s ss ih =>
    rw [List.flatMap_cons, List.forall_mem_cons, ← ih]
    constructor
    · intro h
      have hlen := congrArg List.length h
      rw [List.length_append, List.length_cons] at hlen
      have hrest := length_le_flatMap_split c ss
      have hs : c ∉ s.toList := by
        intro hmem
        have := one_lt_length_split hmem
        omega
      rw [split_of_not_mem hs, List.singleton_append] at h
      exact ⟨hs, (List.cons.inj h).2⟩
    · rintro ⟨hs, h⟩
      rw [split_of_not_mem hs, h, List.singleton_append]

/-! ## Labels -/

/-- No label starts another one. -/
def PrefixFree {I : Type} (label : I → String) : Prop :=
  ∀ i j, (label i).toList <+: (label j).toList → i = j

/-- **A text behind a label of a prefix-free family determines both.** -/
theorem PrefixFree.append_inj {I : Type} {label : I → String} (hl : PrefixFree label) {i j : I}
    {s t : String} (h : label i ++ s = label j ++ t) : i = j ∧ s = t := by
  have hlist : (label i).toList ++ s.toList = (label j).toList ++ t.toList := by
    rw [← String.toList_append, h, String.toList_append]
  have hij : i = j := by
    rcases List.prefix_or_prefix_of_prefix (List.prefix_append (label i).toList s.toList)
      (hlist ▸ List.prefix_append (label j).toList t.toList) with hp | hp
    · exact hl i j hp
    · exact (hl j i hp).symm
  subst hij
  exact ⟨rfl, String.toList_inj.1 (List.append_cancel_left hlist)⟩

end Text

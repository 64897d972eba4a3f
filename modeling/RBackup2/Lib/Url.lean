import Mathlib.Data.List.DropRight
import Mathlib.Data.List.TakeWhile
import RBackup2.Lib.Percent

/-!
# Reading a URL

A URL with an authority is split at its reserved characters, and its texts are percent-decoded, as
the URL standard has it for schemes that are not special.

* `prepare` — what is dropped from a text before it is read;
* `read` — scheme, user, password, host, port, path and query; the authority ends at the first
  `/`, `?` or `#`, the userinfo at the last `@` of it, the user at the first `:` of that;
* `Target.Plain.read` — texts put together without any encoding are read back if none of them has a
  character that means something else at its place;
* `Target.plain_of_read` — and only then, whatever becomes of the host and of the path.
-/

set_option autoImplicit false

namespace Url

/-! ## Splitting -/

/-- Tabs and line breaks, which are dropped wherever they stand. -/
def isBreak (c : Char) : Bool := c == '\t' || c == '\n' || c == '\r'

/-- The blank and the control characters, which are dropped at both ends. -/
def isStripped (c : Char) : Bool := decide (c.toNat ≤ 32)

/-- What is left of a text to be read. -/
def prepare (l : List Char) : List Char :=
  ((l.dropWhile isStripped).rdropWhile isStripped).filter (!isBreak ·)

/-- The characters that end the authority. -/
def isDelim (c : Char) : Bool := c == '/' || c == '?' || c == '#'

/-- The characters that end the path. -/
def isPathEnd (c : Char) : Bool := c == '?' || c == '#'

/-- What stands before the first `c` and what stands after it. -/
def cut (c : Char) (l : List Char) : List Char × List Char :=
  (l.takeWhile (· != c), (l.dropWhile (· != c)).tail)

/-- The userinfo, which the last `@` of the authority ends, and the host with its port. -/
def cutUserinfo (a : List Char) : List Char × List Char :=
  if '@' ∈ a then
    ((a.reverse.dropWhile (· != '@')).tail.reverse, (a.reverse.takeWhile (· != '@')).reverse)
  else ([], a)

/-- The host and what stands behind it; a host in brackets ends with the first closing one, any
    other before the first colon. -/
def cutHost : List Char → List Char × List Char
  | '[' :: l => ('[' :: (l.takeWhile (· != ']') ++ (l.dropWhile (· != ']')).take 1),
      (l.dropWhile (· != ']')).tail)
  | l => (l.takeWhile (· != ':'), l.dropWhile (· != ':'))

/-- The parts of a URL, before they are decoded. -/
structure Split where
  scheme : List Char
  user : List Char
  password : List Char
  host : List Char
  port : List Char
  path : List Char
  query : List Char
  deriving DecidableEq, Repr

/-- The parts of what follows `//`. -/
def splitHier (scheme t : List Char) : Split :=
  let authority := t.takeWhile (!isDelim ·)
  let rest := t.dropWhile (!isDelim ·)
  let userinfo := (cutUserinfo authority).1
  let hostport := (cutUserinfo authority).2
  { scheme := scheme
    user := (cut ':' userinfo).1
    password := (cut ':' userinfo).2
    host := (cutHost hostport).1
    port := (cutHost hostport).2
    path := rest.takeWhile (!isPathEnd ·)
    query :=
      match rest.dropWhile (!isPathEnd ·) with
      | '?' :: q => q.takeWhile (· != '#')
      | _ => [] }

def split (text : List Char) : Option Split :=
  match cut ':' text with
  | (scheme, '/' :: '/' :: t) => some (splitHier scheme t)
  | _ => none

/-! ## Reading -/

/-- The parts of a URL, decoded. -/
structure Parts where
  scheme : String
  user : String
  /-- There is none if the text between the colon and the `@` is empty. -/
  password : Option String
  host : String
  port : Option Nat
  path : String
  query : List (String × String)
  deriving DecidableEq, Repr

/-- The port behind the colon; it may be left out. -/
def readPort : List Char → Option (Option Nat)
  | [] => some none
  | ':' :: ds =>
    if ds = [] then some none
    else if ds.all Char.isDigit ∧ Nat.ofDigitChars 10 ds 0 < 65536 then
      some (some (Nat.ofDigitChars 10 ds 0))
    else none
  | _ => none

def readPassword (l : List Char) : Option (Option String) :=
  if l = [] then some none else (percentDecode l).map some

/-- The names and values of a query; empty pieces are skipped. -/
def queryPairs (q : List Char) : List (List Char × List Char) :=
  ((q.splitOn '&').filter (· ≠ [])).map (cut '=')

/-- A `+` in a query stands for a blank. -/
def plusToBlank (l : List Char) : List Char := l.map fun c => if c = '+' then ' ' else c

/-- The pairs, decoded. -/
def decodePairs : List (List Char × List Char) → Option (List (String × String))
  | [] => some []
  | (name, v) :: es =>
    match percentDecode (plusToBlank name), percentDecode (plusToBlank v), decodePairs es with
    | some name, some v, some es => some ((name, v) :: es)
    | _, _, _ => none

def Split.decode (s : Split) : Option Parts :=
  match readPort s.port, percentDecode s.user, readPassword s.password, percentDecode s.path,
      decodePairs (queryPairs s.query) with
  | some port, some user, some password, some path, some query =>
    some ⟨String.ofList s.scheme, user, password, String.ofList s.host, port, path, query⟩
  | _, _, _, _, _ => none

/-- The parts of a URL: it is split, then its texts are percent-decoded. -/
def read (url : String) : Option Parts := (split (prepare url.toList)).bind Split.decode

theorem Split.decode_eq_some_iff {s : Split} {p : Parts} :
    s.decode = some p ↔
      s.scheme = p.scheme.toList ∧ percentDecode s.user = some p.user ∧
      readPassword s.password = some p.password ∧ s.host = p.host.toList ∧
      readPort s.port = some p.port ∧ percentDecode s.path = some p.path ∧
      decodePairs (queryPairs s.query) = some p.query := by
  unfold decode
  constructor
  · intro h
    split at h
    · rename_i hport huser hpassword hpath hquery
      cases h
      exact ⟨String.toList_ofList.symm, huser, hpassword, String.toList_ofList.symm, hport, hpath,
        hquery⟩
    · cases h
  · rintro ⟨hscheme, huser, hpassword, hhost, hport, hpath, hquery⟩
    rw [hport, huser, hpassword, hpath, hquery, hscheme, hhost]
    simp only [String.ofList_toList]

theorem readPassword_eq_some_iff {l : List Char} {s : String} :
    readPassword l = some (some s) ↔ l ≠ [] ∧ percentDecode l = some s := by
  unfold readPassword
  by_cases hl : l = []
  · simp [hl]
  · simp [hl]

/-! ## What is dropped -/

theorem rdropWhile_append_stop {p : Char → Bool} {c : Char} (hc : p c = false) (a b : List Char) :
    (a ++ c :: b).rdropWhile p = a ++ c :: b.rdropWhile p := by
  unfold List.rdropWhile
  rw [List.reverse_append, List.reverse_cons, List.append_assoc, List.dropWhile_append]
  split
  · rename_i hempty
    rw [List.isEmpty_iff.1 hempty]
    simp [hc]
  · simp

theorem prepare_of_stop {c : Char} (hc : isStripped c = false) {a b : List Char}
    (ha : (a ++ c :: b).head?.all (!isStripped ·) = true) :
    prepare (a ++ c :: b) = (a.filter (!isBreak ·)) ++
      ([c].filter (!isBreak ·) ++ (b.rdropWhile isStripped).filter (!isBreak ·)) := by
  have hdrop : (a ++ c :: b).dropWhile isStripped = a ++ c :: b := by
    cases a with
    | nil => simp [hc]
    | cons x a =>
      have hx : isStripped x = false := by simpa using ha
      simp [hx]
  unfold prepare
  rw [hdrop, rdropWhile_append_stop hc, List.filter_append, ← List.singleton_append,
    List.filter_append]

/-! ## Splitting at the right places -/

theorem takeWhile_stop {p : Char → Bool} {a b : List Char} {d : Char} (ha : ∀ c ∈ a, p c)
    (hd : p d = false) : (a ++ d :: b).takeWhile p = a := by
  rw [List.takeWhile_append_of_pos ha, List.takeWhile_cons_of_neg (by simp [hd]), List.append_nil]

theorem dropWhile_stop {p : Char → Bool} {a b : List Char} {d : Char} (ha : ∀ c ∈ a, p c)
    (hd : p d = false) : (a ++ d :: b).dropWhile p = d :: b := by
  rw [List.dropWhile_append_of_pos ha, List.dropWhile_cons_of_neg (by simp [hd])]

theorem ne_of_not_mem {c : Char} {a : List Char} (h : c ∉ a) : ∀ x ∈ a, (x != c) = true := by
  intro x hx
  rw [bne_iff_ne]
  rintro rfl
  exact h hx

theorem cut_append {c : Char} {a : List Char} (h : c ∉ a) (b : List Char) :
    cut c (a ++ c :: b) = (a, b) := by
  have hc : (c != c) = false := by simp
  rw [cut, takeWhile_stop (ne_of_not_mem h) hc, dropWhile_stop (ne_of_not_mem h) hc, List.tail_cons]

theorem cutUserinfo_append {b : List Char} (h : '@' ∉ b) (a : List Char) :
    cutUserinfo (a ++ '@' :: b) = (a, b) := by
  have hb : ∀ x ∈ b.reverse, (x != '@') = true :=
    ne_of_not_mem fun hm => h (List.mem_reverse.1 hm)
  have hrev : (a ++ '@' :: b).reverse = b.reverse ++ '@' :: a.reverse := by simp
  rw [cutUserinfo, if_pos (by simp), hrev, takeWhile_stop hb rfl, dropWhile_stop hb rfl,
    List.tail_cons, List.reverse_reverse, List.reverse_reverse]

theorem exists_last {c : Char} {l : List Char} (h : c ∈ l) : ∃ a b, l = a ++ c :: b ∧ c ∉ b := by
  obtain ⟨as, bs, hl, hno⟩ := List.eq_append_cons_of_mem (List.mem_reverse.2 h)
  refine ⟨bs.reverse, as.reverse, ?_, fun hm => hno (List.mem_reverse.1 hm)⟩
  have hrev := congrArg List.reverse hl
  rw [List.reverse_reverse] at hrev
  rw [hrev]
  simp

/-- A host in brackets has its only closing bracket at its end; any other has no colon. -/
def HostShape : List Char → Prop
  | '[' :: l => ∃ a, l = a ++ [']'] ∧ ']' ∉ a
  | l => ':' ∉ l

theorem cutHost_of_head {l : List Char} (h : l.head? ≠ some '[') :
    cutHost l = (l.takeWhile (· != ':'), l.dropWhile (· != ':')) := by
  unfold cutHost
  split
  · exact absurd rfl h
  · rfl

theorem hostShape_of_head {l : List Char} (h : l.head? ≠ some '[') :
    HostShape l ↔ ':' ∉ l := by
  unfold HostShape
  split
  · exact absurd rfl h
  · rfl

theorem head?_append_colon {h : List Char} (hh : h.head? ≠ some '[') (ds : List Char) :
    (h ++ ':' :: ds).head? ≠ some '[' := by
  cases h with
  | nil => simp
  | cons c h => exact hh

theorem exists_of_bracket {h : List Char} (hh : h.head? = some '[') : ∃ l, h = '[' :: l := by
  cases h with
  | nil => cases hh
  | cons c h =>
    cases hh
    exact ⟨h, rfl⟩

theorem cutHost_append {h : List Char} (hh : HostShape h) (ds : List Char) :
    cutHost (h ++ ':' :: ds) = (h, ':' :: ds) := by
  by_cases hb : h.head? = some '['
  · obtain ⟨l, rfl⟩ := exists_of_bracket hb
    obtain ⟨a, rfl, ha⟩ := hh
    rw [List.cons_append, List.append_assoc, List.singleton_append, cutHost,
      takeWhile_stop (ne_of_not_mem ha) rfl, dropWhile_stop (ne_of_not_mem ha) rfl]
    rfl
  · rw [hostShape_of_head hb] at hh
    rw [cutHost_of_head (head?_append_colon hb ds), takeWhile_stop (ne_of_not_mem hh) rfl,
      dropWhile_stop (ne_of_not_mem hh) rfl]

/-! ## The query -/

/-- A piece between separators is a part of the text without a separator in it. -/
theorem mem_splitOn {c : Char} {l piece : List Char} (h : piece ∈ l.splitOn c) :
    piece <:+: l ∧ c ∉ piece := by
  by_cases hc : c ∈ l
  · obtain ⟨a, b, rfl, ha⟩ := List.eq_append_cons_of_mem hc
    rw [List.splitOn_append_cons_self_of_not_mem ha, List.mem_cons] at h
    rcases h with rfl | h
    · exact ⟨(List.prefix_append _ _).isInfix, ha⟩
    · obtain ⟨hpart, hno⟩ := mem_splitOn h
      exact ⟨hpart.trans ((List.suffix_cons c b).isInfix.trans (List.suffix_append a _).isInfix),
        hno⟩
  · rw [List.splitOn_eq_singleton hc, List.mem_singleton] at h
    rw [h]
    exact ⟨List.infix_rfl, hc⟩
termination_by l.length

theorem cut_eq_of_snd_ne_nil {c : Char} {l : List Char} (h : (cut c l).2 ≠ []) :
    l = (cut c l).1 ++ c :: (cut c l).2 := by
  by_cases hc : c ∈ l
  · obtain ⟨a, b, rfl, ha⟩ := List.eq_append_cons_of_mem hc
    rw [cut_append ha]
  · rw [cut, List.dropWhile_eq_nil_iff.2 (ne_of_not_mem hc)] at h
    exact absurd rfl h

theorem exists_of_decodePairs {es : List (List Char × List Char)} {name value : String}
    (h : decodePairs es = some [(name, value)]) :
    ∃ e, es = [e] ∧ percentDecode (plusToBlank e.1) = some name ∧
      percentDecode (plusToBlank e.2) = some value := by
  cases es with
  | nil => cases h
  | cons e es =>
    rw [decodePairs] at h
    split at h
    · rename_i name' value' vs hname hvalue hvs
      cases h
      cases es with
      | nil => exact ⟨e, rfl, hname, hvalue⟩
      | cons e' es =>
        rw [decodePairs] at hvs
        split at hvs <;> cases hvs
    · cases h

theorem size_plusToBlank (l : List Char) : size (plusToBlank l) = size l := by
  induction l with
  | nil => rfl
  | cons c l ih =>
    unfold plusToBlank at *
    rw [List.map_cons, size_cons, size_cons, ih]
    by_cases hc : c = '+'
    · subst hc
      rfl
    · rw [if_neg hc]

theorem plusToBlank_eq_self {l : List Char} (h : '+' ∉ l) : plusToBlank l = l := by
  unfold plusToBlank
  refine (List.map_congr_left fun c hc => ?_).trans (List.map_id l)
  rw [if_neg]
  · rfl
  · rintro rfl
    exact h hc

theorem plus_not_mem_plusToBlank (l : List Char) : '+' ∉ plusToBlank l := by
  intro h
  obtain ⟨c, -, hc⟩ := List.mem_map.1 h
  split at hc
  · cases hc
  · rename_i hne
    exact hne hc

theorem queryPairs_eq {name value : List Char} (hname : '=' ∉ name)
    (hno : '&' ∉ name ++ '=' :: value) :
    queryPairs (name ++ '=' :: value) = [(name, value)] := by
  rw [queryPairs, List.splitOn_eq_singleton hno, List.filter_cons_of_pos (by simp),
    List.filter_nil, List.map_singleton, cut_append hname]

/-- A query that is read as one name with its value, neither of them shorter than what is written
    for it, consists of these, unless the value is empty. -/
theorem query_of_decodePairs {q k x : List Char} {name value : String} (hvalue : value ≠ "")
    (hk : '=' ∉ k) (hname : size k ≤ size name.toList) (hsize : size x ≤ size value.toList)
    (hq : q <+: k ++ '=' :: x) (h : decodePairs (queryPairs q) = some [(name, value)]) :
    q = k ++ '=' :: x ∧ '&' ∉ q ∧ plusToBlank x = value.toList ∧
      hasEscape value.toList = false := by
  obtain ⟨e, hpairs, hdname, hdvalue⟩ := exists_of_decodePairs h
  have hmem : e ∈ queryPairs q := by
    rw [hpairs]
    exact List.mem_singleton_self _
  obtain ⟨piece, hpiece, hcut⟩ := List.mem_map.1 hmem
  obtain ⟨hpart, hno⟩ := mem_splitOn (List.mem_filter.1 hpiece).1
  have hne : (cut '=' piece).2 ≠ [] := by
    rw [hcut]
    intro hnil
    rw [hnil, show plusToBlank [] = [] from rfl, percentDecode_nil] at hdvalue
    exact hvalue (Option.some.inj hdvalue).symm
  have heq := cut_eq_of_snd_ne_nil hne
  rw [hcut] at heq
  -- neither part is shorter than what is written for it, so nothing of the query is left out
  have hsname := size_le_of_percentDecode hdname
  have hsvalue := size_le_of_percentDecode hdvalue
  rw [size_plusToBlank] at hsname hsvalue
  have hwhole : piece = k ++ '=' :: x := by
    refine eq_of_sublist (hpart.sublist.trans hq.sublist) ?_
    rw [heq, size_append, size_append, size_cons, size_cons]
    omega
  have hqwhole : q = k ++ '=' :: x := by
    refine hq.eq_of_length_le ?_
    have hle := hpart.length_le
    rw [hwhole] at hle
    exact hle
  have he : e = (k, x) := by
    rw [← hcut, hwhole, cut_append hk]
  rw [he] at hdvalue
  obtain ⟨hsame, hescape⟩ := eq_of_percentDecode hdvalue (by rw [size_plusToBlank]; exact hsize)
  refine ⟨hqwhole, ?_, hsame, by rw [← hsame]; exact hescape⟩
  rw [hqwhole, ← hwhole]
  exact hno

/-! ## The authority of a written URL -/

/-- What follows `//`: user, password, host, the digits of the port, path and query. -/
def hier (u w h ds r : List Char) : List Char :=
  u ++ ':' :: (w ++ '@' :: (h ++ ':' :: (ds ++ r)))

/-- The characters of user, password and host leave the borders of the authority and of its parts
    where they are. -/
structure Clean (u w h : List Char) : Prop where
  user : ∀ c ∈ u, c ≠ ':' ∧ isDelim c = false
  password : ∀ c ∈ w, isDelim c = false
  host : ∀ c ∈ h, c ≠ '@' ∧ isDelim c = false

section Authority

variable {u w h ds r l : List Char}

theorem not_mem_digits (hds : ∀ c ∈ ds, c.isDigit = true) {c : Char} (hc : c.isDigit = false) :
    c ∉ ds := by
  intro hmem
  rw [hds c hmem] at hc
  cases hc

theorem isDelim_digits (hds : ∀ c ∈ ds, c.isDigit = true) : ∀ c ∈ ds, isDelim c = false := by
  intro c hc
  rw [Bool.eq_false_iff]
  intro hd
  simp only [isDelim, Bool.or_eq_true, beq_iff_eq] at hd
  rcases hd with (rfl | rfl) | rfl <;> exact absurd hc (not_mem_digits hds (by decide))

theorem at_not_mem_hostport (hh : ∀ c ∈ h, c ≠ '@' ∧ isDelim c = false)
    (hds : ∀ c ∈ ds, c.isDigit = true) : '@' ∉ h ++ ':' :: ds := by
  rw [List.mem_append, List.mem_cons, not_or, not_or]
  exact ⟨fun hm => (hh '@' hm).1 rfl, by decide, not_mem_digits hds (by decide)⟩

/-- The authority of the written URL. -/
theorem Clean.authority (hc : Clean u w h) (hds : ∀ c ∈ ds, c.isDigit = true) (hr : r = '/' :: l) :
    (hier u w h ds r).takeWhile (!isDelim ·) = (u ++ ':' :: w) ++ '@' :: (h ++ ':' :: ds) ∧
      (hier u w h ds r).dropWhile (!isDelim ·) = r := by
  have hhier : hier u w h ds r = ((u ++ ':' :: w) ++ '@' :: (h ++ ':' :: ds)) ++ '/' :: l := by
    simp [hier, hr]
  have hall : ∀ c ∈ (u ++ ':' :: w) ++ '@' :: (h ++ ':' :: ds), (!isDelim c) = true := by
    intro c hm
    have hfalse : isDelim c = false := by
      simp only [List.mem_append, List.mem_cons] at hm
      rcases hm with (hm | rfl | hm) | rfl | hm | rfl | hm
      · exact (hc.user c hm).2
      · decide
      · exact hc.password c hm
      · decide
      · exact (hc.host c hm).2
      · decide
      · exact isDelim_digits hds c hm
    rw [hfalse, Bool.not_false]
  rw [hhier, takeWhile_stop hall rfl, dropWhile_stop hall rfl, hr]
  exact ⟨rfl, rfl⟩

theorem Clean.splitHier (hc : Clean u w h) (hds : ∀ c ∈ ds, c.isDigit = true) (hr : r = '/' :: l)
    (scheme : List Char) : splitHier scheme (hier u w h ds r) =
      { scheme := scheme
        user := u
        password := w
        host := (cutHost (h ++ ':' :: ds)).1
        port := (cutHost (h ++ ':' :: ds)).2
        path := r.takeWhile (!isPathEnd ·)
        query :=
          match r.dropWhile (!isPathEnd ·) with
          | '?' :: q => q.takeWhile (· != '#')
          | _ => [] } := by
  obtain ⟨htake, hdrop⟩ := hc.authority hds hr
  rw [Url.splitHier, htake, hdrop, cutUserinfo_append (at_not_mem_hostport hc.host hds),
    cut_append fun hm => (hc.user ':' hm).1 rfl]

/-- **A URL that is read as it was meant has its borders where they were meant.**  The user and the
    password that are read start where the texts written for them start, and are not shorter. -/
theorem clean_of_decode {scheme : List Char} {user password : String} (hne : user ≠ "")
    (hu : size u ≤ size user.toList) (hw : size w ≤ size password.toList)
    (hh : ∀ c ∈ h, c ≠ '@' ∧ isDelim c = false)
    (huser : percentDecode (splitHier scheme (hier u w h ds r)).user = some user)
    (hpassword : percentDecode (splitHier scheme (hier u w h ds r)).password = some password) :
    Clean u w h := by
  simp only [Url.splitHier] at huser hpassword
  have hprefix := List.takeWhile_prefix (!isDelim ·) (l := hier u w h ds r)
  have hdelim : ∀ c ∈ (hier u w h ds r).takeWhile (!isDelim ·), isDelim c = false := by
    intro c hc
    simpa using List.mem_takeWhile_imp hc
  generalize (hier u w h ds r).takeWhile (!isDelim ·) = authority at *
  have hat : '@' ∈ authority := by
    by_contra hat
    rw [cutUserinfo, if_neg hat] at huser
    exact hne (Option.some.inj (huser.symm.trans percentDecode_nil))
  obtain ⟨userinfo, hostport, rfl, hno⟩ := exists_last hat
  rw [cutUserinfo_append hno] at huser hpassword
  -- the user
  have hread : (cut ':' userinfo).1 <+: userinfo := List.takeWhile_prefix _
  have hinfo : userinfo <+: hier u w h ds r := (List.prefix_append _ _).trans hprefix
  have huserRead : u <+: (cut ':' userinfo).1 :=
    prefix_of_size_le (hread.trans hinfo) (List.prefix_append _ _)
      (Nat.le_trans hu (size_le_of_percentDecode huser))
  have huserChars : ∀ c ∈ u, c ≠ ':' ∧ isDelim c = false := by
    intro c hc
    have hmem := huserRead.subset hc
    refine ⟨by simpa using List.mem_takeWhile_imp hmem, hdelim c ?_⟩
    exact List.mem_append_left _ (hread.subset hmem)
  -- the colon behind it, and the password
  obtain ⟨y, hy⟩ := huserRead.trans hread
  rw [← hy, List.append_assoc, hier, List.prefix_append_right_inj] at hprefix
  cases y with
  | nil => exact absurd (List.cons_prefix_cons.1 hprefix).1 (by decide)
  | cons d y =>
    rw [List.cons_append, List.cons_prefix_cons] at hprefix
    obtain ⟨rfl, hrest⟩ := hprefix
    rw [← hy, cut_append fun hm => (huserChars ':' hm).1 rfl] at hpassword
    have hpasswordRead : w <+: y :=
      prefix_of_size_le ((List.prefix_append _ _).trans hrest) (List.prefix_append _ _)
        (Nat.le_trans hw (size_le_of_percentDecode hpassword))
    refine ⟨huserChars, fun c hc => hdelim c ?_, hh⟩
    rw [← hy]
    exact List.mem_append_left _
      (List.mem_append_right _ (List.mem_cons_of_mem _ (hpasswordRead.subset hc)))

end Authority

/-! ## Writing -/

/-- The texts of a URL with credentials, a port and one query value. Scheme, port, key and the
    start of the path are as they should be; the other texts are arbitrary. -/
structure Target where
  scheme : String
  user : String
  password : String
  host : String
  port : Nat
  path : String
  key : String
  value : String
  scheme_plain : ∀ c ∈ scheme.toList, c ≠ ':' ∧ isStripped c = false
  user_ne : user ≠ ""
  port_lt : port < 65536
  path_slash : path.toList.head? = some '/'
  key_plain : ∀ c ∈ key.toList, c ∉ ['&', '=', '#', '+'] ∧ isStripped c = false
  key_escape : hasEscape key.toList = false

/-- The texts put together as they are. -/
def Target.write (t : Target) : String :=
  t.scheme ++ "://" ++ t.user ++ ":" ++ t.password ++ "@" ++ t.host ++ ":" ++ t.port.repr ++
    t.path ++ "?" ++ t.key ++ "=" ++ t.value

/-- The parts the URL should have. -/
def Target.parts (t : Target) : Parts where
  scheme := t.scheme
  user := t.user
  password := some t.password
  host := t.host
  port := some t.port
  path := t.path
  query := [(t.key, t.value)]

/-- No text has a character that is dropped or taken for something else at its place. -/
structure Target.Plain (t : Target) : Prop where
  user : ∀ c ∈ t.user.toList, c ≠ ':' ∧ isDelim c = false ∧ isBreak c = false
  userEscape : hasEscape t.user.toList = false
  password_ne : t.password ≠ ""
  password : ∀ c ∈ t.password.toList, isDelim c = false ∧ isBreak c = false
  passwordEscape : hasEscape t.password.toList = false
  host : ∀ c ∈ t.host.toList, c ≠ '@' ∧ isDelim c = false ∧ isBreak c = false
  hostShape : HostShape t.host.toList
  path : ∀ c ∈ t.path.toList, isPathEnd c = false ∧ isBreak c = false
  pathEscape : hasEscape t.path.toList = false
  value : ∀ c ∈ t.value.toList, c ∉ ['&', '#', '+'] ∧ isBreak c = false
  valueEscape : hasEscape t.value.toList = false
  valueEnd : ∀ c, t.value.toList.getLast? = some c → isStripped c = false

/-- What is kept of a text. -/
def kept (l : List Char) : List Char := l.filter (!isBreak ·)

theorem kept_eq_self_iff {l : List Char} : kept l = l ↔ ∀ c ∈ l, isBreak c = false := by
  simp [kept, List.filter_eq_self]

theorem kept_append (a b : List Char) : kept (a ++ b) = kept a ++ kept b := List.filter_append ..

theorem kept_cons {c : Char} (hc : isBreak c = false) (l : List Char) :
    kept (c :: l) = c :: kept l := by
  simp [kept, hc]

theorem size_kept_le (l : List Char) : size (kept l) ≤ size l :=
  size_le_of_sublist List.filter_sublist

theorem isBreak_of_not_isStripped {c : Char} (h : isStripped c = false) : isBreak c = false := by
  rw [Bool.eq_false_iff]
  intro hb
  simp only [isBreak, Bool.or_eq_true, beq_iff_eq] at hb
  rcases hb with (rfl | rfl) | rfl <;> cases h

namespace Target

variable {t : Target}

/-- What is kept of the value, which stands at the end. -/
def keptValue (t : Target) : List Char := kept (t.value.toList.rdropWhile isStripped)

theorem size_keptValue_le (t : Target) : size t.keptValue ≤ size t.value.toList :=
  Nat.le_trans (size_kept_le _) (size_le_of_sublist (List.rdropWhile_prefix _ _).sublist)

def digits (t : Target) : List Char := Nat.toDigits 10 t.port

/-- The query and what stands before it, without what is dropped. -/
def queryText (t : Target) : List Char := t.key.toList ++ '=' :: t.keptValue

def restText (t : Target) : List Char := kept t.path.toList ++ '?' :: t.queryText

def hierText (t : Target) : List Char :=
  hier (kept t.user.toList) (kept t.password.toList) (kept t.host.toList) t.digits t.restText

theorem isDigit_digits (t : Target) : ∀ c ∈ t.digits, c.isDigit = true :=
  fun _ h => Nat.isDigit_of_mem_toDigits (by decide) (by decide) h

theorem kept_digits (t : Target) : kept t.digits = t.digits := by
  refine kept_eq_self_iff.2 fun c hc => ?_
  rw [Bool.eq_false_iff]
  intro hb
  have hdigit := t.isDigit_digits c hc
  simp only [isBreak, Bool.or_eq_true, beq_iff_eq] at hb
  rcases hb with (rfl | rfl) | rfl <;> cases hdigit

theorem kept_scheme (t : Target) : kept t.scheme.toList = t.scheme.toList :=
  kept_eq_self_iff.2 fun c hc => isBreak_of_not_isStripped (t.scheme_plain c hc).2

theorem kept_key (t : Target) : kept t.key.toList = t.key.toList :=
  kept_eq_self_iff.2 fun c hc => isBreak_of_not_isStripped (t.key_plain c hc).2

/-- The written URL, without what is dropped. -/
theorem prepare_write (t : Target) :
    prepare t.write.toList = t.scheme.toList ++ ':' :: '/' :: '/' :: t.hierText := by
  have h1 : "://".toList = [':', '/', '/'] := rfl
  have h2 : ":".toList = [':'] := rfl
  have h3 : "@".toList = ['@'] := rfl
  have h4 : "?".toList = ['?'] := rfl
  have h5 : "=".toList = ['='] := rfl
  let front := t.scheme.toList ++ (':' :: '/' :: '/' :: hier t.user.toList t.password.toList
    t.host.toList t.digits (t.path.toList ++ '?' :: t.key.toList))
  have hwrite : t.write.toList = front ++ '=' :: t.value.toList := by
    simp only [write, front, hier, digits, String.toList_append, h1, h2, h3, h4, h5,
      Nat.toList_repr, List.append_assoc, List.cons_append, List.nil_append]
  have hhead : (front ++ '=' :: t.value.toList).head?.all (!isStripped ·) = true := by
    simp only [front]
    cases hs : t.scheme.toList with
    | nil => rfl
    | cons c l =>
      have hc := (t.scheme_plain c (by rw [hs]; exact List.mem_cons_self)).2
      simp [hc]
  rw [hwrite, prepare_of_stop (by decide) hhead]
  show kept front ++ (['='] ++ t.keptValue) = _
  have hcolon : isBreak ':' = false := by decide
  have hslash : isBreak '/' = false := by decide
  have hat : isBreak '@' = false := by decide
  have hmark : isBreak '?' = false := by decide
  simp only [front, hierText, hier, restText, queryText, kept_append, kept_cons hcolon,
    kept_cons hslash, kept_cons hat, kept_cons hmark, kept_scheme, kept_key, kept_digits,
    List.append_assoc, List.cons_append, List.nil_append]

theorem split_write (t : Target) :
    split (prepare t.write.toList) = some (splitHier t.scheme.toList t.hierText) := by
  have hcolon : ':' ∉ t.scheme.toList := fun hm => (t.scheme_plain ':' hm).1 rfl
  rw [prepare_write, split, cut_append hcolon]
  rfl

theorem readPort_digits (t : Target) : readPort (':' :: t.digits) = some (some t.port) := by
  have hall : t.digits.all Char.isDigit = true := List.all_eq_true.2 t.isDigit_digits
  have hvalue : Nat.ofDigitChars 10 t.digits 0 = t.port := Nat.ofDigitChars_ten_toDigits
  have hne : t.digits ≠ [] := Nat.toDigits_ne_nil
  rw [readPort, if_neg hne, hvalue, if_pos ⟨hall, t.port_lt⟩]

/-- The rest starts with the slash of the path. -/
theorem exists_restText (t : Target) : ∃ l, t.restText = '/' :: l := by
  have hslash := t.path_slash
  rw [restText]
  cases hp : t.path.toList with
  | nil => simp [hp] at hslash
  | cons c l =>
    rw [hp, List.head?_cons, Option.some.injEq] at hslash
    subst hslash
    rw [kept_cons (by decide), List.cons_append]
    exact ⟨_, rfl⟩

/-- The path and the query of the written URL. -/
theorem restText_cut (hp : ∀ c ∈ t.path.toList, isPathEnd c = false ∧ isBreak c = false) :
    t.restText.takeWhile (!isPathEnd ·) = t.path.toList ∧
      t.restText.dropWhile (!isPathEnd ·) = '?' :: t.queryText := by
  have hall : ∀ c ∈ t.path.toList, (!isPathEnd c) = true := by
    intro c hc
    rw [(hp c hc).1, Bool.not_false]
  rw [restText, kept_eq_self_iff.2 fun c hc => (hp c hc).2, takeWhile_stop hall rfl,
    dropWhile_stop hall rfl]
  exact ⟨rfl, rfl⟩

theorem Plain.clean (h : t.Plain) :
    Clean (kept t.user.toList) (kept t.password.toList) (kept t.host.toList) where
  user := by
    intro c hc
    obtain ⟨hcolon, hdelim, -⟩ := h.user c (List.mem_of_mem_filter hc)
    exact ⟨hcolon, hdelim⟩
  password := fun c hc => (h.password c (List.mem_of_mem_filter hc)).1
  host := by
    intro c hc
    obtain ⟨hat, hdelim, -⟩ := h.host c (List.mem_of_mem_filter hc)
    exact ⟨hat, hdelim⟩

theorem key_not_mem (t : Target) {c : Char} (hc : c ∈ ['&', '=', '#', '+']) : c ∉ t.key.toList :=
  fun hm => (t.key_plain c hm).1 hc

/-- **Plain texts that are put together as they are are read back.** -/
theorem Plain.read (h : t.Plain) : Url.read t.write = some t.parts := by
  have huser := kept_eq_self_iff.2 fun c hc => (h.user c hc).2.2
  have hpassword := kept_eq_self_iff.2 fun c hc => (h.password c hc).2
  have hhost := kept_eq_self_iff.2 fun c hc => (h.host c hc).2.2
  have hstrip : t.value.toList.rdropWhile isStripped = t.value.toList := by
    refine List.rdropWhile_eq_self_iff.2 fun hl => ?_
    rw [h.valueEnd _ (List.getLast?_eq_some_getLast hl)]
    exact Bool.false_ne_true
  have hvalue : t.keptValue = t.value.toList := by
    rw [keptValue, hstrip, kept_eq_self_iff.2 fun c hc => (h.value c hc).2]
  have hnot : ∀ c ∈ ['&', '#', '+'], c ∉ t.value.toList := fun c hc hm => (h.value c hm).1 hc
  have hquery : t.queryText.takeWhile (· != '#') = t.queryText := by
    refine List.takeWhile_eq_self_iff.2 (ne_of_not_mem ?_)
    rw [queryText, hvalue, List.mem_append, List.mem_cons, not_or, not_or]
    exact ⟨t.key_not_mem (by decide), by decide, hnot '#' (by decide)⟩
  have hpairs : queryPairs t.queryText = [(t.key.toList, t.value.toList)] := by
    rw [queryText, hvalue]
    refine queryPairs_eq (t.key_not_mem (by decide)) ?_
    rw [List.mem_append, List.mem_cons, not_or, not_or]
    exact ⟨t.key_not_mem (by decide), by decide, hnot '&' (by decide)⟩
  have hkey : percentDecode (plusToBlank t.key.toList) = some t.key := by
    rw [plusToBlank_eq_self (t.key_not_mem (by decide))]
    exact (percentDecode_eq_self_iff t.key).2 t.key_escape
  have hdecode : percentDecode (plusToBlank t.value.toList) = some t.value := by
    rw [plusToBlank_eq_self (hnot '+' (by decide))]
    exact (percentDecode_eq_self_iff t.value).2 h.valueEscape
  obtain ⟨l, hl⟩ := t.exists_restText
  have hne : t.password.toList ≠ [] := by
    simpa using h.password_ne
  rw [Url.read, split_write, Option.bind_some, hierText, h.clean.splitHier t.isDigit_digits hl,
    (restText_cut h.path).1, (restText_cut h.path).2, huser, hpassword, hhost,
    cutHost_append h.hostShape, Split.decode_eq_some_iff]
  refine ⟨rfl, (percentDecode_eq_self_iff _).2 h.userEscape,
    readPassword_eq_some_iff.2 ⟨hne, (percentDecode_eq_self_iff _).2 h.passwordEscape⟩, rfl,
    t.readPort_digits, (percentDecode_eq_self_iff _).2 h.pathEscape, ?_⟩
  show decodePairs (queryPairs (t.queryText.takeWhile (· != '#'))) = _
  rw [hquery, hpairs, decodePairs, hkey, hdecode, decodePairs]
  rfl

/-- A text that is read as it was meant has nothing that is dropped or decoded. -/
theorem plain_of_kept {s : String} (h : percentDecode (kept s.toList) = some s) :
    (∀ c ∈ s.toList, isBreak c = false) ∧ hasEscape s.toList = false := by
  obtain ⟨hkept, hescape⟩ := eq_of_percentDecode h (size_kept_le _)
  rw [hkept] at hescape
  exact ⟨kept_eq_self_iff.1 hkept, hescape⟩

/-- A query that is read as it was meant has a plain value. -/
theorem value_of_query
    (h : decodePairs (queryPairs (t.queryText.takeWhile (· != '#'))) = some [(t.key, t.value)]) :
    (∀ c ∈ t.value.toList, c ∉ ['&', '#', '+'] ∧ isBreak c = false) ∧
      hasEscape t.value.toList = false ∧
      ∀ c, t.value.toList.getLast? = some c → isStripped c = false := by
  by_cases hempty : t.value = ""
  · rw [hempty]
    exact ⟨fun c hc => (by cases hc), rfl, fun c hc => (by cases hc)⟩
  · have hprefix : t.queryText.takeWhile (· != '#') <+: t.queryText := List.takeWhile_prefix _
    obtain ⟨hwhole, hno, hsame, hescape⟩ := query_of_decodePairs hempty
      (t.key_not_mem (by decide)) (Nat.le_refl _) t.size_keptValue_le hprefix h
    -- nothing of the value was dropped
    have hsize : size t.value.toList ≤ size t.keptValue := by
      rw [← hsame, size_plusToBlank]
    have hsub : (t.value.toList.rdropWhile isStripped).Sublist t.value.toList :=
      (List.rdropWhile_prefix _ _).sublist
    have hvalue : t.keptValue = t.value.toList :=
      eq_of_sublist (List.filter_sublist.trans hsub) hsize
    have hstrip : t.value.toList.rdropWhile isStripped = t.value.toList :=
      eq_of_sublist hsub (Nat.le_trans hsize (size_kept_le _))
    rw [keptValue, hstrip] at hvalue
    rw [queryText, keptValue, hstrip, hvalue] at hwhole
    have hmem : ∀ c ∈ t.value.toList, c ∈ t.queryText.takeWhile (· != '#') := by
      intro c hc
      rw [queryText, keptValue, hstrip, hvalue, hwhole]
      exact List.mem_append_right _ (List.mem_cons_of_mem _ hc)
    have hplus : '+' ∉ t.value.toList := by
      rw [← hsame]
      exact plus_not_mem_plusToBlank _
    refine ⟨fun c hc => ⟨?_, kept_eq_self_iff.1 hvalue c hc⟩, hescape, fun c hc => ?_⟩
    · simp only [List.mem_cons, List.not_mem_nil, or_false, not_or]
      refine ⟨?_, ?_, ?_⟩
      · rintro rfl
        exact hno (hmem _ hc)
      · rintro rfl
        exact absurd (List.mem_takeWhile_imp (hmem _ hc)) (by decide)
      · rintro rfl
        exact hplus hc
    · have hl : t.value.toList ≠ [] := by
        intro hnil
        rw [hnil] at hc
        cases hc
      rw [List.getLast?_eq_some_getLast hl, Option.some.injEq] at hc
      rw [← hc]
      simpa using List.rdropWhile_eq_self_iff.1 hstrip hl

/-- **Texts that are read back are plain**, whatever becomes of the host and of the path, if the
    host is as it should be and the path is plain where the user is. -/
theorem plain_of_read {raw : Split} (h : split (prepare t.write.toList) = some raw)
    (huser : percentDecode raw.user = some t.user)
    (hpassword : readPassword raw.password = some (some t.password))
    (hquery : decodePairs (queryPairs raw.query) = some [(t.key, t.value)])
    (hhost : ∀ c ∈ t.host.toList, c ≠ '@' ∧ isDelim c = false ∧ isBreak c = false)
    (hshape : HostShape t.host.toList)
    (hpath : (∀ c ∈ t.user.toList, isDelim c = false ∧ isBreak c = false) →
      hasEscape t.user.toList = false → (∀ c ∈ t.path.toList, isPathEnd c = false ∧
        isBreak c = false) ∧ hasEscape t.path.toList = false) : t.Plain := by
  have hkeptHost := kept_eq_self_iff.2 fun c hc => (hhost c hc).2.2
  rw [split_write, Option.some.injEq, hierText, hkeptHost] at h
  subst h
  have hclean := clean_of_decode t.user_ne (size_kept_le _) (size_kept_le _)
    (fun c hc => ⟨(hhost c hc).1, (hhost c hc).2.1⟩) huser (readPassword_eq_some_iff.1 hpassword).2
  obtain ⟨l, hl⟩ := t.exists_restText
  rw [hclean.splitHier t.isDigit_digits hl] at huser hpassword hquery
  simp only at huser hpassword hquery
  obtain ⟨hpasswordNe, hdecodePassword⟩ := readPassword_eq_some_iff.1 hpassword
  obtain ⟨huserBreak, huserEscape⟩ := plain_of_kept huser
  obtain ⟨hpasswordBreak, hpasswordEscape⟩ := plain_of_kept hdecodePassword
  rw [kept_eq_self_iff.2 huserBreak, kept_eq_self_iff.2 hpasswordBreak] at hclean
  obtain ⟨hpathChars, hpathEscape⟩ := hpath
    (fun c hc => ⟨(hclean.user c hc).2, huserBreak c hc⟩) huserEscape
  rw [(restText_cut hpathChars).2] at hquery
  obtain ⟨hvalue, hvalueEscape, hvalueEnd⟩ := value_of_query hquery
  exact {
    user := fun c hc => ⟨(hclean.user c hc).1, (hclean.user c hc).2, huserBreak c hc⟩
    userEscape := huserEscape
    password_ne := by
      intro he
      rw [he] at hpasswordNe
      exact hpasswordNe rfl
    password := fun c hc => ⟨hclean.password c hc, hpasswordBreak c hc⟩
    passwordEscape := hpasswordEscape
    host := hhost
    hostShape := hshape
    path := hpathChars
    pathEscape := hpathEscape
    value := hvalue
    valueEscape := hvalueEscape
    valueEnd := hvalueEnd }

end Target

end Url

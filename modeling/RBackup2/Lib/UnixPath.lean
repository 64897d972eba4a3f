import RBackup2.Lib.Text

/-!
# Paths, as Rust's `std::path` reads them on Unix

A path is its components: repeated and trailing slashes do not count, nor does a `.` that does not
start a relative path.

* `components` — the root or the leading `.`, then the names between the slashes;
* `parent`, `fileName` — everything but the last component, and the last one if it is a name;
  `components_of_fileName` puts the two together again;
* `parent_and_fileName_iff` — which texts have both; `parent_eq_none_iff` — which have no parent.
-/

set_option autoImplicit false

namespace UnixPath

/-- `std::path::Component`; Unix has no prefixes. -/
inductive Component where
  | rootDir
  | curDir
  | parentDir
  | normal (name : String)
  deriving DecidableEq, Repr

/-- `Path::has_root`. -/
def hasRoot (path : String) : Bool := path.toList.head? == some '/'

/-- The pieces between slashes that count. -/
def names (path : String) : List String :=
  (Text.split '/' path).filter fun piece => piece ≠ "" ∧ piece ≠ "."

/-- The component a name stands for. -/
def Component.ofName (name : String) : Component := if name = ".." then .parentDir else .normal name

/-- What comes before the names: the root, or the `.` a relative path may start with. -/
def start (path : String) : List Component :=
  if hasRoot path then [.rootDir]
  else if (Text.split '/' path).head? = some "." then [.curDir]
  else []

/-- `Path::components`. -/
def components (path : String) : List Component :=
  start path ++ (names path).map Component.ofName

/-- `Path::parent`, by its components. -/
def parent (path : String) : Option (List Component) :=
  (components path).getLast?.bind fun
    | .normal _ | .curDir | .parentDir => some (components path).dropLast
    | .rootDir => none

/-- The name a component is, if it is one. -/
def Component.name? : Component → Option String
  | .normal name => some name
  | _ => none

/-- `Path::file_name`. -/
def fileName (path : String) : Option String := (components path).getLast?.bind Component.name?

/-- The path ends in a name: of the pieces that count there is a last one, and it is not `..`. -/
def NamesFile (path : String) : Prop := ∃ name, (names path).getLast? = some name ∧ name ≠ ".."

theorem Component.name?_eq_some_iff {c : Component} {name : String} :
    c.name? = some name ↔ c = .normal name := by
  cases c <;> simp [name?]

theorem Component.name?_ofName (name : String) :
    (ofName name).name? = if name = ".." then none else some name := by
  unfold ofName
  split <;> rfl

/-- What comes before the names is no name. -/
theorem name?_of_mem_start {path : String} {c : Component} (h : c ∈ start path) :
    c.name? = none := by
  unfold start at h
  split at h
  · rw [List.mem_singleton.1 h]; rfl
  · split at h
    · rw [List.mem_singleton.1 h]; rfl
    · cases h

/-- The last component is the last name, or what comes before the names if there is none. -/
theorem getLast?_components (path : String) :
    (components path).getLast? =
      ((names path).getLast?.map Component.ofName).or (start path).getLast? := by
  rw [components, List.getLast?_append, List.getLast?_map]

/-! ## The file name -/

theorem fileName_eq_some_iff {path name : String} :
    fileName path = some name ↔ (names path).getLast? = some name ∧ name ≠ ".." := by
  rw [fileName, getLast?_components]
  cases hn : (names path).getLast? with
  | none =>
    have hstart : (start path).getLast?.bind Component.name? = none :=
      Option.bind_eq_none_iff.2 fun c hc => name?_of_mem_start (List.mem_of_getLast? hc)
    rw [Option.map_none, Option.none_or, hstart]
    simp
  | some last =>
    rw [Option.map_some, Option.some_or, Option.bind_some, Component.name?_ofName]
    by_cases hdots : last = ".."
    · rw [if_pos hdots]
      constructor
      · intro h
        cases h
      · rintro ⟨h, hne⟩
        exact absurd (Option.some.inj h ▸ hdots) hne
    · rw [if_neg hdots]
      exact ⟨fun h => ⟨h, Option.some.inj h ▸ hdots⟩, fun h => h.1⟩

/-- **Which texts have a file name.** -/
theorem fileName_isSome_iff (path : String) : (fileName path).isSome ↔ NamesFile path := by
  rw [Option.isSome_iff_exists]
  exact exists_congr fun name => fileName_eq_some_iff

/-- The parent and the file name make up the path. -/
theorem components_of_fileName {path name : String} (h : fileName path = some name) :
    ∃ directory, parent path = some directory ∧
      components path = directory ++ [.normal name] := by
  obtain ⟨last, hlast, hname⟩ := Option.bind_eq_some_iff.1 h
  rw [Component.name?_eq_some_iff] at hname
  subst hname
  refine ⟨(components path).dropLast, ?_, ?_⟩
  · rw [parent, hlast, Option.bind_some]
  · exact (List.dropLast_append_getLast? _ hlast).symm

/-- **Which texts have both parts**: those with a file name, which then have a parent. -/
theorem parent_and_fileName_iff (path : String) :
    ((parent path).isSome ∧ (fileName path).isSome) ↔ NamesFile path := by
  rw [← fileName_isSome_iff]
  constructor
  · exact fun h => h.2
  · intro h
    obtain ⟨name, hname⟩ := Option.isSome_iff_exists.1 h
    obtain ⟨directory, hparent, -⟩ := components_of_fileName hname
    exact ⟨by rw [hparent]; rfl, h⟩

/-! ## The parent -/

/-- The first piece of a text that does not start with the separator. -/
theorem head_split_ne_empty {path : String} (hroot : hasRoot path = false) (hne : path ≠ "") :
    ∃ piece rest, Text.split '/' path = piece :: rest ∧ piece ≠ "" := by
  cases hlist : path.toList with
  | nil => exact absurd (String.toList_eq_nil_iff.1 hlist) hne
  | cons c cs =>
    have hc : (c == '/') = false := by simpa [hasRoot, hlist] using hroot
    obtain ⟨piece, rest, hrest⟩ := List.exists_cons_of_ne_nil (List.splitOn_ne_nil '/' cs)
    refine ⟨String.ofList (c :: piece), rest.map String.ofList, ?_, ?_⟩
    · rw [Text.split, hlist, List.splitOn_cons_eq_if_modifyHead, hc, hrest]
      rfl
    · simp [String.ofList_eq_empty_iff]

/-- A relative path without names is empty or starts with `.`. -/
theorem start_of_names_eq_nil {path : String} (hn : names path = []) (hroot : hasRoot path = false)
    (hne : path ≠ "") : start path = [.curDir] := by
  obtain ⟨piece, rest, hsplit, hpiece⟩ := head_split_ne_empty hroot hne
  have hdot : piece = "." := by
    rw [names, hsplit, List.filter_eq_nil_iff] at hn
    simpa [hpiece] using hn piece List.mem_cons_self
  rw [start, hroot, if_neg (by simp), hsplit, hdot]
  simp

/-- **Which texts have no parent**: the empty one, and those that name nothing below the root. -/
theorem parent_eq_none_iff (path : String) :
    parent path = none ↔ names path = [] ∧ (hasRoot path = true ∨ path = "") := by
  rw [parent, getLast?_components]
  cases hn : (names path).getLast? with
  | some last =>
    have hne : names path ≠ [] := by
      intro h
      rw [h] at hn
      cases hn
    rw [Option.map_some, Option.some_or, Option.bind_some, Component.ofName]
    by_cases hdots : last = ".."
    · simp [hdots, hne]
    · simp [hdots, hne]
  | none =>
    have hnil : names path = [] := List.getLast?_eq_none_iff.1 hn
    rw [Option.map_none, Option.none_or]
    by_cases hroot : hasRoot path = true
    · simp [start, hroot, hnil]
    · rw [Bool.not_eq_true] at hroot
      by_cases hempty : path = ""
      · subst hempty
        simp [start, hroot, hnil, Text.split]
      · rw [start_of_names_eq_nil hnil hroot hempty]
        simp [hroot, hempty]

end UnixPath

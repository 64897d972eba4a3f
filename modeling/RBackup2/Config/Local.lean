import RBackup2.Lib.Url
import RBackup2.Error

/-!
# The local configuration

`config/local.rs`: `validate` refuses a configuration with an empty required text; `databaseUrl`
puts the texts of the database section together, and `create_pool` hands the result to the parser
of another crate, which is a parameter here.

* `LocalConfig.fromFile_valid` — a configuration that was loaded is valid.
* `database_url_round_trip_iff` — the parser reads back the configuration exactly when no text of
  it has a character that is reserved at its place.
-/

set_option autoImplicit false

namespace RBackup2

structure DeviceConfig where
  id : String
  deriving DecidableEq, Repr

structure DatabaseConfig where
  host : String
  port : UInt16
  user : String
  password : String
  sslMode : String
  deriving DecidableEq, Repr

structure ClientConfig where
  logFile : String
  deriving DecidableEq, Repr

structure LocalConfig where
  device : DeviceConfig
  database : DatabaseConfig
  client : ClientConfig
  deriving DecidableEq, Repr

/-! ## Validation -/

/-- The texts that must not be empty, with the paths of their fields, in the order they are
    checked. -/
def LocalConfig.required (self : LocalConfig) : List (String × String) :=
  [("device.id", self.device.id), ("database.host", self.database.host),
    ("database.user", self.database.user), ("client.log_file", self.client.logFile)]

def emptyField (field : String) : AppError :=
  .config (.validationFailed (field ++ " cannot be empty"))

def checkRequired : List (String × String) → Except AppError Unit
  | [] => .ok ()
  | (field, value) :: rest =>
    if value = "" then .error (emptyField field) else checkRequired rest

/-- `LocalConfig::validate`. -/
def LocalConfig.validate (self : LocalConfig) : Except AppError Unit := checkRequired self.required

/-- `LocalConfig::from_file`, with the contents of the file and the YAML parser. -/
def LocalConfig.fromFile (content : Except String String)
    (fromStr : String → Except String LocalConfig) : Except AppError LocalConfig :=
  match content with
  | .error e => .error (.config (.loadFailed ("Failed to read config file: " ++ e)))
  | .ok content =>
    match fromStr content with
    | .error e => .error (.config (.parseFailed ("Failed to parse YAML: " ++ e)))
    | .ok config =>
      match config.validate with
      | .error e => .error e
      | .ok () => .ok config

theorem checkRequired_ok_iff (fields : List (String × String)) :
    checkRequired fields = .ok () ↔ ∀ e ∈ fields, e.2 ≠ "" := by
  induction fields with
  | nil => simp [checkRequired]
  | cons e fields ih =>
    rw [checkRequired, List.forall_mem_cons, ← ih]
    by_cases he : e.2 = ""
    · simp [he]
    · simp [he]

/-- An error names the first field that is empty. -/
theorem checkRequired_error_iff (fields : List (String × String)) (e : AppError) :
    checkRequired fields = .error e ↔
      ∃ before field after, fields = before ++ (field, "") :: after ∧
        (∀ f ∈ before, f.2 ≠ "") ∧ e = emptyField field := by
  induction fields with
  | nil => simp [checkRequired]
  | cons f fields ih =>
    rw [checkRequired]
    by_cases hf : f.2 = ""
    · rw [if_pos hf]
      constructor
      · intro h
        cases h
        exact ⟨[], f.1, fields, by rw [← hf]; rfl, by simp, rfl⟩
      · rintro ⟨before, field, after, heq, hbefore, rfl⟩
        cases before with
        | nil =>
          rw [(List.cons.inj heq).1]
        | cons b before =>
          rw [(List.cons.inj heq).1] at hf
          exact absurd hf (hbefore b List.mem_cons_self)
    · rw [if_neg hf, ih]
      constructor
      · rintro ⟨before, field, after, rfl, hbefore, he⟩
        exact ⟨f :: before, field, after, rfl, List.forall_mem_cons.2 ⟨hf, hbefore⟩, he⟩
      · rintro ⟨before, field, after, heq, hbefore, he⟩
        cases before with
        | nil =>
          rw [(List.cons.inj heq).1] at hf
          exact absurd rfl hf
        | cons b before =>
          exact ⟨before, field, after, (List.cons.inj heq).2,
            (List.forall_mem_cons.1 hbefore).2, he⟩

theorem LocalConfig.fromFile_valid {content : Except String String}
    {fromStr : String → Except String LocalConfig} {config : LocalConfig}
    (h : fromFile content fromStr = .ok config) : config.validate = .ok () := by
  unfold fromFile at h
  split at h
  · cases h
  · split at h
    · cases h
    · split at h
      · cases h
      · rename_i hvalid
        cases h
        exact hvalid

theorem LocalConfig.user_ne {config : LocalConfig} (h : config.validate = .ok ()) :
    config.database.user ≠ "" :=
  (checkRequired_ok_iff config.required).1 h ("database.user", config.database.user)
    (by simp [required])

theorem LocalConfig.host_ne {config : LocalConfig} (h : config.validate = .ok ()) :
    config.database.host ≠ "" :=
  (checkRequired_ok_iff config.required).1 h ("database.host", config.database.host)
    (by simp [required])

theorem LocalConfig.logFile_ne {config : LocalConfig} (h : config.validate = .ok ()) :
    config.client.logFile ≠ "" :=
  (checkRequired_ok_iff config.required).1 h ("client.log_file", config.client.logFile)
    (by simp [required])

/-! ## The URL -/

/-- `LocalConfig::database_url`. -/
def LocalConfig.databaseUrl (self : LocalConfig) : String :=
  "postgresql://" ++ self.database.user ++ ":" ++ self.database.password ++ "@" ++
    self.database.host ++ ":" ++ self.database.port.toNat.repr ++ "/" ++ self.database.user ++
    "?sslmode=" ++ self.database.sslMode

/-- The parts that `create_pool` is meant to find in the URL, the database name being the user. -/
def DatabaseConfig.parts (self : DatabaseConfig) : Url.Parts where
  scheme := "postgresql"
  user := self.user
  password := some self.password
  host := self.host
  port := some self.port.toNat
  path := "/" ++ self.user
  query := [("sslmode", self.sslMode)]

/-- The URL parser that `create_pool` uses: the parts of a URL as it stores them, percent-encoded
    or not, and the texts of IPv6 addresses as it writes them. -/
structure UrlParser where
  parse : String → Option Url.Split
  address : List Char → Prop

/-- A character that may stand in a host that is no address, and that the parser leaves as it
    is. -/
def isHostChar (c : Char) : Bool :=
  decide (32 < c.toNat ∧ c.toNat < 127) &&
    !(['#', '/', ':', '<', '>', '?', '@', '[', '\\', ']', '^', '|'].contains c)

/-- A host as the parser writes it. -/
def HostText (address : List Char → Prop) (host : List Char) : Prop :=
  (∃ a, host = '[' :: (a ++ [']']) ∧ address a) ∨
    host ≠ [] ∧ ∀ c ∈ host, isHostChar c = true

/-- A path of one name; `.` and `..` are not names. -/
def OneSegment (path : String) : Prop :=
  ∃ name : String, path = "/" ++ name ∧ '/' ∉ name.toList ∧ name ≠ "." ∧ name ≠ ".."

/-- What the URL standard says about such URLs. -/
structure UrlParser.Standard (parser : UrlParser) : Prop where
  /-- An IPv6 address is written in hexadecimal digits and colons. -/
  addresses : ∀ a, parser.address a → ∀ c ∈ a, (Url.hexValue c).isSome ∨ c = ':'
  /-- What the parser returns decodes to what the text splits into; a host is written in its own
      characters, and a path never ends up as `.` or `..`. -/
  sound : ∀ rest s, parser.parse ("postgresql://" ++ rest) = some s →
    ∃ raw, Url.split (Url.prepare ("postgresql://" ++ rest).toList) = some raw ∧
      Url.percentDecode raw.user = Url.percentDecode s.user ∧
      Url.readPassword raw.password = Url.readPassword s.password ∧
      Url.decodePairs (Url.queryPairs raw.query) = Url.decodePairs (Url.queryPairs s.query) ∧
      (s.host = [] ∨ HostText parser.address s.host) ∧
      Url.percentDecode s.path ≠ some "/." ∧ Url.percentDecode s.path ≠ some "/.."
  /-- A text whose host is written as the parser writes it, and whose path is one name, is
      accepted. -/
  complete : ∀ rest parts, Url.read ("postgresql://" ++ rest) = some parts →
    HostText parser.address parts.host.toList → OneSegment parts.path →
    ∃ s, parser.parse ("postgresql://" ++ rest) = some s ∧ s.decode = some parts

/-- The parser reads back the configuration. -/
def RoundTrips (parser : UrlParser) (config : LocalConfig) : Prop :=
  ∃ s, parser.parse config.databaseUrl = some s ∧ s.decode = some config.database.parts

/-- No text has a character that is reserved or dropped at its place, nor a `%` with two
    hexadecimal digits where it is decoded; there is a password, and the host is one. -/
structure UrlSafe (address : List Char → Prop) (database : DatabaseConfig) : Prop where
  user : ∀ c ∈ database.user.toList, c ∉ [':', '/', '?', '#', '\t', '\n', '\r']
  userEscape : Url.hasEscape database.user.toList = false
  /-- The user is the name of the database, too. -/
  userDots : database.user ≠ "." ∧ database.user ≠ ".."
  password_ne : database.password ≠ ""
  password : ∀ c ∈ database.password.toList, c ∉ ['/', '?', '#', '\t', '\n', '\r']
  passwordEscape : Url.hasEscape database.password.toList = false
  host : HostText address database.host.toList
  sslMode : ∀ c ∈ database.sslMode.toList, c ∉ ['&', '#', '+', '\t', '\n', '\r']
  sslModeEscape : Url.hasEscape database.sslMode.toList = false
  /-- Blanks and control characters at the end of the URL are dropped. -/
  sslModeEnd : ∀ c, database.sslMode.toList.getLast? = some c → 32 < c.toNat

/-- Nothing in the URL tells where the password ends and the host begins. -/
theorem LocalConfig.databaseUrl_congr {a b : LocalConfig}
    (huser : a.database.user = b.database.user) (hport : a.database.port = b.database.port)
    (hssl : a.database.sslMode = b.database.sslMode)
    (h : a.database.password ++ "@" ++ a.database.host =
      b.database.password ++ "@" ++ b.database.host) : a.databaseUrl = b.databaseUrl := by
  have hassoc : ∀ c : LocalConfig, c.databaseUrl =
      "postgresql://" ++ c.database.user ++ ":" ++
        (c.database.password ++ "@" ++ c.database.host) ++ ":" ++ c.database.port.toNat.repr ++
        "/" ++ c.database.user ++ "?sslmode=" ++ c.database.sslMode := by
    intro c
    unfold databaseUrl
    simp only [String.append_assoc]
  rw [hassoc a, hassoc b, h, huser, hport, hssl]

theorem slash_toList : "/".toList = ['/'] := rfl

theorem forall_mem_of_all {p : Char → Prop} [DecidablePred p] {l : List Char}
    (h : l.all (p ·) = true) : ∀ c ∈ l, p c := by
  simpa using h

/-- The texts of the URL, for the parser. -/
def DatabaseConfig.target (database : DatabaseConfig) (h : database.user ≠ "") : Url.Target where
  scheme := "postgresql"
  user := database.user
  password := database.password
  host := database.host
  port := database.port.toNat
  path := "/" ++ database.user
  key := "sslmode"
  value := database.sslMode
  scheme_plain := forall_mem_of_all (by decide)
  user_ne := h
  port_lt := database.port.toNat_lt
  path_slash := by rw [String.toList_append, slash_toList, List.singleton_append, List.head?_cons]
  key_plain := forall_mem_of_all (by decide)
  key_escape := by decide

theorem LocalConfig.databaseUrl_eq (config : LocalConfig) (h : config.database.user ≠ "") :
    config.databaseUrl = (config.database.target h).write := by
  have hscheme : "postgresql://" = "postgresql" ++ "://" := by simp
  have hquery : "?sslmode=" = "?" ++ ("sslmode" ++ "=") := by simp
  unfold databaseUrl Url.Target.write DatabaseConfig.target
  dsimp only
  rw [hscheme, hquery]
  simp only [String.append_assoc]

theorem LocalConfig.exists_databaseUrl (config : LocalConfig) :
    ∃ rest, config.databaseUrl = "postgresql://" ++ rest := by
  unfold databaseUrl
  simp only [String.append_assoc]
  exact ⟨_, rfl⟩

theorem isDelim_eq_false_iff (c : Char) : Url.isDelim c = false ↔ c ∉ ['/', '?', '#'] := by
  simp [Url.isDelim, and_assoc]

theorem isBreak_eq_false_iff (c : Char) : Url.isBreak c = false ↔ c ∉ ['\t', '\n', '\r'] := by
  simp [Url.isBreak, and_assoc]

theorem hasEscape_slash_cons (l : List Char) :
    Url.hasEscape ('/' :: l) = Url.hasEscape l := by
  rw [Url.hasEscape]
  intro x y l' h
  cases h

/-! ### Hosts -/

/-- A host character is none that means something in the authority, and it is not dropped. -/
theorem isHostChar_spec {c : Char} (h : isHostChar c = true) :
    c ≠ '[' ∧ c ≠ ':' ∧ c ≠ '@' ∧ Url.isDelim c = false ∧ Url.isBreak c = false := by
  unfold isHostChar at h
  rw [Bool.and_eq_true, decide_eq_true_iff] at h
  obtain ⟨⟨hlow, -⟩, hno⟩ := h
  simp only [List.contains_eq_mem, List.mem_cons, List.not_mem_nil, or_false, Bool.not_eq_true',
    decide_eq_false_iff_not, not_or] at hno
  obtain ⟨hhash, hslash, hcolon, -, -, hmark, hat, hopen, -⟩ := hno
  refine ⟨hopen, hcolon, hat, ?_, ?_⟩
  · simp [Url.isDelim, hslash, hmark, hhash]
  · rw [isBreak_eq_false_iff]
    intro hm
    simp only [List.mem_cons, List.not_mem_nil, or_false] at hm
    rcases hm with rfl | rfl | rfl <;> exact absurd hlow (by decide)

/-- Nor is a character of an address. -/
theorem address_spec {c : Char} (h : (Url.hexValue c).isSome ∨ c = ':') :
    c ≠ ']' ∧ c ≠ '@' ∧ Url.isDelim c = false ∧ Url.isBreak c = false := by
  have hne : ∀ d, (Url.hexValue d).isSome = false → d ≠ ':' → c ≠ d := by
    rintro d hd hcolon rfl
    rcases h with h | h
    · rw [hd] at h
      cases h
    · exact hcolon h
  refine ⟨hne ']' rfl (by decide), hne '@' rfl (by decide), ?_, ?_⟩
  · rw [isDelim_eq_false_iff]
    simp only [List.mem_cons, List.not_mem_nil, or_false, not_or]
    exact ⟨hne '/' rfl (by decide), hne '?' rfl (by decide), hne '#' rfl (by decide)⟩
  · rw [isBreak_eq_false_iff]
    simp only [List.mem_cons, List.not_mem_nil, or_false, not_or]
    exact ⟨hne '\t' rfl (by decide), hne '\n' rfl (by decide), hne '\r' rfl (by decide)⟩

theorem UrlParser.Standard.host_chars {parser : UrlParser} (hp : parser.Standard)
    {host : List Char} (h : HostText parser.address host) :
    (∀ c ∈ host, c ≠ '@' ∧ Url.isDelim c = false ∧ Url.isBreak c = false) ∧
      Url.HostShape host := by
  rcases h with ⟨a, rfl, ha⟩ | ⟨-, hchars⟩
  · refine ⟨fun c hc => ?_, a, rfl, fun hm => (address_spec (hp.addresses a ha _ hm)).1 rfl⟩
    simp only [List.mem_cons, List.mem_append, List.not_mem_nil, or_false] at hc
    rcases hc with rfl | hc | rfl
    · decide
    · exact (address_spec (hp.addresses a ha c hc)).2
    · decide
  · refine ⟨fun c hc => (isHostChar_spec (hchars c hc)).2.2, ?_⟩
    rw [Url.hostShape_of_head]
    · exact fun hm => (isHostChar_spec (hchars _ hm)).2.1 rfl
    · intro hhead
      obtain ⟨l, rfl⟩ := Url.exists_of_bracket hhead
      exact (isHostChar_spec (hchars _ List.mem_cons_self)).1 rfl

/-! ### Both directions -/

/-- The database name needs no condition of its own but one, the user has them all. -/
theorem DatabaseConfig.path_plain {database : DatabaseConfig}
    (huser : ∀ c ∈ database.user.toList, Url.isDelim c = false ∧ Url.isBreak c = false) :
    ∀ c ∈ ("/" ++ database.user).toList, Url.isPathEnd c = false ∧ Url.isBreak c = false := by
  intro c hc
  rw [String.toList_append, slash_toList, List.singleton_append, List.mem_cons] at hc
  rcases hc with rfl | hc
  · decide
  · obtain ⟨hdelim, hbreak⟩ := huser c hc
    refine ⟨?_, hbreak⟩
    rw [isDelim_eq_false_iff] at hdelim
    simp only [List.mem_cons, List.not_mem_nil, or_false, not_or] at hdelim
    simp [Url.isPathEnd, hdelim]

theorem DatabaseConfig.path_escape (database : DatabaseConfig) :
    Url.hasEscape ("/" ++ database.user).toList = Url.hasEscape database.user.toList := by
  rw [String.toList_append, slash_toList, List.singleton_append, hasEscape_slash_cons]

section RoundTrip

variable {parser : UrlParser} {database : DatabaseConfig}

theorem UrlSafe.user_plain (hs : UrlSafe parser.address database) :
    ∀ c ∈ database.user.toList, c ≠ ':' ∧ Url.isDelim c = false ∧ Url.isBreak c = false := by
  intro c hc
  have hno := hs.user c hc
  rw [isDelim_eq_false_iff, isBreak_eq_false_iff]
  simp only [List.mem_cons, List.not_mem_nil, or_false, not_or] at hno ⊢
  tauto

theorem UrlSafe.plain (hp : parser.Standard) (hs : UrlSafe parser.address database)
    (h : database.user ≠ "") : (database.target h).Plain where
  user := hs.user_plain
  userEscape := hs.userEscape
  password_ne := hs.password_ne
  password := by
    intro c hc
    have hno := hs.password c hc
    rw [isDelim_eq_false_iff, isBreak_eq_false_iff]
    simp only [List.mem_cons, List.not_mem_nil, or_false, not_or] at hno ⊢
    tauto
  passwordEscape := hs.passwordEscape
  host := (hp.host_chars hs.host).1
  hostShape := (hp.host_chars hs.host).2
  path := database.path_plain fun c hc => (hs.user_plain c hc).2
  pathEscape := database.path_escape.trans hs.userEscape
  value := by
    intro c hc
    have hno := hs.sslMode c hc
    rw [isBreak_eq_false_iff]
    simp only [List.mem_cons, List.not_mem_nil, or_false, not_or] at hno ⊢
    tauto
  valueEscape := hs.sslModeEscape
  valueEnd := by
    intro c hc
    have hlow := hs.sslModeEnd c hc
    simp only [Url.isStripped, decide_eq_false_iff_not]
    omega

theorem UrlSafe.oneSegment (hs : UrlSafe parser.address database) :
    OneSegment ("/" ++ database.user) :=
  ⟨database.user, rfl, fun hm => hs.user _ hm (by decide), hs.userDots.1, hs.userDots.2⟩

theorem urlSafe_of_plain {h : database.user ≠ ""} (hplain : (database.target h).Plain)
    (hhost : HostText parser.address database.host.toList)
    (hdots : database.user ≠ "." ∧ database.user ≠ "..") : UrlSafe parser.address database where
  user := by
    intro c hc
    obtain ⟨hcolon, hdelim, hbreak⟩ := hplain.user c hc
    rw [isDelim_eq_false_iff] at hdelim
    rw [isBreak_eq_false_iff] at hbreak
    simp only [List.mem_cons, List.not_mem_nil, or_false, not_or] at hdelim hbreak ⊢
    tauto
  userEscape := hplain.userEscape
  userDots := hdots
  password_ne := hplain.password_ne
  password := by
    intro c hc
    obtain ⟨hdelim, hbreak⟩ := hplain.password c hc
    rw [isDelim_eq_false_iff] at hdelim
    rw [isBreak_eq_false_iff] at hbreak
    simp only [List.mem_cons, List.not_mem_nil, or_false, not_or] at hdelim hbreak ⊢
    tauto
  passwordEscape := hplain.passwordEscape
  host := hhost
  sslMode := by
    intro c hc
    obtain ⟨hno, hbreak⟩ := hplain.value c hc
    rw [isBreak_eq_false_iff] at hbreak
    simp only [List.mem_cons, List.not_mem_nil, or_false, not_or] at hno hbreak ⊢
    tauto
  sslModeEscape := hplain.valueEscape
  sslModeEnd := by
    intro c hc
    have hend := hplain.valueEnd c hc
    simp only [Url.isStripped, decide_eq_false_iff_not] at hend
    omega

end RoundTrip

section Parser

variable {parser : UrlParser} {config : LocalConfig}

theorem UrlSafe.roundTrips (hp : parser.Standard) (h : config.database.user ≠ "")
    (hs : UrlSafe parser.address config.database) : RoundTrips parser config := by
  obtain ⟨rest, hrest⟩ := config.exists_databaseUrl
  have hread := (hs.plain hp h).read
  rw [← config.databaseUrl_eq, hrest] at hread
  rw [RoundTrips, hrest]
  exact hp.complete rest _ hread hs.host hs.oneSegment

/-- The host that is read back is a host, the other texts are what the URL splits into. -/
theorem RoundTrips.urlSafe (hp : parser.Standard) (hvalid : config.validate = .ok ())
    (h : RoundTrips parser config) : UrlSafe parser.address config.database := by
  obtain ⟨rest, hrest⟩ := config.exists_databaseUrl
  obtain ⟨s, hparse, hdecode⟩ := h
  rw [hrest] at hparse
  obtain ⟨raw, hsplit, huser, hpassword, hquery, hhost, hdot, hdots⟩ := hp.sound rest s hparse
  obtain ⟨-, hsuser, hspassword, hshost, -, hspath, hsquery⟩ :=
    Url.Split.decode_eq_some_iff.1 hdecode
  have hhostText : HostText parser.address config.database.host.toList := by
    rw [hshost] at hhost
    refine hhost.resolve_left fun hnil => config.host_ne hvalid ?_
    exact String.toList_inj.1 hnil
  have hne := config.user_ne hvalid
  rw [← hrest, config.databaseUrl_eq hne] at hsplit
  have hplain := Url.Target.plain_of_read hsplit (huser.trans hsuser) (hpassword.trans hspassword)
    (hquery.trans hsquery) (hp.host_chars hhostText).1 (hp.host_chars hhostText).2
    fun hchars hescape =>
      ⟨config.database.path_plain hchars, config.database.path_escape.trans hescape⟩
  refine urlSafe_of_plain hplain hhostText ⟨?_, ?_⟩
  · intro he
    rw [hspath, DatabaseConfig.parts, he] at hdot
    exact hdot rfl
  · intro he
    rw [hspath, DatabaseConfig.parts, he] at hdots
    exact hdots rfl

theorem roundTrips_iff (hp : parser.Standard) (h : config.validate = .ok ()) :
    RoundTrips parser config ↔ UrlSafe parser.address config.database :=
  ⟨RoundTrips.urlSafe hp h, UrlSafe.roundTrips hp (config.user_ne h)⟩

/-- Configurations that are read back from the same URL have the same database section. -/
theorem RoundTrips.database_eq {other : LocalConfig} (h : RoundTrips parser config)
    (h' : RoundTrips parser other) (hurl : other.databaseUrl = config.databaseUrl) :
    other.database = config.database := by
  obtain ⟨s, hparse, hdecode⟩ := h
  obtain ⟨s', hparse', hdecode'⟩ := h'
  rw [hurl, hparse, Option.some.injEq] at hparse'
  rw [← hparse', hdecode] at hdecode'
  simp only [DatabaseConfig.parts, Option.some.injEq, Url.Parts.mk.injEq, List.cons.injEq,
    Prod.mk.injEq, true_and, and_true, UInt16.toNat_inj] at hdecode'
  obtain ⟨huser, hpassword, hhost, hport, -, hssl⟩ := hdecode'
  cases hc : config.database
  cases ho : other.database
  simp only [hc, ho] at huser hpassword hhost hport hssl
  rw [huser, hpassword, hhost, hport, hssl]

end Parser

/-- **The URL of an accepted configuration is read back as the configuration exactly when none of
    its texts has a reserved character at its place; of two such configurations with different
    credentials the URLs differ.** -/
theorem database_url_round_trip_iff {parser : UrlParser} (hp : parser.Standard)
    (config : LocalConfig) (h : config.validate = .ok ()) :
    (RoundTrips parser config ↔ UrlSafe parser.address config.database) ∧
      (UrlSafe parser.address config.database → ∀ other : LocalConfig, other.validate = .ok () →
        UrlSafe parser.address other.database → other.databaseUrl = config.databaseUrl →
        other.database = config.database) := by
  refine ⟨roundTrips_iff hp h, fun hs other hother hsother hurl => ?_⟩
  exact RoundTrips.database_eq ((roundTrips_iff hp h).2 hs)
    ((roundTrips_iff hp hother).2 hsother) hurl

/-! ## A parser -/

/-- A host and a path that a parser has to accept. -/
def Acceptable (address : List Char → Prop) (parts : Url.Parts) : Prop :=
  HostText address parts.host.toList ∧ OneSegment parts.path

open Classical in
/-- A parser that accepts no more than it has to, and one address. -/
noncomputable def UrlParser.reference : UrlParser where
  parse text := (Url.split (Url.prepare text.toList)).bind fun s =>
    if ∃ parts, s.decode = some parts ∧ Acceptable (· = "::1".toList) parts then some s else none
  address a := a = "::1".toList

theorem UrlParser.reference_standard : reference.Standard where
  addresses a ha := by
    rw [show a = [':', ':', '1'] from ha]
    exact forall_mem_of_all (by decide)
  sound rest s hs := by
    obtain ⟨raw, hsplit, hraw⟩ := Option.bind_eq_some_iff.1 hs
    split at hraw
    · rename_i hex
      obtain ⟨parts, hdecode, hhost, name, hpath, -, hdot, hdots⟩ := hex
      cases hraw
      obtain ⟨-, -, -, hshost, -, hspath, -⟩ := Url.Split.decode_eq_some_iff.1 hdecode
      refine ⟨s, hsplit, rfl, rfl, rfl, .inr (by rw [hshost]; exact hhost), ?_, ?_⟩
      · rw [hspath, hpath, Ne, Option.some.injEq, show "/." = "/" ++ "." by simp,
          String.append_right_inj]
        exact hdot
      · rw [hspath, hpath, Ne, Option.some.injEq, show "/.." = "/" ++ ".." by simp,
          String.append_right_inj]
        exact hdots
    · cases hraw
  complete rest parts hread hhost hpath := by
    obtain ⟨s, hsplit, hdecode⟩ := Option.bind_eq_some_iff.1 hread
    refine ⟨s, ?_, hdecode⟩
    show (Url.split (Url.prepare ("postgresql://" ++ rest).toList)).bind _ = some s
    rw [hsplit, Option.bind_some, if_pos ⟨parts, hdecode, hhost, hpath⟩]

/-- A configuration with the given host and password. -/
def LocalConfig.withPassword (host password : String) : LocalConfig where
  device := ⟨"blade"⟩
  database := ⟨host, 5432, "backup_user", password, "require"⟩
  client := ⟨"/var/log/rbackup2.log"⟩

theorem LocalConfig.withPassword_valid {host : String} (h : host ≠ "") (password : String) :
    (withPassword host password).validate = .ok () := by
  rw [validate, checkRequired_ok_iff]
  simp [required, withPassword, h]

theorem LocalConfig.withPassword_urlSafe {address : List Char → Prop} {host : String}
    (hhost : HostText address host.toList) (password : String) (hne : password ≠ "")
    (hchars : ∀ c ∈ password.toList, c ∉ ['/', '?', '#', '\t', '\n', '\r'])
    (hescape : Url.hasEscape password.toList = false) :
    UrlSafe address (withPassword host password).database where
  user := forall_mem_of_all (l := "backup_user".toList) (by decide)
  userEscape := show Url.hasEscape "backup_user".toList = false by decide
  userDots := show "backup_user" ≠ "." ∧ "backup_user" ≠ ".." by decide
  password_ne := hne
  password := hchars
  passwordEscape := hescape
  host := hhost
  sslMode := forall_mem_of_all (l := "require".toList) (by decide)
  sslModeEscape := show Url.hasEscape "require".toList = false by decide
  sslModeEnd c hc := by
    have hlast : "require".toList.getLast? = some 'e' := by decide
    obtain rfl : 'e' = c := Option.some.inj (hlast.symm.trans hc)
    decide

theorem database_url_round_trip_iff_ipv6 :
    RoundTrips .reference (.withPassword "[::1]" "p@ss:word") ∧
      (LocalConfig.withPassword "[::1]" "p@ss").databaseUrl ≠
        (LocalConfig.withPassword "[::1]" "p@ss:word").databaseUrl := by
  have hvalid : ∀ password, (LocalConfig.withPassword "[::1]" password).validate = .ok () :=
    LocalConfig.withPassword_valid (by simp)
  have hhost : HostText (· = "::1".toList) "[::1]".toList := .inl ⟨[':', ':', '1'], rfl, rfl⟩
  have hsafe := LocalConfig.withPassword_urlSafe hhost "p@ss:word" (by simp)
    (forall_mem_of_all (by decide)) (by decide)
  have hother := LocalConfig.withPassword_urlSafe hhost "p@ss" (by simp)
    (forall_mem_of_all (by decide)) (by decide)
  obtain ⟨hround, hdistinct⟩ := database_url_round_trip_iff UrlParser.reference_standard _
    (hvalid "p@ss:word")
  refine ⟨hround.2 hsafe, fun hurl => ?_⟩
  have hsame := hdistinct hsafe _ (hvalid "p@ss") hother hurl
  exact absurd hsame (by decide)

/-- A slash in the password ends the authority, and a host with an `@` takes part of a password
    over: two accepted configurations with different passwords have one URL. -/
theorem reserved_password_misread :
    (LocalConfig.withPassword "localhost" "p/w").validate = .ok () ∧
    (∀ parser : UrlParser, parser.Standard →
      ¬ RoundTrips parser (.withPassword "localhost" "p/w")) ∧
    (LocalConfig.withPassword "x@localhost" "p").validate = .ok () ∧
    (LocalConfig.withPassword "localhost" "p@x").validate = .ok () ∧
    (LocalConfig.withPassword "x@localhost" "p").databaseUrl =
      (LocalConfig.withPassword "localhost" "p@x").databaseUrl := by
  have hvalid : ∀ password, (LocalConfig.withPassword "localhost" password).validate = .ok () :=
    LocalConfig.withPassword_valid (by simp)
  refine ⟨hvalid "p/w", ?_, LocalConfig.withPassword_valid (by simp) "p", hvalid "p@x",
    LocalConfig.databaseUrl_congr rfl rfl rfl ?_⟩
  · intro parser hp
    rw [roundTrips_iff hp (hvalid "p/w")]
    intro hs
    exact hs.password '/' (by decide) (by decide)
  · simp [LocalConfig.withPassword]

end RBackup2

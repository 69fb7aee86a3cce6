import Mathlib.Data.List.TakeWhile
import SchedulingService.Js.Numerals
import SchedulingService.Js.Value
import SchedulingService.Lib.PercentEncoding

/-!
# The database options

The database is configured by one URL or by a variable for each of its parts. A
URL has the parts percent-encoded, and `parseDatabaseUrl` takes them as they are.

Main result: `sameDatabase_iff` — when the two ways lead to the same options.
-/

namespace SchedulingService.App

open Js Lib.PercentEncoding

/-! ## What the factory takes from its surroundings -/

/-- The configuration by key; `undefined` for what is not set. -/
structure ConfigService where
  value : String → Value

/-- `get(key, default)`. -/
def ConfigService.get (configService : ConfigService) (key : String) (default : Value) : Value :=
  match configService.value key with
  | .undefined => default
  | v => v

/-- The parts of a URL that are read. -/
structure Url where
  hostname : String
  port : String
  username : String
  password : String
  pathname : String

/-- `new URL(url)`; `none` where it throws. -/
abbrev UrlClass := String → Option Url

/-! ## `typeorm.ts` -/

def DEFAULT_POSTGRES_PORT : Value := .num 5432

structure DatabaseConfig where
  host : Value
  port : Value
  username : Value
  password : Value
  database : Value

/-- `parseInt(port, 10) || DEFAULT_POSTGRES_PORT` of no digits or some. -/
def portOrDefault (port : String) : Value :=
  if port = "" then DEFAULT_POSTGRES_PORT
  else match Js.parseInt port.toList with
    | none => .num (.inf false)
    | some 0 => DEFAULT_POSTGRES_PORT
    | some n => .num (.fin n)

/-- `text.slice(1)`. -/
def sliceOne (text : String) : String := String.ofList (text.toList.drop 1)

def parseDatabaseUrl (parse : UrlClass) (url : String) : Option DatabaseConfig := do
  let parsed ← parse url
  some {
    host := .str parsed.hostname
    port := portOrDefault parsed.port
    username := .str parsed.username
    password := .str parsed.password
    database := .str (sliceOne parsed.pathname) }

def getEnvDatabaseConfig (configService : ConfigService) : DatabaseConfig where
  host := configService.get "DB_HOST" (.str "localhost")
  port := configService.get "DB_PORT" DEFAULT_POSTGRES_PORT
  username := configService.get "DB_USERNAME" (.str "postgres")
  password := configService.get "DB_PASSWORD" (.str "password")
  database := configService.get "DB_NAME" (.str "scheduling_service")

/-- `ENTITIES`, by their classes' names. -/
def ENTITIES : List String :=
  ["Job", "Schedule", "Execution", "JobCategory", "ExecutionLog", "RecurringJob", "JobDependency",
    "ScheduledMessage"]

def migrations : List String :=
  ["InitialSchema1743070800000", "AddScheduledMessages1743070800001",
    "AddProcessingStatusScheduledMessages1746790000000",
    "AlterScheduledMessagesTimestamptz1746830000000", "JobsCategoryFkSetNull1746900000000",
    "AddRetryCountScheduledMessages1746950000000"]

structure DataSourceOptions where
  type : String
  entities : List String
  logging : Bool
  migrations : List String
  migrationsRun : Bool
  synchronize : Bool

/-- `configService.get(key, 'false') === 'true'`. -/
def ConfigService.flag (configService : ConfigService) (key : String) : Bool :=
  match configService.get key (.str "false") with
  | .str text => text = "true"
  | _ => false

def getDataSourceOptions (configService : ConfigService) : DataSourceOptions where
  type := "postgres"
  entities := ENTITIES
  logging := configService.flag "DB_LOGGING"
  migrations := migrations
  migrationsRun := configService.flag "DB_MIGRATIONS_RUN"
  synchronize := configService.flag "DB_SYNCHRONIZE"

/-- The two spread into one object; no property is in both. -/
structure TypeOrmModuleOptions extends DatabaseConfig, DataSourceOptions

/-- `typeOrmModuleOptionsFactory`; `none` where it rejects. -/
def typeOrmModuleOptionsFactory (parse : UrlClass) (configService : ConfigService) :
    Option TypeOrmModuleOptions := do
  let databaseConfig ← match configService.get "DB_URL" .undefined with
    | .str url =>
      if url = "" then some (getEnvDatabaseConfig configService) else parseDatabaseUrl parse url
    -- what is set but no text is no URL
    | v => if v.truthy then none else some (getEnvDatabaseConfig configService)
  some { databaseConfig, getDataSourceOptions configService with }

/-! ## The two ways of configuring -/

/-- The characters that `encodeURIComponent` keeps. -/
def isUnreserved (c : Char) : Bool := c.isAlphanum || "-_.!~*'()".toList.contains c

def encodeURIComponent (text : String) : String := encode isUnreserved text

/-- A host name, in the characters of one. -/
def IsHostName (host : String) : Prop :=
  host ≠ "" ∧ ∀ c ∈ host.toList, (c.isAlphanum || "-._".toList.contains c) = true

/-- What a database is configured with. -/
structure Parts where
  host : String
  port : Nat
  username : String
  password : String
  database : String
  isHostName : IsHostName host
  port_pos : 1 ≤ port
  port_le : port ≤ 65535

/-- The decimal text of a port. -/
def portText (port : Nat) : String := String.ofList (Nat.toDigits 10 port)

/-- A URL of components that are already encoded; the port may be left out. -/
def urlText (username password hostname : String) (port : Option Nat) (segment : String) : String :=
  "postgresql://" ++ (username ++ ":" ++ password ++ "@" ++ hostname ++
    port.elim "" (fun p => ":" ++ portText p) ++ "/" ++ segment)

/-- The path segments that are not names: this directory and the one above. -/
def dotSegments : List String :=
  [".", "%2e", "%2E", "..", ".%2e", ".%2E", "%2e.", "%2E.", "%2e%2e", "%2e%2E", "%2E%2e",
    "%2E%2E"]

/-- Nothing in the text is a delimiter or is to be encoded. -/
def IsEncoded (text : String) : Prop := ∀ c ∈ text.toList, isUnreserved c = true ∨ c = '%'

/-- **The URL class**: components that need no encoding are returned as they are,
without decoding, and the port is empty when absent. Of the path, which ends in the
segment, segments of dots go. -/
def ReturnsEncoded (parse : UrlClass) : Prop :=
  ∀ username password hostname port segment, IsEncoded username → IsEncoded password →
    IsHostName hostname → (∀ p, port = some p → 1 ≤ p ∧ p ≤ 65535) → IsEncoded segment →
      parse (urlText username password hostname port segment) = some {
        hostname
        port := port.elim "" portText
        username
        password
        pathname := "/" ++ if segment ∈ dotSegments then "" else segment }

/-- `DB_URL` is built from the parts; a port that is the default may be left out. -/
structure GivesUrl (configService : ConfigService) (parts : Parts) (port : Option Nat) : Prop where
  isPort : port = some parts.port ∨ port = none ∧ parts.port = 5432
  url : configService.value "DB_URL" = .str (urlText (encodeURIComponent parts.username)
    (encodeURIComponent parts.password) parts.host port (encodeURIComponent parts.database))

/-- The parts are given one by one, and no URL. The port is given as a number or as its
text. -/
structure GivesParts (configService : ConfigService) (parts : Parts) (port : Value) : Prop where
  noUrl : (configService.get "DB_URL" .undefined).truthy = false
  host : configService.value "DB_HOST" = .str parts.host
  isPort : port = .num (.fin parts.port) ∨ port = .str (portText parts.port)
  port : configService.value "DB_PORT" = port
  username : configService.value "DB_USERNAME" = .str parts.username
  password : configService.value "DB_PASSWORD" = .str parts.password
  database : configService.value "DB_NAME" = .str parts.database

/-- Every character stands for itself in a URL. -/
def Unreserved (text : String) : Prop := ∀ c ∈ text.toList, isUnreserved c = true

/-- What is read from the URL needs no decoding, and the database's name is not read
as a place in the path. -/
structure NeedsNoDecoding (parts : Parts) : Prop where
  username : Unreserved parts.username
  password : Unreserved parts.password
  database : Unreserved parts.database
  noDots : parts.database ≠ "." ∧ parts.database ≠ ".."

/-- A port as a number, where it is the text of one. -/
def asNumber : Value → Value
  | .str text => .num ((Js.parseInt text.toList).elim (.inf false) fun n => .fin n)
  | v => v

/-- The options with such a port. -/
def DatabaseConfig.withNumber (config : DatabaseConfig) : DatabaseConfig :=
  { config with port := asNumber config.port }

/-- Both configurations lead to the same database, as far as `view` tells. -/
def SameDatabase (view : DatabaseConfig → DatabaseConfig) (parse : UrlClass)
    (byUrl byParts : ConfigService) : Prop :=
  ∃ options options', typeOrmModuleOptionsFactory parse byUrl = some options ∧
    typeOrmModuleOptionsFactory parse byParts = some options' ∧
      view options.toDatabaseConfig = view options'.toDatabaseConfig

/-! ## Encoded components -/

theorem isEncoded_encodeURIComponent (text : String) : IsEncoded (encodeURIComponent text) := by
  intro c hc
  rw [encodeURIComponent, encode, String.toList_ofList] at hc
  have hdigit : ∀ x < 16, isUnreserved (upperDigit x) = true := by decide
  rcases mem_encodeChars hc with hkeep | rfl | ⟨x, hx, rfl⟩
  · exact .inl hkeep
  · exact .inr rfl
  · exact .inl (hdigit x hx)

/-- A text whose encoding is read as dots is dots itself. -/
theorem encodeURIComponent_mem_dotSegments {text : String} :
    encodeURIComponent text ∈ dotSegments ↔ text = "." ∨ text = ".." := by
  have hbytes : ∀ segment ∈ dotSegments, bytes segment.toList = ".".toList.flatMap
      String.utf8EncodeChar ∨ bytes segment.toList = "..".toList.flatMap String.utf8EncodeChar := by
    decide
  constructor
  · intro h
    have hpercent : isUnreserved '%' = false := by decide
    rcases hbytes _ h with hone | htwo
    · exact .inl (eq_of_bytes_encode hpercent hone)
    · exact .inr (eq_of_bytes_encode hpercent htwo)
  · rintro (rfl | rfl)
    · decide
    · decide

theorem encodeURIComponent_eq_self_iff {text : String} :
    encodeURIComponent text = text ↔ Unreserved text :=
  encode_eq_self_iff

/-- The name that is read from the path is the database's own. -/
theorem segment_eq_iff {text : String} :
    (if encodeURIComponent text ∈ dotSegments then "" else encodeURIComponent text) = text ↔
      Unreserved text ∧ text ≠ "." ∧ text ≠ ".." := by
  split
  · rename_i hmem
    have hdots := encodeURIComponent_mem_dotSegments.mp hmem
    refine iff_of_false ?_ fun h => hdots.elim h.2.1 h.2.2
    rintro hempty
    rcases hdots with rfl | rfl
    · exact absurd hempty (by decide)
    · exact absurd hempty (by decide)
  · rename_i hmem
    have hdots := fun h => hmem (encodeURIComponent_mem_dotSegments.mpr h)
    rw [encodeURIComponent_eq_self_iff]
    exact ⟨fun h => ⟨h, fun hone => hdots (.inl hone), fun htwo => hdots (.inr htwo)⟩, fun h => h.1⟩

/-! ## Each way -/

/-- What is read from a URL of the parts. -/
def encodedConfig (parts : Parts) : DatabaseConfig where
  host := .str parts.host
  port := .num (.fin parts.port)
  username := .str (encodeURIComponent parts.username)
  password := .str (encodeURIComponent parts.password)
  database := .str (if encodeURIComponent parts.database ∈ dotSegments then ""
    else encodeURIComponent parts.database)

/-- What the parts are, one by one. -/
def plainConfig (parts : Parts) (port : Value) : DatabaseConfig where
  host := .str parts.host
  port
  username := .str parts.username
  password := .str parts.password
  database := .str parts.database

section Ways

variable {parse : UrlClass} {configService : ConfigService} {parts : Parts}

theorem portOrDefault_portText {port : Nat} (hpos : 1 ≤ port) (hle : port ≤ 65535) :
    portOrDefault (portText port) = .num (.fin port) := by
  have hsafe : 65535 < safe := by decide
  have hdigits : (portText port).toList = Nat.toDigits 10 port := String.toList_ofList
  have hne : portText port ≠ "" := by
    intro hempty
    have hnil := congrArg String.toList hempty
    rw [hdigits] at hnil
    exact (Lib.Numerals.isNumeral_toDigits port).1 hnil
  rw [portOrDefault, if_neg hne, hdigits, parseInt_toDigits (by omega)]
  obtain ⟨n, rfl⟩ : ∃ n, port = n + 1 := ⟨port - 1, by omega⟩
  rfl

theorem portOrDefault_of_gives {port : Option Nat}
    (hport : port = some parts.port ∨ port = none ∧ parts.port = 5432) :
    portOrDefault (port.elim "" portText) = .num (.fin parts.port) := by
  rcases hport with rfl | ⟨rfl, hdefault⟩
  · exact portOrDefault_portText parts.port_pos parts.port_le
  · rw [hdefault]
    rfl

theorem sliceOne_slash (text : String) : sliceOne ("/" ++ text) = text := by
  rw [sliceOne, String.toList_append]
  exact String.ofList_toList

theorem scheme_append_ne_empty (rest : String) : "postgresql://" ++ rest ≠ "" := by
  intro hempty
  have hlength := congrArg String.length hempty
  rw [String.length_append] at hlength
  have hscheme : "postgresql://".length = 13 := by decide
  have hzero : "".length = 0 := rfl
  omega

/-- **By URL** the options have the parts encoded. -/
theorem factory_of_gives_url {port : Option Nat} (hparse : ReturnsEncoded parse)
    (h : GivesUrl configService parts port) :
    ∃ options, typeOrmModuleOptionsFactory parse configService = some options ∧
      options.toDatabaseConfig = encodedConfig parts := by
  have hrange : ∀ p, port = some p → 1 ≤ p ∧ p ≤ 65535 := by
    rintro p rfl
    rcases h.isPort with hp | ⟨hp, -⟩
    · obtain rfl := Option.some.inj hp
      exact ⟨parts.port_pos, parts.port_le⟩
    · cases hp
  have hget : configService.get "DB_URL" .undefined = .str (urlText
      (encodeURIComponent parts.username) (encodeURIComponent parts.password) parts.host port
      (encodeURIComponent parts.database)) := by
    rw [ConfigService.get, h.url]
  -- the class returns the components as they stand in the URL
  have hparsed := hparse _ _ _ port _ (isEncoded_encodeURIComponent parts.username)
    (isEncoded_encodeURIComponent parts.password) parts.isHostName hrange
    (isEncoded_encodeURIComponent parts.database)
  have hconfig : parseDatabaseUrl parse (urlText (encodeURIComponent parts.username)
      (encodeURIComponent parts.password) parts.host port (encodeURIComponent parts.database)) =
      some (encodedConfig parts) := by
    rw [parseDatabaseUrl, hparsed, Option.bind_eq_bind, Option.bind_some,
      portOrDefault_of_gives h.isPort, sliceOne_slash]
    rfl
  refine ⟨{ encodedConfig parts, getDataSourceOptions configService with }, ?_, rfl⟩
  unfold typeOrmModuleOptionsFactory
  rw [hget]
  simp only [urlText, scheme_append_ne_empty, if_false] at hconfig ⊢
  rw [hconfig]
  rfl

variable (parse) in
/-- **By parts** they have them as they are. -/
theorem factory_of_gives_parts {port : Value} (h : GivesParts configService parts port) :
    ∃ options, typeOrmModuleOptionsFactory parse configService = some options ∧
      options.toDatabaseConfig = plainConfig parts port := by
  have hconfig : getEnvDatabaseConfig configService = plainConfig parts port := by
    have hport : configService.get "DB_PORT" DEFAULT_POSTGRES_PORT = port := by
      rw [ConfigService.get, h.port]
      rcases h.isPort with rfl | rfl <;> rfl
    simp only [getEnvDatabaseConfig, hport]
    simp only [ConfigService.get, h.host, h.username, h.password, h.database]
    rfl
  refine ⟨{ getEnvDatabaseConfig configService, getDataSourceOptions configService with }, ?_,
    hconfig⟩
  have hurl := h.noUrl
  unfold typeOrmModuleOptionsFactory
  -- an empty DB_URL is as good as none
  split
  · rename_i url hget
    rw [hget] at hurl
    have hempty : url = "" := by simpa [Value.truthy] using hurl
    rw [if_pos hempty]
    rfl
  · rw [hurl]
    rfl

end Ways

theorem sameDatabase_iff_eq (view : DatabaseConfig → DatabaseConfig) {parse : UrlClass}
    (hparse : ReturnsEncoded parse) {parts : Parts} {byUrl byParts : ConfigService}
    {urlPort : Option Nat} {port : Value} (hurl : GivesUrl byUrl parts urlPort)
    (hparts : GivesParts byParts parts port) :
    SameDatabase view parse byUrl byParts ↔
      view (encodedConfig parts) = view (plainConfig parts port) := by
  obtain ⟨options, hoptions, hconfig⟩ := factory_of_gives_url hparse hurl
  obtain ⟨options', hoptions', hconfig'⟩ := factory_of_gives_parts parse hparts
  rw [← hconfig, ← hconfig']
  constructor
  · rintro ⟨o, o', ho, ho', heq⟩
    obtain rfl := Option.some.inj (hoptions.symm.trans ho)
    obtain rfl := Option.some.inj (hoptions'.symm.trans ho')
    exact heq
  · intro heq
    exact ⟨options, options', hoptions, hoptions', heq⟩

theorem encodedConfig_eq_iff {parts : Parts} {port : Value} :
    encodedConfig parts = plainConfig parts port ↔
      port = .num (.fin parts.port) ∧ NeedsNoDecoding parts := by
  rw [encodedConfig, plainConfig, DatabaseConfig.mk.injEq]
  simp only [true_and, Value.str.injEq, encodeURIComponent_eq_self_iff, segment_eq_iff]
  constructor
  · rintro ⟨hport, husername, hpassword, hdatabase, hdots⟩
    exact ⟨hport.symm, husername, hpassword, hdatabase, hdots⟩
  · rintro ⟨hport, h⟩
    exact ⟨hport.symm, h.username, h.password, h.database, h.noDots⟩

/-- A port is the same number in either form. -/
theorem withNumber_plainConfig {parts : Parts} {port : Value}
    (hport : port = .num (.fin parts.port) ∨ port = .str (portText parts.port)) :
    (plainConfig parts port).withNumber = plainConfig parts (.num (.fin parts.port)) := by
  rcases hport with rfl | rfl
  · rfl
  · have hsafe : 65535 < safe := by decide
    have hdigits : (portText parts.port).toList = Nat.toDigits 10 parts.port :=
      String.toList_ofList
    have hle := parts.port_le
    have hread : asNumber (.str (portText parts.port)) = .num (.fin parts.port) := by
      rw [asNumber, hdigits, parseInt_toDigits (by omega), Option.elim_some]
    rw [DatabaseConfig.withNumber, plainConfig, hread]
    rfl

/-- **The two ways agree** exactly where no part needs decoding and the port that is
given is a number; and up to the type of the port, exactly where no part needs
decoding. -/
theorem sameDatabase_iff {parse : UrlClass} (hparse : ReturnsEncoded parse) {parts : Parts}
    {byUrl byParts : ConfigService} {urlPort : Option Nat} {port : Value}
    (hurl : GivesUrl byUrl parts urlPort) (hparts : GivesParts byParts parts port) :
    (SameDatabase id parse byUrl byParts ↔
      port = .num (.fin parts.port) ∧ NeedsNoDecoding parts) ∧
    (SameDatabase DatabaseConfig.withNumber parse byUrl byParts ↔ NeedsNoDecoding parts) := by
  rw [sameDatabase_iff_eq _ hparse hurl hparts, sameDatabase_iff_eq _ hparse hurl hparts]
  refine ⟨encodedConfig_eq_iff, ?_⟩
  have hencoded : (encodedConfig parts).withNumber = encodedConfig parts := rfl
  rw [hencoded, withNumber_plainConfig hparts.isPort, encodedConfig_eq_iff]
  exact and_iff_right rfl

/-! ### Examples -/

/-- What is in front of the first `d`. -/
def before (d : Char) (cs : List Char) : List Char := cs.takeWhile (· ≠ d)

/-- What is behind it. -/
def after (d : Char) (cs : List Char) : List Char := (cs.dropWhile (· ≠ d)).drop 1

/-- The parts of a URL of encoded components. -/
def readUrl (url : String) : Option Url :=
  if "postgresql://".toList <+: url.toList then
    let rest := url.toList.drop 13
    let authority := before '/' rest
    let userinfo := before '@' authority
    let segment := String.ofList (after '/' rest)
    some {
      hostname := String.ofList (before ':' (after '@' authority))
      port := String.ofList (after ':' (after '@' authority))
      username := String.ofList (before ':' userinfo)
      password := String.ofList (after ':' userinfo)
      pathname := "/" ++ if segment ∈ dotSegments then "" else segment }
  else none

section Read

variable {d : Char} {cs rest : List Char}

theorem ne_of_mem (h : d ∉ cs) : ∀ c ∈ cs, decide (c ≠ d) = true := by
  intro c hc
  have hne : c ≠ d := fun heq => h (heq ▸ hc)
  simpa using hne

theorem before_append (h : d ∉ cs) : before d (cs ++ d :: rest) = cs := by
  rw [before, List.takeWhile_append_of_pos (ne_of_mem h)]
  simp

theorem after_append (h : d ∉ cs) : after d (cs ++ d :: rest) = rest := by
  rw [after, List.dropWhile_append_of_pos (ne_of_mem h)]
  simp

theorem before_of_not_mem (h : d ∉ cs) : before d cs = cs :=
  List.takeWhile_eq_self_iff.mpr (ne_of_mem h)

theorem after_of_not_mem (h : d ∉ cs) : after d cs = [] := by
  rw [after, List.dropWhile_eq_nil_iff.mpr (ne_of_mem h), List.drop_nil]

end Read

/-- The characters of a URL's port. -/
def portChars (port : Option Nat) : List Char :=
  port.elim [] fun p => ':' :: Nat.toDigits 10 p

theorem toList_urlText (username password hostname : String) (port : Option Nat)
    (segment : String) : (urlText username password hostname port segment).toList =
      "postgresql://".toList ++ (username.toList ++ ':' :: password.toList ++ '@' ::
        (hostname.toList ++ portChars port) ++ '/' :: segment.toList) := by
  have hport : (port.elim "" fun p => ":" ++ portText p).toList = portChars port := by
    cases port with
    | none => rfl
    | some p =>
      have hdigits : (portText p).toList = Nat.toDigits 10 p := String.toList_ofList
      show (":" ++ portText p).toList = ':' :: Nat.toDigits 10 p
      rw [String.toList_append, hdigits]
      rfl
  have hcolon : ":".toList = [':'] := rfl
  have hat : "@".toList = ['@'] := rfl
  have hslash : "/".toList = ['/'] := rfl
  rw [urlText, String.toList_append]
  simp only [String.toList_append, hport, hcolon, hat, hslash, List.append_assoc,
    List.cons_append, List.nil_append]

theorem not_mem_of_isEncoded {text : String} (h : IsEncoded text) :
    ':' ∉ text.toList ∧ '@' ∉ text.toList ∧ '/' ∉ text.toList := by
  refine ⟨fun hc => ?_, fun hc => ?_, fun hc => ?_⟩ <;>
    exact absurd (h _ hc) (by decide)

theorem not_mem_of_isHostName {host : String} (h : IsHostName host) :
    ':' ∉ host.toList ∧ '@' ∉ host.toList ∧ '/' ∉ host.toList := by
  refine ⟨fun hc => ?_, fun hc => ?_, fun hc => ?_⟩ <;>
    exact absurd (h.2 _ hc) (by decide)

theorem not_mem_portChars (port : Option Nat) : '@' ∉ portChars port ∧ '/' ∉ portChars port := by
  cases port with
  | none => exact ⟨List.not_mem_nil, List.not_mem_nil⟩
  | some p =>
    have hdigits := (Lib.Numerals.isNumeral_toDigits p).2
    refine ⟨fun hc => ?_, fun hc => ?_⟩ <;> rcases List.mem_cons.mp hc with hc | hc
    · exact absurd hc (by decide)
    · exact absurd (hdigits _ hc) (by decide)
    · exact absurd hc (by decide)
    · exact absurd (hdigits _ hc) (by decide)

/-- Host and port are told apart. -/
theorem split_hostAndPort {host : List Char} (h : ':' ∉ host) (port : Option Nat) :
    before ':' (host ++ portChars port) = host ∧
      String.ofList (after ':' (host ++ portChars port)) = port.elim "" portText := by
  cases port with
  | none =>
    rw [portChars, Option.elim_none, List.append_nil, before_of_not_mem h, after_of_not_mem h]
    exact ⟨rfl, rfl⟩
  | some p =>
    rw [portChars, Option.elim_some, before_append h, after_append h]
    exact ⟨rfl, rfl⟩

/-- A reader of such URLs does what the class does. -/
theorem returnsEncoded_readUrl : ReturnsEncoded readUrl := by
  intro username password hostname port segment hu hp hh _ hs
  have hhost := not_mem_of_isHostName hh
  have hportChars := not_mem_portChars port
  -- first the path, then the credentials, then the port
  have hauthority : '/' ∉ username.toList ++ ':' :: password.toList ++ '@' ::
      (hostname.toList ++ portChars port) := by
    simp [(not_mem_of_isEncoded hu).2.2, (not_mem_of_isEncoded hp).2.2, hhost.2.2, hportChars.2]
  have huserinfo : '@' ∉ username.toList ++ ':' :: password.toList := by
    simp [(not_mem_of_isEncoded hu).2.1, (not_mem_of_isEncoded hp).2.1]
  have hscheme : "postgresql://".toList.length = 13 := by decide
  obtain ⟨hbefore, hafter⟩ := split_hostAndPort hhost.1 port
  rw [readUrl, toList_urlText, if_pos (List.prefix_append _ _)]
  simp only [List.drop_left' hscheme, before_append hauthority, after_append hauthority,
    before_append huserinfo, after_append huserinfo, before_append (not_mem_of_isEncoded hu).1,
    after_append (not_mem_of_isEncoded hu).1, hbefore, hafter, String.ofList_toList]

/-- A configuration of some keys. -/
def configOf (entries : List (String × Value)) : ConfigService where
  value key := (entries.lookup key).getD .undefined

/-- The URL of some parts, and nothing else. -/
def urlConfig (parts : Parts) : ConfigService :=
  configOf [("DB_URL", .str (urlText (encodeURIComponent parts.username)
    (encodeURIComponent parts.password) parts.host (some parts.port)
    (encodeURIComponent parts.database)))]

/-- A variable for each of them. -/
def partsConfig (parts : Parts) (port : Value) : ConfigService :=
  configOf [("DB_HOST", .str parts.host), ("DB_PORT", port), ("DB_USERNAME", .str parts.username),
    ("DB_PASSWORD", .str parts.password), ("DB_NAME", .str parts.database)]

theorem givesUrl_urlConfig (parts : Parts) :
    GivesUrl (urlConfig parts) parts (some parts.port) :=
  ⟨.inl rfl, rfl⟩

theorem givesParts_partsConfig (parts : Parts) {port : Value}
    (hport : port = .num (.fin parts.port) ∨ port = .str (portText parts.port)) :
    GivesParts (partsConfig parts port) parts port :=
  ⟨rfl, rfl, hport, rfl, rfl, rfl, rfl⟩

/-- The parts of a database on one's own machine. -/
def withPassword (password : String) : Parts where
  host := "localhost"
  port := 5432
  username := "postgres"
  password
  database := "scheduling_service"
  isHostName := ⟨by decide, List.all_eq_true.mp (by decide)⟩
  port_pos := by decide
  port_le := by decide

theorem sameDatabase_iff_secret :
    (SameDatabase id readUrl (urlConfig (withPassword "secret"))
        (partsConfig (withPassword "secret") (.num (.fin (5432 : Nat)))) ↔
      Value.num (.fin (5432 : Nat)) = .num (.fin (withPassword "secret").port) ∧
        NeedsNoDecoding (withPassword "secret")) ∧
    (SameDatabase DatabaseConfig.withNumber readUrl (urlConfig (withPassword "secret"))
        (partsConfig (withPassword "secret") (.num (.fin (5432 : Nat)))) ↔
      NeedsNoDecoding (withPassword "secret")) :=
  sameDatabase_iff returnsEncoded_readUrl (givesUrl_urlConfig _)
    (givesParts_partsConfig (withPassword "secret") (.inl rfl))

/-- A password with `@` in it comes out of the URL as `p%40ss`, whatever is made of the
port. And a port that is given as text is not the number that comes out of the URL. -/
theorem password_not_decoded :
    ¬ SameDatabase DatabaseConfig.withNumber readUrl (urlConfig (withPassword "p@ss"))
      (partsConfig (withPassword "p@ss") (.str "5432")) ∧
    ¬ SameDatabase id readUrl (urlConfig (withPassword "secret"))
      (partsConfig (withPassword "secret") (.str "5432")) := by
  have htext : "5432" = portText 5432 := by decide
  have hgives : ∀ password, GivesParts (partsConfig (withPassword password) (.str "5432"))
      (withPassword password) (.str "5432") :=
    fun password => givesParts_partsConfig _ (.inr (congrArg Value.str htext))
  constructor
  · intro h
    have heq := (sameDatabase_iff_eq _ returnsEncoded_readUrl (givesUrl_urlConfig _)
      (hgives "p@ss")).mp h
    have hpassword : encodeURIComponent "p@ss" = "p@ss" :=
      Value.str.inj (congrArg DatabaseConfig.password heq)
    exact absurd hpassword (by decide)
  · intro h
    have heq := (sameDatabase_iff_eq _ returnsEncoded_readUrl (givesUrl_urlConfig _)
      (hgives "secret")).mp h
    have hport := congrArg DatabaseConfig.port heq
    simp [encodedConfig, plainConfig] at hport

end SchedulingService.App

import MatrixMedia.Lib.Json
import Mathlib.Data.List.Nodup

/-!
# The settings registry

`mm-core/src/settings/mod.rs` and `entries.rs`: one entry per setting with its kind, how a
change takes effect, whether it is a secret, the type of its `Config` field and its extra
check. A `Config` gives every field a value of its type; a setting reads its field as JSON
and writes it from JSON, and touches no other field. Parsing a URL is left to a
`UrlParser`. The group, environment variable and help text of a setting are not used here.
-/

namespace MatrixMedia.Settings
open Lib

/-! ## URLs -/

structure Url where
  scheme : String
  username : String
  password : Option String
  host : Option String
  portOrKnownDefault : Option Nat
  path : String
  query : Option String
  fragment : Option String
deriving DecidableEq

/-- `reqwest::Url::parse`. -/
structure UrlParser where
  parse : String → Except String Url

/-! ## Settings -/

/-- How a change takes effect. -/
inductive ApplyClass where
  | live
  | restart
  | bootstrap (reason : String)
  | hostCoupled (service : String)
deriving DecidableEq

inductive ValueKind where
  | bool
  | int (min max : Int)
  | float (min max : Rat)
  | text
  | optText
  | url
  | optUrl
  | list
  | choice (options : List String)
deriving DecidableEq

/-- The type of a `Config` field. -/
inductive FieldType where
  | bool
  | u16
  | u32
  | u64
  | i64
  | f64
  | string
  | optString
  | strings
  | oneOf (options : List String)
deriving DecidableEq

/-- Extra validation beyond the kind. -/
inductive Check where
  | origins
  | emptyOrUrl
  | wsUrl
  | turnUris
  | redisUrl
deriving DecidableEq

structure SettingDef where
  key : String
  kind : ValueKind
  fieldType : FieldType
  applyClass : ApplyClass
  secret : Bool
  check : Option Check
deriving DecidableEq

/-- Live and Restart settings are editable from the dashboard. -/
def SettingDef.editable (d : SettingDef) : Bool :=
  match d.applyClass with
  | .live | .restart => true
  | _ => false

def fleetAtBoot : String :=
  "it changes how broadcast servers are started, stopped, used or billed, so it is set in the config file or .env (read at boot) until Broadcast servers has controls with a confirmation step for it"

def registry : List SettingDef :=
  [
    ⟨"server.drain_seconds", .int 0 600, .u64, .restart, false, none⟩,
    ⟨"server.widget_dir", .optText, .optString,
      .bootstrap "a path inside the server; pointing the public /_mm/widget route at another directory would publish its files", false, none⟩,
    ⟨"server.feed_enabled", .bool, .bool, .live, false, none⟩,
    ⟨"server.request_webhook_url", .optUrl, .optString, .live, true, none⟩,
    ⟨"matrix.alert_matrix_room", .optText, .optString, .live, false, none⟩,
    ⟨"monetization.redis_url", .text, .string, .restart, true, some .redisUrl⟩,
    ⟨"server.public_url", .optUrl, .optString,
      .bootstrap "the server's public identity: written into room state, the appservice registration and payment return URLs", false, none⟩,
    ⟨"server.cors_origins", .list, .strings, .live, false, some .origins⟩,
    ⟨"server.client_bind", .text, .string, .hostCoupled "Traefik", false, none⟩,
    ⟨"server.admin_bind", .text, .string,
      .bootstrap "changing it can cut the dashboard off from the admin API; set with --admin-bind", false, none⟩,
    ⟨"server.metrics_port", .int 1 65535, .u16, .hostCoupled "Prometheus", false, none⟩,
    ⟨"matrix.homeserver_url", .url, .string, .hostCoupled "Synapse", false, none⟩,
    ⟨"matrix.public_homeserver_url", .optUrl, .optString, .hostCoupled "Synapse", false, none⟩,
    ⟨"matrix.server_name", .text, .string, .hostCoupled "Synapse", false, none⟩,
    ⟨"matrix.bot_localpart", .text, .string, .hostCoupled "Synapse", false, none⟩,
    ⟨"sfu.livekit_url", .optUrl, .optString, .hostCoupled "LiveKit", false, none⟩,
    ⟨"sfu.livekit_public_url", .optText, .optString, .hostCoupled "LiveKit", false, some .wsUrl⟩,
    ⟨"advertising.switch_url", .text, .string, .hostCoupled "mm-switch", false, some .emptyOrUrl⟩,
    ⟨"turn.urls", .list, .strings, .live, false, some .turnUris⟩,
    ⟨"turn.ttl_secs", .int 60 604800, .u64, .live, false, none⟩,
    ⟨"streaming.auto_end_grace_secs", .int 0 86400, .u64, .live, false, none⟩,
    ⟨"streaming.max_broadcast_secs", .int 0 604800, .u64, .live, false, none⟩,
    ⟨"streaming.switch_viewer_capacity", .int 0 100000, .u64, .live, false, none⟩,
    ⟨"fleet.mode", .choice ["on", "frozen", "off"], .oneOf ["on", "frozen", "off"],
      .bootstrap fleetAtBoot, false, none⟩,
    ⟨"fleet.proxy_viewers", .bool, .bool, .bootstrap fleetAtBoot, false, none⟩,
    ⟨"fleet.meter_interval_secs", .int 0 86400, .u64, .restart, false, none⟩,
    ⟨"fleet.billing_enabled", .bool, .bool, .bootstrap fleetAtBoot, false, none⟩,
    ⟨"fleet.rating_batch", .int 1 100000, .i64, .restart, false, none⟩,
    ⟨"fleet.ladder_mode", .choice ["observe", "degrade", "full"], .oneOf ["observe", "degrade", "full"],
      .bootstrap fleetAtBoot, false, none⟩,
    ⟨"fleet.ladder_interval_secs", .int 0 86400, .u64, .bootstrap fleetAtBoot, false, none⟩,
    ⟨"fleet.ladder_batch", .int 1 100000, .i64, .bootstrap fleetAtBoot, false, none⟩,
    ⟨"fleet.wallet_currency", .text, .string, .bootstrap fleetAtBoot, false, none⟩,
    ⟨"fleet.orphan_min_age_secs", .int 0 86400, .u64, .bootstrap fleetAtBoot, false, none⟩,
    ⟨"video.max_bitrate", .int 100000 100000000, .u32, .live, false, none⟩,
    ⟨"video.max_resolution_width", .int 16 7680, .u32, .live, false, none⟩,
    ⟨"video.max_resolution_height", .int 16 4320, .u32, .live, false, none⟩,
    ⟨"video.max_frame_rate", .int 1 240, .u32, .live, false, none⟩,
    ⟨"video.simulcast_enabled", .bool, .bool, .live, false, none⟩,
    ⟨"e2ee.enabled", .bool, .bool, .live, false, none⟩,
    ⟨"e2ee.required", .bool, .bool, .live, false, none⟩,
    ⟨"e2ee.key_rotation_interval_secs", .int 0 604800, .u64, .live, false, none⟩,
    ⟨"e2ee.algorithm", .text, .string, .live, false, none⟩,
    ⟨"advertising.switch_legacy_lk_source", .bool, .bool, .live, false, none⟩,
    ⟨"storage.s3.endpoint", .optUrl, .optString, .restart, false, none⟩,
    ⟨"storage.s3.bucket", .text, .string, .restart, false, none⟩,
    ⟨"storage.s3.region", .text, .string, .restart, false, none⟩,
    ⟨"storage.s3.access_key", .text, .string, .restart, true, none⟩,
    ⟨"storage.s3.secret_key", .text, .string, .restart, true, none⟩,
    ⟨"storage.s3.path_style", .bool, .bool, .restart, false, none⟩,
    ⟨"recording.enabled", .bool, .bool, .live, false, none⟩,
    ⟨"recording.retention_days", .int 0 3650, .u32, .live, false, none⟩,
    ⟨"monetization.enabled", .bool, .bool, .restart, false, none⟩,
    ⟨"monetization.donations_enabled", .bool, .bool, .live, false, none⟩,
    ⟨"monetization.subscriptions_enabled", .bool, .bool, .restart, false, none⟩,
    ⟨"monetization.min_donation_cents", .int 100 100000000, .i64, .live, false, none⟩,
    ⟨"monetization.max_donation_cents", .int 100 100000000, .i64, .live, false, none⟩,
    ⟨"monetization.platform_fee_pct", .float 0 (1 / 2), .f64, .live, false, none⟩,
    ⟨"monetization.stripe_secret_key", .text, .string, .restart, true, none⟩,
    ⟨"monetization.webhook_signing_secret", .text, .string, .restart, true, none⟩,
    ⟨"monetization.stripe_api_base", .url, .string,
      .bootstrap "the Stripe secret key is sent to this host; change it in .env, only for a test double", false, none⟩,
    ⟨"monetization.lnbits_enabled", .bool, .bool, .restart, false, none⟩,
    ⟨"monetization.lnbits_url", .text, .string, .restart, false, some .emptyOrUrl⟩,
    ⟨"monetization.lnbits_invoice_key", .text, .string, .restart, true, none⟩,
    ⟨"monetization.lnbits_admin_key", .text, .string, .restart, true, none⟩,
    ⟨"monetization.demo_mode", .bool, .bool, .live, false, none⟩,
    ⟨"advertising.enabled", .bool, .bool, .restart, false, none⟩,
    ⟨"advertising.streamer_ads_enabled", .bool, .bool, .restart, false, none⟩,
    ⟨"advertising.platform_ads_enabled", .bool, .bool, .restart, false, none⟩,
    ⟨"advertising.skip_after_secs", .int 0 120, .u32, .restart, false, none⟩,
    ⟨"federation.enabled", .bool, .bool, .live, false, none⟩,
    ⟨"federation.allow_list", .list, .strings, .live, false, none⟩,
    ⟨"federation.deny_list", .list, .strings, .live, false, none⟩,
    ⟨"federation.validation_timeout_secs", .int 1 60, .u64, .live, false, none⟩,
    ⟨"federation.validation_cache_ttl_secs", .int 0 86400, .u64, .restart, false, none⟩,
    ⟨"matrix.signup_rate_limit_per_ip_per_hour", .int 1 10000, .u32, .live, false, none⟩,
    ⟨"matrix.signup_tos_current_version", .text, .string, .live, false, none⟩,
    ⟨"matrix.signup_ip_hash_pepper", .text, .string,
      .bootstrap "Docker secret file managed by `mmctl rotate MM_SIGNUP_IP_HASH_PEPPER`", true, none⟩,
    ⟨"server.admin_token", .text, .string,
      .bootstrap "authenticates the dashboard itself; rotate with `mmctl rotate MM_ADMIN_TOKEN`", true, none⟩,
    ⟨"jwt_signing_key", .text, .string,
      .bootstrap "signs every session; rotate with `mmctl rotate MM_JWT_SIGNING_KEY`", true, none⟩,
    ⟨"database.url", .text, .string, .bootstrap "needed before the database can be read", true, none⟩,
    ⟨"monetization.postgres_url", .text, .string, .bootstrap "needed before the database can be read", true, none⟩,
    ⟨"matrix.as_token", .text, .string, .hostCoupled "Synapse", true, none⟩,
    ⟨"matrix.hs_token", .text, .string, .hostCoupled "Synapse", true, none⟩,
    ⟨"matrix.synapse_admin_token", .text, .string, .hostCoupled "Synapse", true, none⟩,
    ⟨"matrix.synapse_registration_secret", .text, .string, .hostCoupled "Synapse", true, none⟩,
    ⟨"sfu.livekit_api_key", .text, .string, .hostCoupled "LiveKit", true, none⟩,
    ⟨"sfu.livekit_api_secret", .text, .string, .hostCoupled "LiveKit", true, none⟩,
    ⟨"advertising.switch_auth_secret", .text, .string, .hostCoupled "mm-switch", true, none⟩,
    ⟨"turn.shared_secret", .text, .string, .hostCoupled "coturn", true, none⟩,
    ⟨"server.alert_webhook_token", .text, .string, .hostCoupled "Alertmanager", true, none⟩
  ]

theorem registry_nodup : (registry.map SettingDef.key).Nodup := by decide +kernel

/-- An entry of the registry. -/
abbrev Setting : Type := { d : SettingDef // d ∈ registry }

def find (key : String) : Option Setting := registry.attach.find? fun d => d.1.key = key

variable {v : Json} {d : Setting} {t : FieldType}

theorem find_key {key : String} (h : find key = some d) : d.1.key = key := by
  simpa using List.find?_some h

theorem Setting.ext_key {d' : Setting} (h : d.1.key = d'.1.key) : d = d' :=
  Subtype.ext (List.inj_on_of_nodup_map registry_nodup d.2 d'.2 h)

theorem find_self (d : Setting) : find d.1.key = some d := by
  cases h : find d.1.key with
  | none =>
    have := List.find?_eq_none.mp h d (List.mem_attach _ d)
    simp at this
  | some d' => rw [Setting.ext_key (find_key h)]

/-- A destination and the secrets that are sent there. -/
structure UrlCredentials where
  url : String
  secrets : List String
deriving DecidableEq

def urlCredentials : List UrlCredentials :=
  [ ⟨"monetization.lnbits_url", ["monetization.lnbits_invoice_key", "monetization.lnbits_admin_key"]⟩,
    ⟨"storage.s3.endpoint", ["storage.s3.access_key", "storage.s3.secret_key"]⟩,
    ⟨"storage.s3.bucket", ["storage.s3.access_key", "storage.s3.secret_key"]⟩ ]

/-! ## Field values -/

/-- A double: its exact value, or one of the values JSON has no number for. -/
inductive Double where
  | finite (x : Rat)
  | nan
  | posInf
  | negInf
deriving DecidableEq

/-- `self < x`. -/
def Double.lt (d : Double) (x : Rat) : Bool :=
  match d with
  | .finite y => y < x
  | .negInf => true
  | _ => false

/-- `self > x`. -/
def Double.gt (d : Double) (x : Rat) : Bool :=
  match d with
  | .finite y => x < y
  | .posInf => true
  | _ => false

/-- The value of a field. -/
inductive FieldValue where
  | bool (b : Bool)
  | int (n : Int)
  | double (d : Double)
  | text (s : String)
  | optText (o : Option String)
  | texts (l : List String)
deriving DecidableEq

/-- `serde_json::to_value`. -/
def FieldValue.toJson : FieldValue → Json
  | .bool b => .bool b
  | .int n => .int n
  | .double (.finite x) => .float x
  | .double _ => .null
  | .text s => .str s
  | .optText none => .null
  | .optText (some s) => .str s
  | .texts l => .arr (l.map Json.str)

/-- The values a type has. -/
def FieldType.Holds : FieldType → FieldValue → Bool
  | .bool, .bool _ => true
  | .u16, .int n => 0 ≤ n ∧ n < 2 ^ 16
  | .u32, .int n => 0 ≤ n ∧ n < 2 ^ 32
  | .u64, .int n => 0 ≤ n ∧ n < 2 ^ 64
  | .i64, .int n => -2 ^ 63 ≤ n ∧ n < 2 ^ 63
  | .f64, .double _ => true
  | .string, .text _ => true
  | .optString, .optText _ => true
  | .strings, .texts _ => true
  | .oneOf options, .text s => s ∈ options
  | _, _ => false

/-- The candidate `serde_json::from_value` reads, before the bounds of the type. -/
def FieldType.read : FieldType → Json → Option FieldValue
  | .bool, .bool b => some (.bool b)
  | .u16, .int n | .u32, .int n | .u64, .int n | .i64, .int n => some (.int n)
  | .f64, .int n => some (.double (.finite n))
  | .f64, .float x => some (.double (.finite x))
  | .string, .str s | .oneOf _, .str s => some (.text s)
  | .optString, .null => some (.optText none)
  | .optString, .str s => some (.optText (some s))
  | .strings, .arr items => (items.mapM Json.asStr).map .texts
  | _, _ => none

/-- `serde_json::from_value`. -/
def FieldType.ofJson (t : FieldType) (v : Json) : Option FieldValue := (t.read v).filter t.Holds

variable {f : FieldValue}

theorem FieldType.holds_of_ofJson (h : t.ofJson v = some f) : t.Holds f = true :=
  (Option.filter_eq_some_iff.mp h).2

/-- Text and nullable text, the types of destinations and secrets. -/
def FieldType.Textual (t : FieldType) : Prop := t = .string ∨ t = .optString

instance (t : FieldType) : Decidable t.Textual := by
  unfold FieldType.Textual
  infer_instance

/-- A text field takes back what it shows. -/
theorem FieldType.Textual.ofJson_toJson (h : t.Textual) (hf : t.Holds f = true) :
    t.ofJson f.toJson = some f := by
  rcases h with rfl | rfl
  · cases f with
    | text s => rfl
    | _ => cases hf
  · cases f with
    | optText o => cases o <;> rfl
    | _ => cases hf

/-- A text field shows what it took. -/
theorem FieldType.Textual.toJson_ofJson (h : t.Textual)
    (hf : t.ofJson v = some f) : f.toJson = v := by
  have hread := (Option.filter_eq_some_iff.mp hf).1
  rcases h with rfl | rfl
  · cases v with
    | str s => cases hread; rfl
    | _ => cases hread
  · cases v with
    | str | null => cases hread; rfl
    | _ => cases hread

/-! ## The configuration -/

/-- A value for every field, by its path; the fields of the registry have values of their
types. The other fields are never touched. -/
@[ext]
structure Config where
  value : String → FieldValue
  typed : ∀ d ∈ registry, d.fieldType.Holds (value d.key) = true

/-- The `get` of the `setting!` macro. -/
def Setting.get (d : Setting) (c : Config) : Json := (c.value d.1.key).toJson

def Setting.put (d : Setting) (c : Config) (f : FieldValue) (hf : d.1.fieldType.Holds f = true) : Config where
  value := fun k => if k = d.1.key then f else c.value k
  typed := by
    intro d' hd'
    split
    · rename_i hk
      have : d' = d.1 := List.inj_on_of_nodup_map registry_nodup hd' d.2 hk
      rw [this]
      exact hf
    · exact c.typed d' hd'

/-- The `set` of the `setting!` macro. -/
def Setting.set (d : Setting) (c : Config) (v : Json) : Except String Config :=
  match h : d.1.fieldType.ofJson v with
  | some f => .ok (d.put c f (FieldType.holds_of_ofJson h))
  | none => .error "the value does not fit this setting's type"

theorem Setting.set_ok {c c' : Config} (h : d.set c v = .ok c') :
    ∃ f hf, d.1.fieldType.ofJson v = some f ∧ c' = d.put c f hf := by
  unfold Setting.set at h
  split at h
  · rename_i f hf
    cases h
    exact ⟨f, _, hf, rfl⟩
  · cases h

theorem Setting.set_of_ofJson (h : d.1.fieldType.ofJson v = some f) (c : Config) :
    d.set c v = .ok (d.put c f (FieldType.holds_of_ofJson h)) := by
  unfold Setting.set
  split
  · rename_i f' hf'
    rw [h] at hf'
    cases hf'
    rfl
  · rename_i hnone
    rw [h] at hnone
    cases hnone

/-! ## Validation -/

def maxText : Nat := 2048
def maxList : Nat := 256

def text (v : Json) : Except String String :=
  match v.asStr with
  | none => .error "expected text"
  | some s => if s.utf8ByteSize > maxText then .error ("at most " ++ toString maxText ++ " characters") else .ok s

section
variable (P : UrlParser)

def httpUrl (s : String) (allowUserinfo : Bool) : Except String Unit :=
  match P.parse s with
  | .error e => .error ("not a valid URL: " ++ e)
  | .ok u =>
    if u.scheme ≠ "http" ∧ u.scheme ≠ "https" then .error "URL scheme must be http or https"
    else if allowUserinfo = false ∧ (u.username ≠ "" ∨ u.password.isSome) then
      .error "credentials don't belong in a URL; use the secret settings"
    else .ok ()

/-- `char::is_whitespace`. -/
def isWhitespace (c : Char) : Bool :=
  let n := c.toNat
  (9 ≤ n ∧ n ≤ 13) ∨ n = 0x20 ∨ n = 0x85 ∨ n = 0xa0 ∨ n = 0x1680 ∨ (0x2000 ≤ n ∧ n ≤ 0x200a) ∨ n = 0x2028 ∨ n = 0x2029 ∨
    n = 0x202f ∨ n = 0x205f ∨ n = 0x3000

/-- A double that is a multiple of a tenth, as `{}` prints it. -/
def showTenths (x : Rat) : String :=
  if x.den = 1 then toString x.num else toString x.floor ++ "." ++ toString ((x - x.floor) * 10).floor

def listEntries : List Json → Except String Unit
  | [] => .ok ()
  | item :: rest =>
    match text item with
    | .error e => .error e
    | .ok s => if s.toList.all isWhitespace then .error "entries must not be empty" else listEntries rest

def validateKind (kind : ValueKind) (v : Json) (allowUserinfo : Bool) : Except String Unit :=
  match kind with
  | .bool => if v.asBool.isSome then .ok () else .error "expected true or false"
  | .int min max =>
    match v.asI64 with
    | none => .error "expected a whole number"
    | some n =>
      if n < min ∨ n > max then .error ("must be between " ++ toString min ++ " and " ++ toString max) else .ok ()
  | .float min max =>
    match v.asF64 with
    | none => .error "expected a number"
    | some n =>
      if min ≤ n ∧ n ≤ max then .ok () else .error ("must be between " ++ showTenths min ++ " and " ++ showTenths max)
  | .text => (text v).map fun _ => ()
  | .optText => if v = .null then .ok () else (text v).map fun _ => ()
  | .url => (text v).bind fun s => httpUrl P s allowUserinfo
  | .optUrl => if v = .null then .ok () else (text v).bind fun s => httpUrl P s allowUserinfo
  | .list =>
    match v.asArray with
    | none => .error "expected a list"
    | some items =>
      if items.length > maxList then .error ("at most " ++ toString maxList ++ " entries") else listEntries items
  | .choice options =>
    (text v).bind fun s =>
      if s ∈ options then .ok () else .error ("must be one of: " ++ String.intercalate ", " options)

/-- The entries of a list as texts; what is no text counts as empty. -/
def entries (v : Json) : List String := ((v.asArray).getD []).map fun item => item.asStr.getD ""

def checkOrigins (P : UrlParser) : Nat → List String → Except String Unit
  | _, [] => .ok ()
  | i, s :: rest =>
    let bad := "entry " ++ toString (i + 1) ++
      " is not an origin — use scheme://host[:port] with no path, e.g. https://matrix.example.org"
    if '@' ∈ s.toList then .error "origins must not contain credentials"
    else
      match P.parse s with
      | .error _ => .error bad
      | .ok u =>
        if u.path = "/" ∧ s.toList.getLast? ≠ some '/' ∧ u.query = none ∧ u.fragment = none ∧
            (u.scheme = "http" ∨ u.scheme = "https") ∧ u.host.isSome then checkOrigins P (i + 1) rest
        else .error bad

def checkTurnUris : Nat → List String → Except String Unit
  | _, [] => .ok ()
  | i, s :: rest =>
    if '@' ∈ s.toList then .error "TURN/STUN entries must not contain credentials"
    else if Text.startsWith "turn:" s ∨ Text.startsWith "turns:" s ∨ Text.startsWith "stun:" s then
      checkTurnUris (i + 1) rest
    else .error ("entry " ++ toString (i + 1) ++ " must start with turn:, turns: or stun:")

def Check.run (check : Check) (v : Json) : Except String Unit :=
  match check with
  | .origins => checkOrigins P 0 (entries v)
  | .turnUris => checkTurnUris 0 (entries v)
  | .emptyOrUrl =>
    match v.asStr with
    | none => .ok ()
    | some s => if s = "" then .ok () else httpUrl P s false
  | .wsUrl =>
    match v.asStr with
    | none => .ok ()
    | some s =>
      match P.parse s with
      | .error e => .error ("not a valid URL: " ++ e)
      | .ok u =>
        if u.scheme ∉ ["ws", "wss", "http", "https"] then .error "scheme must be ws, wss, http or https"
        else if u.username ≠ "" ∨ u.password.isSome then
          .error "credentials don't belong in a URL; use the secret settings"
        else .ok ()
  | .redisUrl =>
    match v.asStr with
    | none => .ok ()
    | some s =>
      if s = "" ∨ Text.startsWith "redis://" s ∨ Text.startsWith "rediss://" s then .ok ()
      else .error "must start with redis:// or rediss://"

/-- `SettingDef::validate`. -/
def SettingDef.validate (d : SettingDef) (v : Json) : Except String Unit :=
  (validateKind P d.kind v d.secret).bind fun _ =>
    match d.check with
    | none => .ok ()
    | some check => check.run P v

/-! ## Cross-field rules -/

/-- Facts about the running binary. -/
structure BuildPolicy where
  releaseBuild : Bool
  allowMock : Bool
deriving DecidableEq

def Config.text (c : Config) (key : String) : String :=
  match c.value key with
  | .text s => s
  | _ => ""

def Config.flag (c : Config) (key : String) : Bool := c.value key = .bool true

def Config.int (c : Config) (key : String) : Int :=
  match c.value key with
  | .int n => n
  | _ => 0

def Config.double (c : Config) (key : String) : Double :=
  match c.value key with
  | .double d => d
  | _ => .nan

def mockStripeKeyPrefix : String := "sk_test_mock"

def isLiveStripeKey (key : String) : Bool := !(Text.startsWith "sk_test_" key || Text.startsWith "rk_test_" key)

def isRealStripeApiBase (base : String) : Bool :=
  match P.parse base with
  | .error _ => false
  | .ok u =>
    u.scheme = "https" ∧ u.host = some "api.stripe.com" ∧ u.portOrKnownDefault = some 443 ∧ u.username = "" ∧
      u.password = none

/-- `Config::validate`. -/
def Config.validate (c : Config) : Except String Unit :=
  if c.text "jwt_signing_key" ≠ "" ∧ (c.text "jwt_signing_key").utf8ByteSize < 32 then
    .error "MM_JWT_SIGNING_KEY must be >= 32 bytes for HS256 security"
  else .ok ()

/-- `MonetizationConfig::validate`. -/
def Config.validateMonetization (c : Config) : Except String Unit :=
  if c.flag "monetization.enabled" = false then .ok ()
  else if c.text "monetization.postgres_url" = "" then .error "MM_POSTGRES_URL required when monetization enabled"
  else if c.text "monetization.stripe_secret_key" = "" then
    .error "MM_STRIPE_SECRET_KEY required when monetization enabled"
  else if c.text "monetization.webhook_signing_secret" = "" then
    .error "MM_STRIPE_WEBHOOK_SECRET required when monetization enabled"
  else if (c.double "monetization.platform_fee_pct").lt 0 ∨ (c.double "monetization.platform_fee_pct").gt (1 / 2) then
    .error "platform_fee_pct must be 0.0-0.50"
  else if c.int "monetization.min_donation_cents" < 100 then .error "min_donation_cents must be >= 100"
  else if c.int "monetization.max_donation_cents" < c.int "monetization.min_donation_cents" then
    .error "max_donation_cents must be >= min_donation_cents"
  else if isLiveStripeKey (c.text "monetization.stripe_secret_key") then
    if c.flag "monetization.demo_mode" then
      .error "MM_DEMO_MODE must be false when a live Stripe key (not sk_test_/rk_test_) is configured"
    else if isRealStripeApiBase P (c.text "monetization.stripe_api_base") = false then
      .error "MM_STRIPE_API_BASE must be https://api.stripe.com when a live Stripe key (not sk_test_/rk_test_) is configured"
    else .ok ()
  else .ok ()

/-- `MonetizationConfig::validate_for`. -/
def Config.validateMonetizationFor (c : Config) (policy : BuildPolicy) : Except String Unit :=
  (c.validateMonetization P).bind fun _ =>
    if c.flag "monetization.enabled" ∧ policy.releaseBuild ∧ policy.allowMock = false ∧
        Text.startsWith mockStripeKeyPrefix (c.text "monetization.stripe_secret_key") then
      .error ("a mock Stripe key (" ++ mockStripeKeyPrefix ++ "…) is not allowed in a release build; " ++
        "set MM_ALLOW_MOCK=true to override")
    else .ok ()

def errorOf : Except String Unit → List String
  | .ok () => []
  | .error e => [e]

/-- `validate_config`: the errors it finds, none for a valid configuration. -/
def validateConfig (c : Config) (policy : BuildPolicy) : List String :=
  errorOf c.validate ++ errorOf (c.validateMonetizationFor P policy)

end

end MatrixMedia.Settings

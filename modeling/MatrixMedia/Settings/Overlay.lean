import MatrixMedia.Settings.Registry

/-!
# Stored settings and the boot overlay

`mm-core/src/settings/crypto.rs` and `overlay.rs`. Encryption is ideal: an envelope opens
under the key it names and for the setting it was made for, to what was sealed, and
otherwise not at all. The nonce is left out, since no ciphertext is ever compared. A
plaintext is what its bytes parse to.
-/

namespace MatrixMedia.Settings
open Lib

/-! ## Encryption at rest -/

/-- The hex id of a key. -/
abbrev KeyId : Type := String

/-- The current key plus, during rotation, the previous one; equal keys are no rotation. -/
structure KeyRing where
  current : KeyId
  previous : Option KeyId
  distinct : previous ≠ some current

/-- What the bytes parse to, `none` if they are no JSON. -/
abbrev Plain : Type := Option Json

inductive Blob where
  | malformed
  /-- An envelope under a key: the setting it was sealed for and the plaintext, `none` if no
  key opens it. -/
  | envelope (keyId : KeyId) (content : Option (String × Plain))
deriving DecidableEq

/-- `KeyRing::encrypt`. -/
def KeyRing.encrypt (keys : KeyRing) (settingKey : String) (plain : Plain) : Blob :=
  .envelope keys.current (some (settingKey, plain))

/-- `KeyRing::decrypt`, with the texts of `CryptoError`. -/
def KeyRing.decrypt (keys : KeyRing) (settingKey : String) : Blob → Except String Plain
  | .malformed => .error "stored secret is malformed"
  | .envelope keyId content =>
    if keyId = keys.current ∨ keys.previous = some keyId then
      match content with
      | some (aad, plain) =>
        if aad = settingKey then .ok plain
        else .error "decryption failed (wrong key, or the value was moved between settings)"
      | none => .error "decryption failed (wrong key, or the value was moved between settings)"
    else .error ("stored secret was encrypted with a key that is not configured (key id " ++ keyId ++ ")")

/-- `KeyRing::is_on_previous`. -/
def KeyRing.isOnPrevious (keys : KeyRing) : Blob → Bool
  | .malformed => false
  | .envelope keyId _ => keys.previous = some keyId

theorem KeyRing.decrypt_encrypt (keys : KeyRing) (settingKey : String) (plain : Plain) :
    keys.decrypt settingKey (keys.encrypt settingKey plain) = .ok plain := by
  simp [KeyRing.decrypt, KeyRing.encrypt]

/-! ## Stored values -/

inductive Stored where
  | json (v : Json)
  | encrypted (blob : Blob)
deriving DecidableEq

structure StoredSetting where
  key : String
  value : Stored
  rev : Int
deriving DecidableEq

structure Problem where
  key : String
  reason : String
deriving DecidableEq

/-- `is_empty`. -/
def isEmpty (v : Json) : Bool := v = .null ∨ v = .str "" ∨ v = .arr []

def keyEnv : String := "MM_SETTINGS_ENCRYPTION_KEY"

def noKeyReason : String := keyEnv ++ " is not set, so this secret cannot be decrypted"

def decode (d : Setting) (value : Stored) (keys : Option KeyRing) : Except String Json :=
  match value, d.1.secret with
  | .json v, false => .ok v
  | .encrypted blob, true =>
    match keys with
    | none => .error noKeyReason
    | some keys =>
      match keys.decrypt d.1.key blob with
      | .error e => .error e
      | .ok (some v) => .ok v
      | .ok none => .error "decrypted value is not valid JSON"
  | .json _, true => .error "secret stored without encryption"
  | .encrypted _, false => .error "non-secret value stored encrypted"

section
variable (P : UrlParser)

def applyRow (d : Setting) (value : Stored) (keys : Option KeyRing) (c : Config) : Except String Config :=
  (decode d value keys).bind fun v => (d.1.validate P v).bind fun _ => d.set c v

/-- The setting a stored row may change. -/
def findEditable (key : String) : Option Setting := (find key).filter fun d => d.1.editable

/-! ## The boot overlay -/

structure Overlay where
  /-- What to run: base and database, or exactly the base in safe mode. -/
  config : Config
  loadedRev : Int
  fromDb : List String
  problems : List Problem
  secretProblems : List Problem
  ignored : List String
  unpairedDestinations : List String

def maxRev (rows : List StoredSetting) : Int := ((rows.map StoredSetting.rev).max?).getD 0

/-- The overlay while it is being made: the candidate and what has been found out. -/
structure Draft where
  candidate : Config
  fromDb : List String := []
  problems : List Problem := []
  secretProblems : List Problem := []
  ignored : List String := []
  unpairedDestinations : List String := []

/-- The body of the loop over the rows. -/
def Draft.row (P : UrlParser) (keys : Option KeyRing) (s : Draft) (row : StoredSetting) : Draft :=
  match findEditable row.key with
  | none => { s with ignored := s.ignored ++ [row.key] }
  | some d =>
    match applyRow P d row.value keys s.candidate with
    | .ok c => { s with candidate := c, fromDb := s.fromDb.insert row.key }
    | .error reason =>
      if d.1.secret then { s with secretProblems := s.secretProblems ++ [⟨row.key, reason⟩] }
      else { s with problems := s.problems ++ [⟨row.key, reason⟩] }

/-- The secret has a value in the configuration. -/
def secretSet (c : Config) (key : String) : Bool :=
  match find key with
  | some d => !isEmpty (d.get c)
  | none => false

/-- The secrets of a pair that have a value which did not come from the database. -/
def Draft.foreign (s : Draft) (pair : UrlCredentials) : List String :=
  (pair.secrets.filter fun k => k ∉ s.fromDb).filter (secretSet s.candidate)

/-- The body of the loop over `URL_CREDENTIALS`. -/
def Draft.pair (base : Config) (rows : List StoredSetting) (s : Draft) (pair : UrlCredentials) : Draft :=
  match find pair.url with
  | none => s
  | some d =>
    if pair.url ∉ s.fromDb ∨ d.get s.candidate = d.get base then s
    else
      let foreign := s.foreign pair
      if foreign = [] then s
      else
        { s with
          candidate := (d.set s.candidate (d.get base)).toOption.getD s.candidate
          fromDb := s.fromDb.filter fun k => k ≠ pair.url
          unpairedDestinations :=
            if foreign.any fun k => rows.any fun r => r.key = k then s.unpairedDestinations
            else s.unpairedDestinations ++ [pair.url]
          secretProblems := s.secretProblems ++ [⟨pair.url, "the stored value is ignored because " ++
            String.intercalate " and " foreign ++ " did not come from the dashboard"⟩] }

def draftOf (base : Config) (rows : List StoredSetting) (keys : Option KeyRing) : Draft :=
  urlCredentials.foldl (Draft.pair base rows) (rows.foldl (Draft.row P keys) { candidate := base })

/-- `apply_overlay`. -/
def applyOverlay (base : Config) (rows : List StoredSetting) (keys : Option KeyRing)
    (policy : BuildPolicy) : Overlay :=
  let s := draftOf P base rows keys
  let problems :=
    if s.problems = [] then (validateConfig P s.candidate policy).map fun reason => ⟨"*", reason⟩ else s.problems
  { config := if problems = [] then s.candidate else base
    loadedRev := maxRev rows
    fromDb := if problems = [] then s.fromDb else []
    problems := problems
    secretProblems := s.secretProblems
    ignored := s.ignored
    unpairedDestinations := s.unpairedDestinations }

/-! ## The import -/

/-- `import_plan`: what is written for one setting. -/
def importOf (base : Config) (keys : Option KeyRing) (d : Setting) : Option (String × Stored) :=
  let v := d.get base
  match d.1.validate P v with
  | .error _ => none
  | .ok () =>
    if d.1.secret then
      match keys with
      | none => none
      | some keys => if isEmpty v then none else some (d.1.key, .encrypted (keys.encrypt d.1.key (some v)))
    else some (d.1.key, .json v)

/-- `import_plan`, without the list of what was left out. -/
def importPlan (base : Config) (keys : Option KeyRing) : List (String × Stored) :=
  (registry.attach.filter fun d => d.1.editable).filterMap (importOf P base keys)

/-- A stored value that differs from the one of a configuration; an encrypted one counts. -/
def Stored.differs (value : Stored) (v : Json) : Bool :=
  match value with
  | .json stored => stored ≠ v
  | .encrypted _ => true

/-- The stored value of a key is not the one of the configuration. -/
def storedElsewhere (stored : List StoredSetting) (c : Config) (d : Setting) : Bool :=
  match stored.find? fun r => r.key = d.1.key with
  | none => false
  | some row => row.value.differs (d.get c)

/-- The destination has a stored value that is not the base's. -/
def chosenInDb (stored : List StoredSetting) (base : Config) (url : String) : Bool :=
  match find url with
  | none => false
  | some d => storedElsewhere stored base d

/-- `guard_import`, without the list of what was dropped. -/
def guardImport (values : List (String × Stored)) (stored : List StoredSetting) (base : Config) : List (String × Stored) :=
  let dropped := (urlCredentials.filter fun pair => chosenInDb stored base pair.url).flatMap UrlCredentials.secrets
  values.filter fun v => v.1 ∉ dropped

/-! ## Live reload and destinations -/

def reloadRow (keys : Option KeyRing) (s : Config × List Problem) (row : StoredSetting) :
    Config × List Problem :=
  match (find row.key).filter fun d => d.1.applyClass = .live with
  | none => s
  | some d =>
    match applyRow P d row.value keys s.1 with
    | .ok c => (c, s.2)
    | .error reason => if d.1.secret then s else (s.1, s.2 ++ [⟨row.key, reason⟩])

/-- `reload_live`. -/
def reloadLive (current : Config) (rows : List StoredSetting) (keys : Option KeyRing)
    (policy : BuildPolicy) : Except (List Problem) Config :=
  let s := rows.foldl (reloadRow P keys) (current, [])
  let problems :=
    if s.2 = [] then (validateConfig P s.1 policy).map fun reason => ⟨"*", reason⟩ else s.2
  if problems = [] then .ok s.1 else .error problems

end

/-- `unsettled_destinations`. -/
def unsettledDestinations (stored : List StoredSetting) (next running : Config) : List String :=
  ((urlCredentials.filterMap fun pair => find pair.url).filter fun d =>
    storedElsewhere stored running d ∨ d.get next ≠ d.get running).map fun d => d.1.key

/-- `unconfirmed_destination`. -/
def unconfirmedDestination (sent : String → Bool) (unsettled : List String) : Option (String × List String) :=
  (urlCredentials.filter fun pair => pair.url ∈ unsettled ∧ sent pair.url = false).findSome? fun pair =>
    let secrets := pair.secrets.filter sent
    if secrets = [] then none else some (pair.url, secrets)

end MatrixMedia.Settings

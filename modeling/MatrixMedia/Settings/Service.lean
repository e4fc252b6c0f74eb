import MatrixMedia.Lib.Interaction
import MatrixMedia.Settings.Store

/-!
# The settings service

`mm-api/src/settings_service.rs`: the boot sequence and `save`, and the handler of
`admin_settings.rs` that saves come from. Each talks to the database with the statements
of `Store`; between two of them other instances may commit. The database also keeps
`commits`, what each committed transaction wrote and why. No program reads it; the results
about histories are stated over it.

The running configuration and the safe-mode flag a save looks at are part of its request:
they may be anything. Live reload after a save changes only them. Of the status, what boot
decides is kept; reports and logs are left out.
-/

namespace MatrixMedia.Settings
open Lib Lib.Interaction
open Std (TreeMap)

/-- What an instance was started with: file and env, keys, build, and the variable of a key
that could not be loaded. -/
structure SettingsService where
  base : Config
  keys : Option KeyRing
  policy : BuildPolicy
  keyError : Option String

/-- A save, with what its instance holds while it is served: the running configuration at
the destination check and, later, at the dry run. -/
structure SaveRequest where
  changes : TreeMap String Json
  expectedRev : Int
  actor : String
  running : Config
  reloading : Config
  safeMode : Bool

/-! ## Statements -/

/-- Why a transaction was made. -/
inductive Writer where
  | importing (base : Config)
  | resetting (base : Config)
  /-- A save, and the rows it was checked against. -/
  | saving (service : SettingsService) (request : SaveRequest) (seen : List SettingRow)

structure Commit where
  writer : Writer
  values : List NewValue
  /-- The rows just before. -/
  before : List StoredSetting

structure Database where
  store : Store
  /-- Newest first. -/
  commits : List Commit

inductive Statement where
  | loadAll
  | importFiltered (filter : List SettingRow → List NewValue) (base : Config)
  | write (changes : List NewValue) (expectedRev : Int) (actor : String) (writer : Writer)
  | reencrypt (rows : List (String × Int × Blob))

abbrev Statement.Reply : Statement → Type
  | .loadAll => Except String (List SettingRow)
  | .importFiltered _ _ => Except String Unit
  | .write .. => Except SettingsDbError Int
  | .reencrypt _ => Except String (List String)

/-- A statement is served, fails without effect, or takes effect while the caller sees an
error. -/
inductive Fate where
  | served
  | failed (e : String)
  | unconfirmed (e : String)

/-- A transaction that was rolled back has used up numbers of the sequence. -/
inductive Move where
  | skip (n : Nat)

def Database.commit (db : Database) (writer : Writer) (values : List NewValue) (store : Store) : Database :=
  ⟨store, ⟨writer, values, db.store.stored⟩ :: db.commits⟩

def Database.serve (db : Database) : (q : Statement) → Database × q.Reply
  | .loadAll => (db, .ok db.store.loadAll)
  | .importFiltered filter base =>
    match db.store.importFiltered filter with
    | .ok (values, store) => (db.commit (.importing base) values store, .ok ())
    | .error e => (db, .error e)
  | .write changes expectedRev actor writer =>
    match db.store.write changes expectedRev actor with
    | .ok (rev, store) => (db.commit writer changes store, .ok rev)
    | .error e => (db, .error e)
  | .reencrypt rows =>
    let (store, skipped) := db.store.reencrypt rows
    ({ db with store := store }, .ok skipped)

def Statement.fail : (q : Statement) → String → q.Reply
  | .loadAll, e => .error e
  | .importFiltered _ _, e => .error e
  | .write _ _ _ _, e => .error (.db e)
  | .reencrypt _, e => .error e

def database : Service Database Fate Move Statement Statement.Reply where
  request := fun db q fate =>
    match fate with
    | .served => db.serve q
    | .failed e => (db, q.fail e)
    | .unconfirmed e => ((db.serve q).1, q.fail e)
  move := fun db m =>
    match m with
    | .skip n => { db with store := { db.store with seq := db.store.seq + n } }

abbrev Action (α : Type) : Type := Prog Statement Statement.Reply α

/-! ## Saving -/

inductive PatchError where
  | unknown (key : String)
  | readOnly (message : String)
  | invalid (problems : List Problem)
  | noKey (message : String)
  | needsCredentials (message : String)
  | conflict (currentRev : Int)
  | db (e : String)
deriving DecidableEq

def readOnlyMessage (d : SettingDef) : String :=
  match d.applyClass with
  | .bootstrap reason =>
    d.key ++ " is read-only here: " ++ reason ++ ". Change it in the server's environment and restart."
  | .hostCoupled service =>
    d.key ++ " must match " ++ service ++ "'s own configuration; change both together outside the dashboard."
  | .live | .restart => d.key ++ " is read-only"

/-- The loop over the changes: what is accepted and what is not. -/
def acceptChanges (P : UrlParser) : List (String × Json) → Except PatchError (List (Setting × Json) × List Problem)
  | [] => .ok ([], [])
  | (key, value) :: rest =>
    match find key with
    | none => .error (.unknown key)
    | some d =>
      if d.1.editable = false then .error (.readOnly (readOnlyMessage d.1))
      else
        match acceptChanges P rest with
        | .error e => .error e
        | .ok (accepted, problems) =>
          match d.1.validate P value with
          | .ok () => .ok ((d, value) :: accepted, problems)
          | .error reason => .ok (accepted, ⟨key, reason⟩ :: problems)

namespace SettingsService

def noKey (svc : SettingsService) (key : String) : PatchError :=
  .noKey <| match svc.keyError with
    | none => key ++ " is a secret, and " ++ keyEnv ++ " is not configured on this server, so it cannot be saved here"
    | some var => key ++ " is a secret, and " ++ var ++
        " is set but could not be loaded on this server (see the settings status), so it cannot be saved here"

section
variable (svc : SettingsService)

def encode (d : Setting) (v : Json) : Except PatchError Stored :=
  if d.1.secret = false then .ok (.json v)
  else
    match svc.keys with
    | none => .error (svc.noKey d.1.key)
    | some keys => .ok (.encrypted (keys.encrypt d.1.key (some v)))

def encodeAll (svc : SettingsService) : List (Setting × Json) → Except PatchError (List NewValue)
  | [] => .ok []
  | (d, v) :: rest =>
    match svc.encode d v with
    | .error e => .error e
    | .ok payload => (svc.encodeAll rest).map fun values => ⟨d.1.key, payload⟩ :: values

section
variable (P : UrlParser)

/-- The part of `save` before the rows are read: the accepted changes and what to write. -/
def prepare (changes : TreeMap String Json) :
    Except PatchError (List (Setting × Json) × List NewValue) :=
  match acceptChanges P changes.toList with
  | .error e => .error e
  | .ok (accepted, problems) =>
    if problems ≠ [] then .error (.invalid problems) else (svc.encodeAll accepted).map fun values => (accepted, values)

/-- `stored_secret_is_set`: a value that cannot be read counts as set. -/
def storedSecretIsSet (d : Setting) (value : Stored) : Bool :=
  match value, svc.keys with
  | .encrypted blob, some keys =>
    match keys.decrypt d.1.key blob with
    | .ok (some v) => !isEmpty v
    | .ok none => true
    | .error _ => true
  | .encrypted _, none => true
  | .json v, _ => !isEmpty v

/-- The secret has a value in the next configuration or in the database. -/
def secretIsSet (rows : List SettingRow) (next : Config) (key : String) : Bool :=
  match find key with
  | none => false
  | some d =>
    !isEmpty (d.get next) ||
      match rows.find? fun r => r.key = key with
      | some row => svc.storedSecretIsSet d row.payload
      | none => false

/-- The secrets of the pair that have a value and are not entered again. -/
def missingSecrets (changes : TreeMap String Json) (rows : List SettingRow) (next : Config)
    (pair : UrlCredentials) : List String :=
  (pair.secrets.filter fun k => k ∉ changes).filter (svc.secretIsSet rows next)

def itOrThem (secrets : List String) : String := if secrets.length = 1 then "it" else "them"

/-- A changed destination without its secrets. -/
def needsSecrets (changes : TreeMap String Json) (rows : List SettingRow) (next : Config)
    (pair : UrlCredentials) : Option String :=
  match changes[pair.url]? with
  | none => none
  | some dest =>
    if (find pair.url).any fun d => d.get next = dest then none
    else
      let missing := svc.missingSecrets changes rows next pair
      if missing = [] then none
      else some ("changing " ++ pair.url ++ " sends " ++ String.intercalate " and " missing ++
        " to the new host; re-enter " ++ itOrThem missing ++ " in the same save")

def notSettled (url : String) (sent : List String) : String :=
  url ++ " is not settled: its saved value, or the one a restart would run, differs from the running one, so saving " ++
    String.intercalate " and " sent ++ " alone could send " ++ itOrThem sent ++ " to a host nobody confirmed; include " ++
    url ++ " in the same save"

/-- The accepted changes on top of the configuration. -/
def setAll : List (Setting × Json) → Config → Except PatchError Config
  | [], c => .ok c
  | (d, v) :: rest, c =>
    match d.set c v with
    | .ok c' => setAll rest c'
    | .error reason => .error (.invalid [⟨d.1.key, reason⟩])

/-- The rows as they would be, for the dry run of the live reload. -/
def rowsAfter (stored : List StoredSetting) (changes : TreeMap String Json) (values : List NewValue) : List StoredSetting :=
  (stored.filter fun r => r.key ∉ changes) ++ values.map fun v => ⟨v.key, v.payload, maxRev stored + 1⟩

def dryRun (request : SaveRequest) (accepted : List (Setting × Json))
    (values : List NewValue) (stored : List StoredSetting) : Except PatchError Unit :=
  if request.safeMode = false ∧ accepted.any fun a => a.1.1.applyClass = .live then
    match reloadLive P request.reloading (rowsAfter stored request.changes values) svc.keys svc.policy with
    | .ok _ => .ok ()
    | .error problems => .error (.invalid (problems.map fun p =>
        ⟨p.key, p.reason ++ " — conflicts with the running configuration until \"Apply & restart\" " ++
          "applies the pending changes"⟩))
  else .ok ()

/-- The part of `save` between reading the rows and writing: the configuration it accepts. -/
def judge (request : SaveRequest) (accepted : List (Setting × Json))
    (values : List NewValue) (rows : List SettingRow) : Except PatchError Config :=
  let stored := rows.map SettingRow.toStored
  if maxRev stored ≠ request.expectedRev then .error (.conflict (maxRev stored))
  else
    let old := (applyOverlay P svc.base stored svc.keys svc.policy).config
    match urlCredentials.findSome? (svc.needsSecrets request.changes rows old) with
    | some message => .error (.needsCredentials message)
    | none =>
      match unconfirmedDestination (fun k => k ∈ request.changes) (unsettledDestinations stored old request.running) with
      | some (url, sent) => .error (.needsCredentials (notSettled url sent))
      | none =>
        match setAll accepted old with
        | .error e => .error e
        | .ok next =>
          match validateConfig P next svc.policy with
          | [] => (svc.dryRun P request accepted values stored).map fun _ => next
          | errors => .error (.invalid (errors.map fun reason => ⟨"*", reason⟩))

structure Saved where
  rev : Int
  rows : List SettingRow

/-- The rows a save reports: those it read with what it wrote. -/
def savedRows (rev : Int) (actor : String) (rows : List SettingRow) (v : NewValue) : List SettingRow :=
  let row : SettingRow := ⟨v.key, v.payload, rev, actor⟩
  if rows.any fun r => r.key = v.key then rows.map fun r => if r.key = v.key then row else r else rows ++ [row]

/-- The write of a save and what follows it: the live reload reads the rows once more. -/
def commitSave (request : SaveRequest) (values : List NewValue) (rows : List SettingRow) :
    Action (Except PatchError Saved) :=
  .call (.write values request.expectedRev request.actor (.saving svc request rows)) fun r =>
    match r with
    | .error (.conflict _ current) => .ret (.error (.conflict current))
    | .error (.db e) => .ret (.error (.db e))
    | .ok rev => .call .loadAll fun _ => .ret (.ok ⟨rev, values.foldl (savedRows rev request.actor) rows⟩)

/-- `save`. -/
def save (request : SaveRequest) : Action (Except PatchError Saved) :=
  match svc.prepare P request.changes with
  | .error e => .ret (.error e)
  | .ok (accepted, values) =>
    .call .loadAll fun r =>
      match r with
      | .error e => .ret (.error (.db e))
      | .ok rows =>
        match svc.judge P request accepted values rows with
        | .error e => .ret (.error e)
        | .ok _ => svc.commitSave request values rows

inductive ApiError where
  | badRequest (message : String)
  | patch (e : PatchError)
deriving DecidableEq

/-- `patch_settings`, from the admin's request on; its lock-out guard only refuses more. -/
def patchSettings (request : SaveRequest) : Action (Except ApiError Saved) :=
  if request.changes.isEmpty then .ret (.error (.badRequest "no changes"))
  else (svc.save P request).bind fun r => .ret (r.mapError .patch)

/-! ## Booting -/

def loadStored : Action (Except String (List StoredSetting)) :=
  .call .loadAll fun r => .ret (r.map fun rows => rows.map SettingRow.toStored)

/-- A row of `reencrypt_previous`. -/
def reencryptRow (keys : KeyRing) (row : SettingRow) : Option (String × Int × Blob) :=
  match row.payload with
  | .json _ => none
  | .encrypted blob =>
    if keys.isOnPrevious blob = false then none
    else
      match keys.decrypt row.key blob with
      | .ok plain => some (row.key, row.rev, keys.encrypt row.key plain)
      | .error _ => none

def reencryptPrevious (keys : KeyRing) : Action (Except String Unit) :=
  .call .loadAll fun r =>
    match r with
    | .error e => .ret (.error e)
    | .ok rows =>
      let updates := rows.filterMap (reencryptRow keys)
      if updates = [] then .ret (.ok ()) else .call (.reencrypt updates) fun r => .ret (r.map fun _ => ())

def resetAttempts : Nat := 3

/-- The destinations to reset: to their file/env value, where that is valid. -/
def resets (base : Config) (ov : Overlay) : List NewValue :=
  ((ov.unpairedDestinations.filterMap find).filter fun d => (d.1.validate P (d.get base)).isOk).map fun d =>
    ⟨d.1.key, .json (d.get base)⟩

/-- The loop of `overlay_resetting_unpaired`, with the rows last read. -/
def resettingUnpaired (svc : SettingsService) (P : UrlParser) : Nat → List StoredSetting → Action (Except String Overlay)
  | 0, stored => .ret (.ok (applyOverlay P svc.base stored svc.keys svc.policy))
  | n + 1, stored =>
    let ov := applyOverlay P svc.base stored svc.keys svc.policy
    if resets P svc.base ov = [] then .ret (.ok ov)
    else
      .call (.write (resets P svc.base ov) (maxRev stored) "system" (.resetting svc.base)) fun r =>
        match r with
        | .error (.db e) => .ret (.error e)
        | .ok _ | .error (.conflict _ _) => loadStored.andThen (svc.resettingUnpaired P n)

def overlayResettingUnpaired : Action (Except String Overlay) :=
  loadStored.andThen (svc.resettingUnpaired P resetAttempts)

/-- What boot decides. -/
structure Booted where
  config : Config
  safeModeReason : Option String
  loadedRev : Int
  fromDb : List String

def safeModeReason (ov : Overlay) : Option String :=
  if ov.problems = [] then none
  else some (String.intercalate "; " (ov.problems.map fun p => p.key ++ ": " ++ p.reason))

/-- The values boot offers to the import, given the rows under the lock. -/
def importFilter (rows : List SettingRow) : List NewValue :=
  (guardImport (importPlan P svc.base svc.keys) (rows.map SettingRow.toStored) svc.base).map fun (key, v) => ⟨key, v⟩

def reencryptIfKeyed : Action (Except String Unit) :=
  match svc.keys with
  | none => .ret (.ok ())
  | some keys => reencryptPrevious keys

/-- The end of `boot`: run file and env, or the overlay. -/
def chooseConfig (breakGlass : Bool) : Action (Except String Booted) :=
  if breakGlass then
    loadStored.andThen fun stored => .ret (.ok ⟨svc.base, some "MM_SETTINGS_SAFE_MODE is set", maxRev stored, []⟩)
  else
    (svc.overlayResettingUnpaired P).andThen fun ov => .ret (.ok ⟨ov.config, safeModeReason ov, ov.loadedRev, ov.fromDb⟩)

/-- `boot`. -/
def boot (breakGlass : Bool) : Action (Except String Booted) :=
  .call (.importFiltered (svc.importFilter P) svc.base) fun r =>
    match r with
    | .error e => .ret (.error e)
    | .ok () => svc.reencryptIfKeyed.andThen fun _ => svc.chooseConfig P breakGlass

end

end

end SettingsService

/-! ## Instances -/

/-- What an instance does with the settings. -/
inductive Job where
  | boot (service : SettingsService) (breakGlass : Bool)
  | patch (service : SettingsService) (request : SaveRequest)

inductive Outcome where
  | booted (r : Except String SettingsService.Booted)
  | patched (r : Except SettingsService.ApiError SettingsService.Saved)

def Job.program (P : UrlParser) : Job → Action Outcome
  | .boot svc breakGlass => (svc.boot P breakGlass).bind fun r => .ret (.booted r)
  | .patch svc request => (svc.patchSettings P request).bind fun r => .ret (.patched r)

/-- Any number of instances over one database. -/
abbrev Instances : Type := Pool Database Statement Statement.Reply Job Outcome

/-- Nothing is running yet. -/
def Instances.start (store : Store) : Instances := ⟨⟨store, []⟩, [], []⟩

def instancesStep (P : UrlParser) : Instances → Event Job Fate Move → Instances := poolStep database (Job.program P)

end MatrixMedia.Settings

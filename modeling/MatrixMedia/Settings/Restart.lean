import MatrixMedia.Settings.Service

/-!
# Restarting to apply settings

`apply_restart` and `poll_once` of `mm-api/src/settings_service.rs`, with `request_restart`
and `meta` of `settings_db.rs`, next to the boots and saves of `Service`. An instance is one
process at a time: starting it again replaces the process it had, and a process that was
replaced does nothing more. What a process keeps in memory is what boot left there and
`restart_at`; `restart_scheduled` is set together with it.

The cluster keeps a log of what concerns restarts: what was read, committed and requested,
which revision a boot loaded and which process scheduled its restart. No program reads it.
-/

namespace MatrixMedia.Settings
open Lib Lib.Interaction SettingsService
open Std (TreeMap)

/-- A process: its instance, and which of the instance's processes it is. -/
structure Process where
  name : String
  generation : Nat
deriving DecidableEq

/-- What a booted process has in memory. -/
structure ProcessState where
  loadedRev : Int
  /-- When the scheduled restart fires. -/
  restartAt : Option Nat
deriving DecidableEq

/-- The current process of an instance; its state is there once it has booted. -/
structure Instance where
  generation : Nat
  state : Option ProcessState
deriving DecidableEq

inductive Entry where
  | spawned (p : Process)
  /-- A process read the rows, `rev` the newest revision. -/
  | read (p : Process) (rev : Int)
  /-- A transaction of a process made `rev` the newest revision. -/
  | committed (p : Process) (rev : Int)
  | requested (p : Process) (rev : Int)
  | booted (p : Process) (loadedRev : Int)
  | scheduled (p : Process)
deriving DecidableEq

def Entry.process : Entry → Process
  | .spawned p | .read p _ | .committed p _ | .requested p _ | .booted p _ | .scheduled p => p

structure Cluster where
  db : Database
  /-- `mm_settings_meta.restart_requested_rev`. -/
  restartRequestedRev : Int
  instances : TreeMap String Instance
  /-- Newest first. -/
  log : List Entry

/-- The process is the current one of its instance. -/
def Cluster.Alive (s : Cluster) (p : Process) : Prop := (s.instances[p.name]?).map Instance.generation = some p.generation

instance Cluster.decidableAlive (s : Cluster) (p : Process) : Decidable (s.Alive p) :=
  inferInstanceAs (Decidable (_ = _))

/-! ## Calls -/

/-- What processes call: the database, their own memory and the clock. -/
inductive Call where
  /-- A new process of the instance is started. -/
  | spawn (name : String)
  | statement (p : Process) (q : Statement)
  | maxRev (p : Process)
  | metaRow (p : Process)
  | requestRestart (p : Process)
  /-- Boot is done: the service is there. -/
  | booted (p : Process) (loadedRev : Int)
  | loadedRev (p : Process)
  | restartScheduled (p : Process)
  | scheduleRestart (p : Process) (after : Nat)
  | now (p : Process)

abbrev Call.Reply : Call → Type
  | .spawn _ => Process
  | .statement _ q => q.Reply
  | .maxRev _ | .metaRow _ | .requestRestart _ => Except String Int
  | .booted _ _ => Unit
  | .loadedRev _ => Option Int
  | .restartScheduled _ => Bool
  | .scheduleRestart _ _ | .now _ => Nat

def Call.process? : Call → Option Process
  | .spawn _ => none
  | .statement p _ | .maxRev p | .metaRow p | .requestRestart p | .booted p _ | .loadedRev p | .restartScheduled p
  | .scheduleRestart p _ | .now p => some p

/-- What the outside decides about a call: how a statement ends, and what the clock says. -/
structure CallIo where
  fate : Fate
  now : Nat

/-- What a statement leaves in the log. -/
def statementEntries (p : Process) (q : Statement) (fate : Fate) (before after : Database) : List Entry :=
  match q, fate with
  | .loadAll, .served => [.read p before.store.maxRev]
  | _, _ => if after.store.maxRev = before.store.maxRev then [] else [.committed p after.store.maxRev]

/-- `request_restart`. -/
def Cluster.requestRestart (s : Cluster) (p : Process) : Cluster :=
  { s with restartRequestedRev := s.db.store.maxRev, log := .requested p s.db.store.maxRev :: s.log }

def Cluster.setState (s : Cluster) (p : Process) (state : ProcessState) (entry : Entry) : Cluster :=
  { s with instances := s.instances.insert p.name ⟨p.generation, some state⟩, log := entry :: s.log }

/-- The memory of a process. -/
def Cluster.state? (s : Cluster) (p : Process) : Option ProcessState := (s.instances[p.name]?).bind Instance.state

def Fate.read {α : Type} (a : α) : Fate → Except String α
  | .served => .ok a
  | .failed e | .unconfirmed e => .error e

def Cluster.request (s : Cluster) : (q : Call) → CallIo → Cluster × q.Reply
  | .spawn name, _ =>
    let p : Process := ⟨name, ((s.instances[name]?).map Instance.generation).getD 0 + 1⟩
    ({ s with instances := s.instances.insert name ⟨p.generation, none⟩, log := .spawned p :: s.log }, p)
  | .statement p q, io =>
    let (db, r) := database.request s.db q io.fate
    ({ s with db := db, log := statementEntries p q io.fate s.db db ++ s.log }, r)
  | .maxRev _, io => (s, io.fate.read s.db.store.maxRev)
  | .metaRow _, io => (s, io.fate.read s.restartRequestedRev)
  | .requestRestart p, io =>
    match io.fate with
    | .served => (s.requestRestart p, .ok s.db.store.maxRev)
    | .failed e => (s, .error e)
    | .unconfirmed e => (s.requestRestart p, .error e)
  | .booted p loadedRev, _ =>
    match s.state? p with
    -- a process boots once
    | some _ => (s, ())
    | none => (s.setState p ⟨loadedRev, none⟩ (.booted p loadedRev), ())
  | .loadedRev p, _ => (s, (s.state? p).map ProcessState.loadedRev)
  | .restartScheduled p, _ => (s, ((s.state? p).bind ProcessState.restartAt).isSome)
  | .scheduleRestart p after, io =>
    match s.state? p with
    | some ⟨loadedRev, none⟩ => (s.setState p ⟨loadedRev, some (io.now + after)⟩ (.scheduled p), io.now + after)
    -- at most once: the earlier deadline stays
    | some ⟨_, some deadline⟩ => (s, deadline)
    | none => (s, 0)
  | .now _, io => (s, io.now)

def cluster : Service Cluster CallIo Move Call Call.Reply where
  request := Cluster.request
  move := fun s m => { s with db := database.move s.db m }

abbrev ClusterAction (α : Type) : Type := Prog Call Call.Reply α

/-- A program over the database, run by a process. -/
def Process.run {α : Type} (p : Process) (action : Action α) : ClusterAction α := action.via (.statement p) fun _ r => r

/-! ## Polling and requesting -/

namespace SettingsService

/-- `reload_live_now`. -/
def reloadLiveNow : Action (Except String Unit) := loadStored.bind fun r => .ret (r.map fun _ => ())

/-- `poll_once`, with `last_seen_rev` as it finds it and the random delay it would pick. -/
def pollOnce (p : Process) (breakGlass : Bool) (lastSeenRev : Int) (delay : Nat) : ClusterAction (Except String Unit) :=
  .call (.maxRev p) fun r =>
    match r with
    | .error e => .ret (.error e)
    | .ok rev =>
      (if lastSeenRev < rev then p.run reloadLiveNow else .ret (.ok ())).andThen fun _ =>
        -- a restart does not leave break-glass
        if breakGlass then .ret (.ok ())
        else
          .call (.metaRow p) fun r =>
            match r with
            | .error e => .ret (.error e)
            | .ok requested =>
              .call (.loadedRev p) fun loaded =>
                if loaded.any fun loaded => loaded < requested then
                  .call (.restartScheduled p) fun scheduled =>
                    if scheduled then .ret (.ok ()) else .call (.scheduleRestart p delay) fun _ => .ret (.ok ())
                else .ret (.ok ())

inductive ApplyError where
  | breakGlass
  | patch (e : PatchError)
deriving DecidableEq

inductive ApplyOutcome where
  | restarting (inSecs : Nat)
  | nothingToRestart
deriving DecidableEq

/-- The rest of `apply_restart` once the request is recorded. -/
def scheduleOwn (p : Process) (requested : Int) (restartDelay : Nat) : ClusterAction (Except ApplyError ApplyOutcome) :=
  .call (.loadedRev p) fun loaded =>
    if loaded.any fun loaded => loaded < requested then
      .call (.scheduleRestart p restartDelay) fun deadline =>
        .call (.now p) fun now => .ret (.ok (.restarting ((deadline - now + 999999999) / 1000000000)))
    else .ret (.ok .nothingToRestart)

/-- `apply_restart`. -/
def applyRestart (svc : SettingsService) (P : UrlParser) (p : Process) (breakGlass : Bool) (restartDelay : Nat) :
    ClusterAction (Except ApplyError ApplyOutcome) :=
  if breakGlass then .ret (.error .breakGlass)
  else
    (p.run loadStored).bind fun r =>
      match r with
      | .error e => .ret (.error (.patch (.db e)))
      | .ok stored =>
        match (applyOverlay P svc.base stored svc.keys svc.policy).problems with
        | [] =>
          .call (.requestRestart p) fun r =>
            match r with
            | .error e => .ret (.error (.patch (.db e)))
            | .ok requested => scheduleOwn p requested restartDelay
        | problems => .ret (.error (.patch (.invalid problems)))

end SettingsService

/-! ## The cluster -/

/-- What processes do with the settings. -/
inductive ClusterJob where
  /-- A new process of the instance boots. -/
  | boot (name : String) (service : SettingsService) (breakGlass : Bool)
  | patch (p : Process) (service : SettingsService) (request : SaveRequest)
  | poll (p : Process) (breakGlass : Bool) (lastSeenRev : Int) (delay : Nat)
  | apply (p : Process) (service : SettingsService) (breakGlass : Bool) (restartDelay : Nat)

inductive ClusterOutcome where
  | booted (r : Except String Booted)
  | patched (r : Except ApiError Saved)
  | polled (r : Except String Unit)
  | applied (r : Except ApplyError ApplyOutcome)

def ClusterJob.program (P : UrlParser) : ClusterJob → ClusterAction ClusterOutcome
  | .boot name svc breakGlass =>
    .call (.spawn name) fun p =>
      (p.run (svc.boot P breakGlass)).bind fun r =>
        match r with
        | .error e => .ret (.booted (.error e))
        | .ok b => .call (.booted p b.loadedRev) fun _ => .ret (.booted (.ok b))
  | .patch p svc request => (p.run (svc.patchSettings P request)).bind fun r => .ret (.patched r)
  | .poll p breakGlass lastSeenRev delay =>
    (pollOnce p breakGlass lastSeenRev delay).bind fun r => .ret (.polled r)
  | .apply p svc breakGlass restartDelay => (svc.applyRestart P p breakGlass restartDelay).bind fun r => .ret (.applied r)

/-- The instances of a deployment over one database. -/
abbrev Deployment : Type := Pool Cluster Call Call.Reply ClusterJob ClusterOutcome

/-- Nothing is running yet. -/
def Deployment.start (store : Store) (restartRequestedRev : Int) : Deployment :=
  ⟨⟨⟨store, []⟩, restartRequestedRev, ∅, []⟩, [], []⟩

def deploymentStep (P : UrlParser) : Deployment → Event ClusterJob CallIo Move → Deployment :=
  poolStep cluster (ClusterJob.program P)

end MatrixMedia.Settings

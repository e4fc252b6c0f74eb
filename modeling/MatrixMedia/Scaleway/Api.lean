import MatrixMedia.Lib.Interaction
import MatrixMedia.Fleet.Store

/-!
# The Scaleway API as its documentation has it

The wire types of `mm-fleet/src/scaleway.rs`, the requests the provider makes, and the
account they act on. Terminating a running server is asynchronous and may fail after it
was accepted; when it completes it takes the `l_ssd` and `scratch` volumes along and only
detaches the others. Deleting a stopped server leaves all of its volumes. A volume is
made together with its server, and ids are never used twice: `madeServers` and
`madeVolumes` remember every id that was handed out. A request may fail with or without
having taken effect (`Outcome`); a 404 is never made up, and a success never either.
-/

namespace MatrixMedia.Scaleway
open Lib Lib.Chrono Lib.Interaction MatrixMedia.Fleet

abbrev ServerId := String
abbrev VolumeId := String

/-! ## Wire types -/

inductive VolumeType where
  | lSsd
  | bSsd
  | sbsVolume
  | scratch
  | other (name : String)
deriving DecidableEq

def VolumeType.asStr : VolumeType → String
  | .lSsd => "l_ssd"
  | .bSsd => "b_ssd"
  | .sbsVolume => "sbs_volume"
  | .scratch => "scratch"
  | .other name => name

inductive ServerState where
  | running
  | stopped
  | stoppedInPlace
  | starting
  | stopping
  /-- `locked`, or a state this code does not know. -/
  | other (name : String)
deriving DecidableEq

structure ServerVolume where
  id : VolumeId
  volumeType : VolumeType
deriving DecidableEq

/-- Did `terminate` already delete this volume? -/
def ServerVolume.deletedByTerminate (v : ServerVolume) : Bool :=
  match v.volumeType with
  | .lSsd | .scratch => true
  | _ => false

/-- Is this volume in the hands of the block API? -/
def ServerVolume.isBlockStorage (v : ServerVolume) : Bool := v.volumeType == .sbsVolume

structure Server where
  id : ServerId
  state : ServerState
  project : String
  creationDate : Option DateTime
  tags : List String
  publicIp : Option String
  volumes : List ServerVolume
deriving DecidableEq

structure BlockVolume where
  id : VolumeId
  projectId : String
  status : String
  /-- The status of each reference. -/
  references : List String
  tags : List String
  createdAt : Option DateTime
deriving DecidableEq

/-- One page of a list, and the total if the API reports one. -/
structure Page (β : Type) where
  items : List β
  total : Option Nat

structure Status where
  code : Nat
  reason : String
deriving DecidableEq

def Status.isSuccess (s : Status) : Bool := 200 ≤ s.code && s.code < 300
def Status.isServerError (s : Status) : Bool := 500 ≤ s.code && s.code < 600
def Status.text (s : Status) : String := toString s.code ++ " " ++ s.reason

def notFound : Status := ⟨404, "Not Found"⟩

/-- The body of an error: its text, and the two fields read from it where it is JSON. -/
structure ErrorBody where
  text : String
  kind : Option String
  precondition : Option String
deriving DecidableEq

/-- What came of one request. -/
inductive Reply (β : Type) where
  /-- No response. -/
  | transport (error : String)
  | http (status : Status) (body : ErrorBody)
  /-- A success whose body cannot be read. -/
  | garbled (error : String)
  | ok (value : β)

/-! ## Requests -/

/-- The body of `POST /servers`. -/
structure CreateServer where
  name : String
  commercialType : String
  image : String
  project : String
  dynamicIpRequired : Bool
  tags : List String

inductive ServerAction where
  | poweron
  | terminate
deriving DecidableEq

def ServerAction.asStr : ServerAction → String
  | .poweron => "poweron"
  | .terminate => "terminate"

/-- The API that owns a volume. -/
inductive VolumeApi where
  | blockApi
  | instanceApi
deriving DecidableEq

def VolumeType.api : VolumeType → VolumeApi
  | .sbsVolume => .blockApi
  | _ => .instanceApi

inductive Request where
  | createServer (body : CreateServer)
  | getServer (id : ServerId)
  | listServers (project tag : String) (page : Nat)
  | serverAction (id : ServerId) (action : ServerAction)
  | deleteServer (id : ServerId)
  | writeCloudInit (id : ServerId) (userData : String)
  | getBlockVolume (id : VolumeId)
  | listBlockVolumes (project tag : String) (page : Nat)
  | tagVolume (id : VolumeId) (tags : List String)
  | deleteVolume (api : VolumeApi) (id : VolumeId)
  /-- A `GET` of the volume, of which only its state is read. -/
  | checkVolume (api : VolumeApi) (id : VolumeId)

@[reducible] def Request.Answer : Request → Type
  | .createServer _ => Server
  | .getServer _ => Server
  | .listServers .. => Page Server
  | .getBlockVolume _ => BlockVolume
  | .listBlockVolumes .. => Page BlockVolume
  | .checkVolume _ _ => Option String
  | _ => Unit

@[reducible] def Response (q : Request) : Type := Reply q.Answer

/-- The page size of both lists. -/
def listPerPage : Nat := 100

/-! ## The account -/

/-- How an accepted removal removes a server. -/
inductive Removal where
  | terminate
  | delete
deriving DecidableEq

/-- Does the removal delete volumes of this type with the server? -/
def Removal.deletes : Removal → VolumeType → Bool
  | .terminate, .lSsd => true
  | .terminate, .scratch => true
  | _, _ => false

structure CloudServer where
  id : ServerId
  state : ServerState
  project : String
  creationDate : Option DateTime
  tags : List String
  publicIp : Option String
  /-- A removal that was accepted and has neither completed nor failed. -/
  removal : Option Removal
deriving DecidableEq

structure CloudVolume where
  id : VolumeId
  volumeType : VolumeType
  /-- The server it was made with. -/
  server : ServerId
  attached : Bool
  projectId : String
  status : String
  references : List String
  tags : List String
  createdAt : Option DateTime
  /-- A deletion was accepted. -/
  deleting : Bool
deriving DecidableEq

/-- The servers and volumes that exist, newest first, and the ids handed out so far. -/
structure Cloud where
  servers : List CloudServer
  volumes : List CloudVolume
  madeServers : List ServerId
  madeVolumes : List (VolumeId × ServerId × VolumeType)
deriving DecidableEq

def Cloud.empty : Cloud := ⟨[], [], [], []⟩

/-- What the account chooses when a server is made. -/
structure NewServer where
  id : ServerId
  volumes : List ServerVolume
  publicIp : Option String
  creationDate : Option DateTime

abbrev ErrorStatus := { s : Status // s.isSuccess = false ∧ s.code ≠ 404 }

inductive Outcome where
  | answered
  /-- The request failed before it took effect. -/
  | unsent (error : String)
  /-- It took effect and the response was lost. -/
  | lost (error : String)
  | refused (status : ErrorStatus) (body : ErrorBody)
  /-- It took effect and an error was reported. -/
  | failedAfter (status : ErrorStatus) (body : ErrorBody)
  /-- It took effect and the body of the success cannot be read. -/
  | garbled (error : String)

/-- What the outside decides about one request. -/
structure Fate where
  outcome : Outcome
  made : NewServer
  /-- Whether a list reports its total. -/
  total : Bool

section
variable (c : Cloud)

def Cloud.server? (id : ServerId) : Option CloudServer := c.servers.find? fun s => s.id == id

def Cloud.volume? (api : VolumeApi) (id : VolumeId) : Option CloudVolume :=
  c.volumes.find? fun v => v.id == id && v.volumeType.api == api

/-- The server as the API reports it, with the volumes attached to it. -/
def Cloud.view (s : CloudServer) : Server where
  id := s.id
  state := s.state
  project := s.project
  creationDate := s.creationDate
  tags := s.tags
  publicIp := s.publicIp
  volumes := (c.volumes.filter fun v => v.server == s.id && v.attached).map fun v => ⟨v.id, v.volumeType⟩

def CloudVolume.view (v : CloudVolume) : BlockVolume := ⟨v.id, v.projectId, v.status, v.references, v.tags, v.createdAt⟩

def Cloud.setServer (id : ServerId) (f : CloudServer → CloudServer) : Cloud :=
  { c with servers := c.servers.map fun s => if s.id = id then f s else s }

def Cloud.setVolume (id : VolumeId) (f : CloudVolume → CloudVolume) : Cloud :=
  { c with volumes := c.volumes.map fun v => if v.id = id then f v else v }

/-- A volume of a server that was just made. -/
def newVolume (made : NewServer) (project : String) (v : ServerVolume) : CloudVolume where
  id := v.id
  volumeType := v.volumeType
  server := made.id
  attached := true
  projectId := project
  status := "in_use"
  references := ["attached"]
  tags := []
  createdAt := made.creationDate
  deleting := false

def newServer (made : NewServer) (body : CreateServer) : CloudServer where
  id := made.id
  state := .stopped
  project := body.project
  creationDate := made.creationDate
  tags := body.tags
  publicIp := made.publicIp
  removal := none

/-- `POST /servers`: the server is made stopped, with its volumes attached. -/
def Cloud.make (made : NewServer) (body : CreateServer) : Cloud where
  servers := newServer made body :: c.servers
  volumes := made.volumes.map (newVolume made body.project) ++ c.volumes
  madeServers := made.id :: c.madeServers
  madeVolumes := (made.volumes.map fun v => (v.id, made.id, v.volumeType)) ++ c.madeVolumes

/-- The servers of a project that carry a tag. -/
def Cloud.taggedServers (project tag : String) : List CloudServer :=
  c.servers.filter fun s => s.project == project && s.tags.contains tag

/-- The block volumes of a project that carry a tag. -/
def Cloud.taggedVolumes (project tag : String) : List CloudVolume :=
  c.volumes.filter fun v => v.volumeType == .sbsVolume && v.projectId == project && v.tags.contains tag

/-- Page `page` of a list, counted from 1. -/
def pageOf {β : Type} (page : Nat) (total : Bool) (items : List β) : Page β :=
  ⟨(items.drop ((page - 1) * listPerPage)).take listPerPage, if total then some items.length else none⟩

def wrongState : Status := ⟨400, "Bad Request"⟩
def preconditionFailed : Status := ⟨412, "Precondition Failed"⟩
def stillInUse : ErrorBody := ⟨"", some "precondition_failed", some "resource_still_in_use"⟩
def noBody : ErrorBody := ⟨"", none, none⟩

/-- A request to a server: 404 if it is gone. -/
def Cloud.onServer {β : Type} (id : ServerId) (f : CloudServer → Cloud × Reply β) : Cloud × Reply β :=
  match c.server? id with
  | none => (c, .http notFound noBody)
  | some s => f s

/-- A request to a volume: 404 if it is gone. -/
def Cloud.onVolume {β : Type} (api : VolumeApi) (id : VolumeId) (f : CloudVolume → Cloud × Reply β) : Cloud × Reply β :=
  match c.volume? api id with
  | none => (c, .http notFound noBody)
  | some v => f v

/-- What each request does when nothing goes wrong on the way. -/
def Cloud.perform (fate : Fate) : (q : Request) → Cloud × Response q
  | .createServer body =>
    let c := c.make fate.made body
    (c, .ok (c.view (newServer fate.made body)))
  | .getServer id => c.onServer id fun s => (c, .ok (c.view s))
  | .listServers project tag page =>
    (c, .ok (pageOf page fate.total ((c.taggedServers project tag).map c.view)))
  | .serverAction id .poweron => c.onServer id fun s =>
    if s.state = .stopped ∨ s.state = .stoppedInPlace then
      (c.setServer id fun s => { s with state := .starting }, .ok ())
    else (c, .http wrongState noBody)
  | .serverAction id .terminate => c.onServer id fun s =>
    if s.state = .running then (c.setServer id fun s => { s with removal := some .terminate }, .ok ())
    else (c, .http wrongState noBody)
  | .deleteServer id => c.onServer id fun s =>
    if s.state = .stopped ∨ s.state = .stoppedInPlace then
      (c.setServer id fun s => { s with removal := some .delete }, .ok ())
    else (c, .http wrongState noBody)
  | .writeCloudInit id _ => c.onServer id fun _ => (c, .ok ())
  | .getBlockVolume id => c.onVolume .blockApi id fun v => (c, .ok v.view)
  | .listBlockVolumes project tag page =>
    (c, .ok (pageOf page fate.total ((c.taggedVolumes project tag).map CloudVolume.view)))
  | .tagVolume id tags => c.onVolume .blockApi id fun _ => (c.setVolume id fun v => { v with tags := tags }, .ok ())
  | .deleteVolume api id => c.onVolume api id fun v =>
    if v.attached then (c, .http preconditionFailed stillInUse)
    else (c.setVolume id fun v => { v with deleting := true, status := "deleting" }, .ok ())
  | .checkVolume api id => c.onVolume api id fun v => (c, .ok (some v.status))

/-- One request, with its fate. -/
def Cloud.request (q : Request) (fate : Fate) : Cloud × Response q :=
  match fate.outcome with
  | .answered => c.perform fate q
  | .unsent error => (c, .transport error)
  | .refused status body => (c, .http status.1 body)
  | .lost error => ((c.perform fate q).1, .transport error)
  | .failedAfter status body => ((c.perform fate q).1, .http status.1 body)
  | .garbled error =>
    match c.perform fate q with
    | (c, .ok _) => (c, .garbled error)
    | answer => answer

/-- A removal completes. -/
def Cloud.remove (id : ServerId) (removal : Removal) : Cloud :=
  { c with
    servers := c.servers.filter fun s => s.id != id
    volumes := (c.volumes.filter fun v => !(v.server == id && removal.deletes v.volumeType)).map fun v =>
      if v.server = id then { v with attached := false, status := "available", references := [] } else v }

end

/-- What happens in the account by itself. -/
inductive Move where
  | serverState (id : ServerId) (state : ServerState)
  /-- An accepted removal completes. -/
  | removed (id : ServerId)
  /-- An accepted removal fails, and the server stays. -/
  | removalFailed (id : ServerId)
  | volumeState (id : VolumeId) (status : String) (references : List String)
  /-- An accepted deletion of a volume completes. -/
  | volumeRemoved (id : VolumeId)
  | volumeRemovalFailed (id : VolumeId)

def Cloud.move (c : Cloud) : Move → Cloud
  | .serverState id state => c.setServer id fun s => { s with state := state }
  | .removed id =>
    match (c.server? id).bind CloudServer.removal with
    | some removal => c.remove id removal
    | none => c
  | .removalFailed id => c.setServer id fun s => { s with removal := none }
  | .volumeState id status references =>
    c.setVolume id fun v => { v with status := status, references := references }
  | .volumeRemoved id => { c with volumes := c.volumes.filter fun v => !(v.id == id && v.deleting) }
  | .volumeRemovalFailed id => c.setVolume id fun v => { v with deleting := false, status := "error" }

/-- The account as a service. -/
def scaleway : Service Cloud Fate Move Request Response := ⟨Cloud.request, Cloud.move⟩

end MatrixMedia.Scaleway

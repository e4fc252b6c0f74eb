import MatrixMedia.Scaleway.Api

/-!
# The Scaleway provider (`mm-fleet/src/scaleway.rs`)

`create`, `destroy` and `list` as programs over the API's requests. Every loop of the
source is bounded by `settle_polls` or by the page limit, so the programs are finite. Sleeps
are left out: between any two requests anything may happen. A `HashMap` of volumes is an
association list in the order of insertion.
-/

namespace MatrixMedia.Scaleway
open Lib Lib.Text Lib.Chrono Lib.Interaction MatrixMedia.Fleet

/-- A `ScalewayProvider`, without its credentials and addresses. -/
structure ScalewayProvider where
  projectId : String
  zone : String
  image : String
  gpuImage : Option String
  fleetTag : String
  settlePolls : Nat

structure InstanceSpec where
  mmNodeId : NodeId
  flavor : NodeFlavor
  region : String
  size : String
  userData : String

/-- A fallible asynchronous method. -/
abbrev Call (α : Type) := Prog Request Response (Except ProviderError α)

/-! ## Classifying failures -/

/-- `ScalewayProvider::classify`: by the body's `type` first, then by the status. -/
def classify (status : Status) (body : ErrorBody) : ProviderError :=
  let msg := status.text ++ ": " ++ String.ofList (body.text.toList.take 400)
  match body.kind with
  | some "out_of_stock" => .capacity msg
  | some "quotas_exceeded" => .quota msg
  | some "transient_state" => .transient msg
  | _ => if status.isServerError || status.code == 429 || status.code == 408 then .transient msg else .permanent msg

/-- `ScalewayProvider::is_still_in_use`. -/
def isStillInUse (status : Status) (body : ErrorBody) : Bool :=
  match body.kind with
  | some "transient_state" => true
  | some "precondition_failed" => status.code == 412 || body.precondition == some "resource_still_in_use"
  | _ => false

/-! ## Names and tags -/

def serverTagStem : String := "mm-server="

/-- The tag that ties a block volume to the server it was created with. -/
def serverTag (uuid : ServerId) : String := serverTagStem ++ uuid

def BlockVolume.isDetached (v : BlockVolume) : Bool := v.references.all (· == "detached")

/-- The server a volume's tag names. -/
def BlockVolume.serverTag (v : BlockVolume) : Option ServerId :=
  (v.tags.findSome? (stripPrefix serverTagStem)).filter fun uuid => !uuid.isEmpty

namespace ScalewayProvider
variable (p : ScalewayProvider)

/-- `zone/uuid`. -/
def zoned (uuid : ServerId) : String := p.zone ++ "/" ++ uuid

/-- The server id inside a zoned id, only if the id is in this provider's zone. -/
def localUuid (providerId : String) : Except ProviderError ServerId :=
  match splitOnce '/' providerId with
  | some (zone, uuid) =>
    if zone = p.zone ∧ !uuid.isEmpty ∧ !uuid.toList.contains '/' then .ok uuid
    else .error (.permanent (providerId ++ " is in zone " ++ zone ++ ", but this provider serves " ++ p.zone))
  | none => .error (.permanent (providerId ++ " has no zone; expected `zone/uuid`, as create and list return" ++
      "                  and Terraform stores"))

end ScalewayProvider

/-! ## Single requests -/

/-- A request of which only success matters. -/
def plainRequest (q : Request) (failed : String) (gone : Option Bool) : Call Bool :=
  .call q fun reply => match reply with
    | .transport e => .ret (.error (.transient (failed ++ e)))
    | .http status body =>
      match gone, status.code == 404 with
      | some answer, true => .ret (.ok answer)
      | _, _ => .ret (.error (classify status body))
    | .garbled _ => .ret (.ok true)
    | .ok _ => .ret (.ok true)

/-- A request that reads a resource: `none` when it is gone. -/
def getRequest {β : Type} (q : Request) (value : q.Answer → β) (what : String) : Call (Option β) :=
  .call q fun reply => match reply with
    | .transport e => .ret (.error (.transient ("get " ++ what ++ " failed: " ++ e)))
    | .http status body => if status.code = 404 then .ret (.ok none) else .ret (.error (classify status body))
    | .garbled e => .ret (.error (.permanent ("get " ++ what ++ " parse error: " ++ e)))
    | .ok a => .ret (.ok (some (value a)))

def getServer (uuid : ServerId) : Call (Option Server) := getRequest (.getServer uuid) id "server"

def getBlockVolume (volumeId : VolumeId) : Call (Option BlockVolume) :=
  getRequest (.getBlockVolume volumeId) id "volume"

/-- `server_action`: `false` when the server is gone. -/
def serverAction (uuid : ServerId) (action : ServerAction) : Call Bool :=
  plainRequest (.serverAction uuid action) (action.asStr ++ " request failed: ") (some false)

/-- `delete_server`: 404 is success. -/
def deleteServer (uuid : ServerId) : Call Bool :=
  plainRequest (.deleteServer uuid) "delete server request failed: " (some true)

def writeCloudInit (uuid : ServerId) (userData : String) : Call Bool :=
  plainRequest (.writeCloudInit uuid userData) "user_data request failed: " none

def poweron (uuid : ServerId) : Call Unit :=
  (serverAction uuid .poweron).andThen fun there =>
    if there then .ret (.ok ())
    else .ret (.error (.transient (uuid ++ " vanished between create and poweron")))

/-! ## Lists -/

/-- Is a paged list complete after this page? -/
def pageCompletes (collected got : Nat) (total : Option Nat) (what : String) : Except ProviderError Bool :=
  match total with
  | some total =>
    if collected ≥ total then .ok true
    else if got = 0 then
      .error (.transient ("list ended at " ++ toString collected ++ " of " ++ toString total ++ " " ++ what ++
        "; it changed while paging"))
    else .ok false
  | none => .ok (got < listPerPage)

def listMaxPages : Nat := 100

/-- The texts and the id of one of the two paged lists. -/
structure Listing (β : Type) where
  request : Nat → Request
  page : (n : Nat) → (request n).Answer → Page β
  id : β → String
  requestFailed : String
  parseError : String
  one : String
  many : String
  tooMany : String
  ours : β → Bool

section Paging
variable {β : Type} (l : Listing β)

/-- Collect one page; an item seen before means that the list changed while paging. -/
def collect (collected : List β) : List β → Except ProviderError (List β)
  | [] => .ok collected
  | item :: items =>
    if collected.any fun seen => l.id seen == l.id item then
      .error (.transient (l.one ++ " " ++ l.id item ++ " appeared on two pages; the list changed while paging"))
    else collect (collected ++ [item]) items

/-- The pages from `page` on, `left` of them at most. -/
def listPages : (left : Nat) → (page : Nat) → (collected : List β) → Call (List β)
  | 0, _, _ => .ret (.error (.permanent l.tooMany))
  | left + 1, page, collected => .call (l.request page) fun reply => match reply with
    | .transport e => .ret (.error (.transient (l.requestFailed ++ e)))
    | .http status body => .ret (.error (classify status body))
    | .garbled e => .ret (.error (.permanent (l.parseError ++ e)))
    | .ok answer =>
      match collect l collected (l.page page answer).items with
      | .error e => .ret (.error e)
      | .ok collected =>
        match pageCompletes collected.length (l.page page answer).items.length (l.page page answer).total l.many with
        | .error e => .ret (.error e)
        | .ok true => .ret (.ok (collected.filter l.ours))
        | .ok false => listPages left (page + 1) collected

def listAll : Call (List β) := listPages l listMaxPages 1 []

end Paging

namespace ScalewayProvider
variable (p : ScalewayProvider)

/-- Every server carrying our tag in our project, in any state. -/
def servers : Listing Server where
  request := .listServers p.projectId p.fleetTag
  page := fun _ answer => answer
  id := Server.id
  requestFailed := "list request failed: "
  parseError := "list parse error: "
  one := "server"
  many := "servers"
  tooMany := "more than " ++ toString (listPerPage * listMaxPages) ++
    " servers carry the fleet tag; refusing to report a partial list"
  ours := fun s => s.project == p.projectId && s.tags.any (· == p.fleetTag)

/-- Block volumes in our project carrying `tag`. -/
def blockVolumes (tag : String) : Listing BlockVolume where
  request := .listBlockVolumes p.projectId tag
  page := fun _ answer => answer
  id := BlockVolume.id
  requestFailed := "volume list request failed: "
  parseError := "volume list parse error: "
  one := "volume"
  many := "volumes"
  tooMany := "more than " ++ toString (listPerPage * listMaxPages) ++ " volumes carry " ++ tag ++
    "; refusing to report a partial list"
  ours := fun v => v.projectId == p.projectId && v.tags.any (· == tag)

def listServers : Call (List Server) := listAll p.servers
def listBlockVolumes (tag : String) : Call (List BlockVolume) := listAll (p.blockVolumes tag)

/-! ## Volumes -/

/-- The attempts of `tag_volume` that are left, and the last failure. -/
def tagVolumeLoop (volumeId : VolumeId) (tags : List String) : Nat → Option ProviderError → Call Unit
  | 0, last => .ret (.error (last.getD (.transient "volume tag never settled")))
  | left + 1, _ => .call (.tagVolume volumeId tags) fun reply => match reply with
    | .transport e => .ret (.error (.transient ("volume tag request failed: " ++ e)))
    | .http status body =>
      if isStillInUse status body then tagVolumeLoop volumeId tags left (some (classify status body))
      else .ret (.error (classify status body))
    | .garbled _ => .ret (.ok ())
    | .ok _ => .ret (.ok ())

/-- `tag_volume`, waiting out a volume still being created. -/
def tagVolume (volumeId : VolumeId) (tags : List String) : Call Unit :=
  tagVolumeLoop volumeId tags (p.settlePolls + 1) none

/-- The tags a volume has, with the fleet's and the server's added where they are missing. -/
def withOurTags (uuid : ServerId) (tags : List String) : List String :=
  [p.fleetTag, serverTag uuid].foldl (fun tags t => if tags.contains t then tags else tags ++ [t]) tags

/-- `ensure_server_tag`: every block volume of the list carries both tags, or is gone. -/
def ensureServerTag (uuid : ServerId) : List ServerVolume → Call Unit
  | [] => .ret (.ok ())
  | v :: volumes =>
    if v.isBlockStorage then
      (getBlockVolume v.id).andThen fun current => match current with
        | none => ensureServerTag uuid volumes
        | some current =>
          if current.tags.contains (serverTag uuid) && current.tags.contains p.fleetTag then
            ensureServerTag uuid volumes
          else (p.tagVolume v.id (p.withOurTags uuid current.tags)).andThen fun _ => ensureServerTag uuid volumes
    else ensureServerTag uuid volumes

/-- The polls of `wait_until_volume_gone` that are left. -/
def waitUntilVolumeGone (api : VolumeApi) (id : VolumeId) : Nat → Prog Request Response (Except String Unit)
  | 0 => .ret (.error "deletion queued but the volume still exists")
  | left + 1 => .call (.checkVolume api id) fun reply => match reply with
    | .transport e => .ret (.error e)
    | .http status _ =>
      if status.code = 404 then .ret (.ok ()) else .ret (.error ("checking deletion: " ++ status.text))
    | .garbled e => .ret (.error e)
    | .ok state =>
      if state = some "error" then .ret (.error "deletion failed: the volume is in state error")
      else waitUntilVolumeGone api id left

/-- The attempts of `delete_volume` that are left, and the last failure. -/
def deleteVolumeLoop (v : ServerVolume) : Nat → String → Prog Request Response (Except String Unit)
  | 0, last => .ret (.error last)
  | left + 1, _ => .call (.deleteVolume v.volumeType.api v.id) fun reply => match reply with
    | .transport e => .ret (.error e)
    | .http status body =>
      if status.code = 404 then waitUntilVolumeGone v.volumeType.api v.id (p.settlePolls + 1)
      else if isStillInUse status body then deleteVolumeLoop v left (status.text ++ ": still in use")
      else .ret (.error status.text)
    | .garbled _ => waitUntilVolumeGone v.volumeType.api v.id (p.settlePolls + 1)
    | .ok _ => waitUntilVolumeGone v.volumeType.api v.id (p.settlePolls + 1)

/-- `delete_volume`: through the API that owns it, waiting out `in_use`; 404 is success. -/
def deleteVolume (v : ServerVolume) : Prog Request Response (Except String Unit) :=
  p.deleteVolumeLoop v (p.settlePolls + 1) ""

/-- Delete each volume; `leaked` says which deletions failed. -/
def deleteEach : List ServerVolume → (leaked : List String) → Prog Request Response (List String)
  | [], leaked => .ret leaked
  | v :: volumes, leaked => (p.deleteVolume v).bind fun r => match r with
    | .ok () => deleteEach volumes leaked
    | .error why => deleteEach volumes (leaked ++ [v.id ++ " (" ++ v.volumeType.asStr ++ ") -> " ++ why])

def debugList (texts : List String) : String := "[" ++ ", ".intercalate (texts.map String.quote) ++ "]"

/-- `delete_volumes`. -/
def deleteVolumes (providerId verb : String) (volumes : List ServerVolume) : Call Unit :=
  (p.deleteEach volumes []).bind fun leaked =>
    if leaked.isEmpty then .ret (.ok ())
    else .ret (.error (.transient (verb ++ " " ++ providerId ++ " but " ++ toString leaked.length ++
      " volume(s) still exist and are billing: " ++ debugList leaked)))

/-! ## Destroy -/

section
variable (volumes : List ServerVolume)

/-- `HashMap::insert` by volume id. -/
def insertVolume (v : ServerVolume) : List ServerVolume :=
  if volumes.any fun w => w.id == v.id then volumes.map fun w => if w.id = v.id then v else w else volumes ++ [v]

/-- `entry(id).or_insert(..)`. -/
def orInsertVolume (v : ServerVolume) : List ServerVolume :=
  if volumes.any fun w => w.id == v.id then volumes else volumes ++ [v]

/-- Which removal this call asked for. -/
inductive Requested where
  | terminated
  | deleted
deriving DecidableEq

def Requested.verb : Requested → String
  | .terminated => "terminated"
  | .deleted => "deleted"

/-- Where the polls of `destroy` ended. -/
structure Polled where
  volumes : List ServerVolume
  requested : Option Requested
  gone : Bool

/-- The polls of `destroy` that are left. -/
def destroyLoop (providerId : String) (uuid : ServerId) :
    Nat → List ServerVolume → Option Requested → Call Polled
  | 0, volumes, requested => .ret (.ok ⟨volumes, requested, false⟩)
  | left + 1, volumes, requested => (getServer uuid).andThen fun found => match found with
    | none => .ret (.ok ⟨volumes, requested, true⟩)
    | some server =>
      let volumes := server.volumes.foldl insertVolume volumes
      if requested.isSome then destroyLoop providerId uuid left volumes requested
      else match server.state with
        | .running =>
          (p.ensureServerTag uuid volumes).andThen fun _ =>
            (serverAction uuid .terminate).andThen fun there =>
              if there then destroyLoop providerId uuid left volumes (some .terminated)
              else .ret (.ok ⟨volumes, requested, true⟩)
        | .stopped | .stoppedInPlace =>
          (p.ensureServerTag uuid volumes).andThen fun _ =>
            (deleteServer uuid).andThen fun _ => destroyLoop providerId uuid left volumes (some .deleted)
        | .starting | .stopping => destroyLoop providerId uuid left volumes requested
        | .other name => .ret (.error (.permanent (providerId ++ " is in state " ++ name.quote ++
            ", which nothing automatic can remove (`locked` means Scaleway is holding it)")))

/-- The error of a destroy whose server is still there after the last poll. -/
def stillThere (providerId : String) (requested : Option Requested) : ProviderError :=
  match requested with
  | some r => .transient (providerId ++ " was " ++ r.verb ++ " but still exists after " ++ toString p.settlePolls ++
      " polls; the asynchronous removal may have failed, so it is retried rather than reported gone")
  | none => .transient (providerId ++ " did not leave a transitional state within " ++ toString p.settlePolls ++ " polls")

/-- The volumes a destroy has to delete itself. -/
def leftovers (requested : Option Requested) : List ServerVolume :=
  volumes.filter fun v => !(requested == some .terminated && v.deletedByTerminate)

/-- What the lookup by tag adds to the volumes seen. -/
def addTagged (lookup : Except ProviderError (List BlockVolume)) : List ServerVolume :=
  match lookup with
  | .ok tagged => tagged.foldl (fun vs v => orInsertVolume vs ⟨v.id, .sbsVolume⟩) volumes
  | .error _ => volumes

end

/-- The end of `destroy`, when the server is gone: its volumes, also those found by tag. -/
def removeVolumes (providerId : String) (uuid : ServerId) (polled : Polled) : Call Unit :=
  (p.listBlockVolumes (serverTag uuid)).bind fun lookup =>
    (p.deleteVolumes providerId ((polled.requested.map Requested.verb).getD "gone")
      (leftovers (addTagged polled.volumes lookup) polled.requested)).andThen fun _ =>
        match lookup with
        | .ok _ => .ret (.ok ())
        | .error e => .ret (.error (.transient (providerId ++
            " is gone but its volumes could not be looked up by tag: " ++ e.text)))

/-- `ScalewayProvider::destroy`. -/
def destroy (providerId : String) : Call Unit :=
  match p.localUuid providerId with
  | .error e => .ret (.error e)
  | .ok uuid =>
    (p.destroyLoop providerId uuid (p.settlePolls + 1) [] none).andThen fun polled =>
      if polled.gone then p.removeVolumes providerId uuid polled
      else .ret (.error (p.stillThere providerId polled.requested))

/-! ## Create -/

/-- `discard_unbooted`: the original error is what the caller gets. -/
def discardUnbooted {α : Type} (providerId : String) (cause : ProviderError) : Call α :=
  (p.destroy providerId).bind fun _ => .ret (.error cause)

/-- A step of `create` after the server exists: on failure the server is discarded. -/
def orDiscard {α β : Type} (providerId : String) (step : Call α) (next : α → Call β) : Call β :=
  step.bind fun r => match r with
    | .ok a => next a
    | .error e => p.discardUnbooted providerId e

/-- Tag the block volumes of a new server. -/
def tagNew (providerId : String) (tags : List String) (next : Call InstanceHandle) :
    List ServerVolume → Call InstanceHandle
  | [] => next
  | v :: volumes =>
    if v.isBlockStorage then
      p.orDiscard providerId (p.tagVolume v.id tags) fun _ => tagNew providerId tags next volumes
    else tagNew providerId tags next volumes

/-- `create` from the moment the server exists. -/
def boot (spec : InstanceSpec) (server : Server) : Call InstanceHandle :=
  let providerId := p.zoned server.id
  let tags := [p.fleetTag, "mm-node-id=" ++ spec.mmNodeId, serverTag server.id]
  p.tagNew providerId tags
    (p.orDiscard providerId (writeCloudInit server.id spec.userData) fun _ =>
      p.orDiscard providerId (poweron server.id) fun _ =>
        .ret (.ok ⟨providerId, server.publicIp, server.creationDate⟩))
    server.volumes

def createBody (spec : InstanceSpec) (image : String) : CreateServer where
  name := spec.mmNodeId
  commercialType := spec.size
  image := image
  project := p.projectId
  dynamicIpRequired := true
  tags := [p.fleetTag, "mm-node-id=" ++ spec.mmNodeId, "mm-flavor=" ++ spec.flavor.asStr]

/-- The image a node boots; a transcode node needs one with the GPU driver. -/
def imageFor (spec : InstanceSpec) : Except ProviderError String :=
  match spec.flavor, p.gpuImage with
  | .transcode, some image => .ok image
  | .transcode, none => .error (.permanent (spec.mmNodeId ++
      " is a transcode node but no GPU image is configured (with_gpu_image)"))
  | _, _ => .ok p.image

/-- `ScalewayProvider::create`. -/
def create (spec : InstanceSpec) : Call InstanceHandle :=
  match p.imageFor spec with
  | .error e => .ret (.error e)
  | .ok image => .call (.createServer (p.createBody spec image)) fun reply => match reply with
    | .transport e => .ret (.error (.transient ("create request failed: " ++ e)))
    | .http status body => .ret (.error (classify status body))
    | .garbled e => .ret (.error (.permanent ("create parse error: " ++ e)))
    | .ok server => p.boot spec server

/-! ## List -/

/-- The stranded volumes of `list`: each server they name is asked for, and reported once. -/
def stranded : List BlockVolume → (ids : List ServerId) → (handles : List InstanceHandle) → Call (List InstanceHandle)
  | [], _, handles => .ret (.ok handles)
  | v :: volumes, ids, handles =>
    if v.status ≠ "available" ∨ !v.isDetached then stranded volumes ids handles
    else match v.serverTag with
      | none => stranded volumes ids handles
      | some server =>
        if ids.contains server then stranded volumes ids handles
        else (getServer server).andThen fun found => match found with
          | some _ => stranded volumes ids handles
          | none => stranded volumes (server :: ids) (handles ++ [⟨p.zoned server, none, v.createdAt⟩])

/-- `ScalewayProvider::list`: the volumes first, then the servers. -/
def list : Call (List InstanceHandle) :=
  (p.listBlockVolumes p.fleetTag).andThen fun tagged =>
    p.listServers.andThen fun servers =>
      p.stranded tagged (servers.map Server.id)
        (servers.map fun s => ⟨p.zoned s.id, s.publicIp, s.creationDate⟩)

end ScalewayProvider

/-! ## The provider's calls as a pool -/

inductive Op where
  | create (spec : InstanceSpec)
  | destroy (providerId : String)
  | list

/-- What a call returned. -/
inductive Returned where
  | created (r : Except ProviderError InstanceHandle)
  | destroyed (r : Except ProviderError Unit)
  | listed (r : Except ProviderError (List InstanceHandle))

def ScalewayProvider.program (p : ScalewayProvider) : Op → Prog Request Response Returned
  | .create spec => (p.create spec).bind fun r => .ret (.created r)
  | .destroy providerId => (p.destroy providerId).bind fun r => .ret (.destroyed r)
  | .list => p.list.bind fun r => .ret (.listed r)

end MatrixMedia.Scaleway

import MatrixMedia.Scaleway.Destroy

/-!
# Nothing that bills is lost sight of

The provider's calls run together over the account: any number of `create`, `destroy` and
`list` in flight, each request with its own fate, the process dying at any point. The law
(`InSight`): every server carries the fleet tag, every volume is attached or carries its
server's tag, and a `destroy` that returned `Ok` has left nothing.

Only block volumes are ever tagged. A removal that leaves a volume of another type
leaves it where nothing finds it, and the retry of an interrupted `destroy` reports `Ok`
(`stranded_volume`). `nothing_out_of_sight` is the law for the runs in which that does
not happen and the lookup by tag fits on one page.
-/

namespace MatrixMedia.Scaleway
open Lib Lib.Text Lib.Interaction MatrixMedia.Fleet ScalewayProvider

section
variable {p : ScalewayProvider} {c : Cloud} {uuid : ServerId}

/-! ## Create -/

theorem localUuid_zoned {providerUuid} (h : p.localUuid (p.zoned uuid) = .ok providerUuid) :
    providerUuid = uuid := by
  unfold localUuid at h
  split at h
  · rename_i zone rest hsplit
    split at h
    · rename_i hzone
      cases h
      have hchars := splitOnce_eq_some hsplit
      rw [hzone.1, zoned, String.toList_append, String.toList_append, List.append_assoc] at hchars
      have htail := List.append_cancel_left hchars
      apply String.toList_inj.mp
      exact (List.cons.inj htail).2.symm
    · cases h
  · cases h

theorem orDiscard_safe {α β : Type} {step : Call α} {next : α → Call β} {R : α → Cloud → Prop}
    (hmade : uuid ∈ c.madeServers) (hstep : Safe (custodian p) (Returns R) step c)
    (hnext : ∀ a c', c'.Kept p → c.Evolves p c' → R a c' → Safe (custodian p) (Returns fun _ _ => True) (next a) c') :
    Safe (custodian p) (Returns fun _ _ => True) (p.orDiscard (p.zoned uuid) step next) c := by
  refine hstep.bind ?_
  intro r c₁ hkept₁ hev₁ hr
  cases r with
  | ok a => exact hnext a c₁ hkept₁ hev₁ (hr a rfl)
  | error e =>
    have hissued : Issued p c₁ (p.zoned uuid) := fun u hu => localUuid_zoned hu ▸ hev₁.madeServers hmade
    exact (destroy_safe hissued).bind fun _ _ _ _ _ => Safe.error _

theorem boot_safe {spec : InstanceSpec} {server : Server} (hmade : server.id ∈ c.madeServers)
    (hseen : Seen c server.id server.volumes) :
    Safe (custodian p) (Returns fun _ _ => True) (p.boot spec server) c := by
  unfold boot
  dsimp only
  generalize server.volumes = volumes at hseen
  induction volumes generalizing c with
  | nil =>
    refine orDiscard_safe hmade (plainRequest_safe fun _ _ _ => trivial) ?_
    intro _ c₁ _ hev₁ _
    refine orDiscard_safe (R := fun _ _ => True) (hev₁.madeServers hmade) ?_ ?_
    · have haction : Safe (custodian p) (Returns fun _ _ => True) (serverAction server.id .poweron) c₁ :=
        plainRequest_safe fun _ _ _ => trivial
      refine haction.andThen ?_
      intro there c₂ _ _ _
      cases there with
      | true => exact Safe.ok fun _ _ _ => trivial
      | false => exact Safe.error _
    · intro _ c₂ _ _ _
      exact Safe.ok fun _ _ _ => trivial
  | cons sv volumes ih =>
    have hrest : Seen c server.id volumes := fun w hw => hseen w (List.mem_cons_of_mem _ hw)
    unfold tagNew
    split
    · refine orDiscard_safe hmade (tagVolume_safe (hseen sv List.mem_cons_self) (by simp) (by simp)) ?_
      intro _ c₁ _ hev₁ _
      exact ih (hev₁.madeServers hmade) (hrest.evolves hev₁)
    · exact ih hmade hrest

theorem create_safe (spec : InstanceSpec) :
    Safe (custodian p) (Returns fun _ _ => True) (p.create spec) c := by
  unfold create
  split
  · exact Safe.error _
  · rename_i image _
    refine Safe.call fun c₁ hkept hev => ⟨⟨List.mem_cons_self, rfl⟩, ?_⟩
    rintro c₂ reply ⟨fate, -, hreq⟩ hkept₂ hev₂
    have hreq : c₁.request (.createServer (p.createBody spec image)) fate = (c₂, reply) := hreq
    cases reply with
    | transport | http | garbled => exact Safe.error _
    | ok server =>
      have hperform := request_ok hreq
      cases hperform
      refine boot_safe List.mem_cons_self ?_
      exact (view_report hkept₂ List.mem_cons_self).1

/-! ## List -/

/-- The requests of `list` only read. -/
def Reads : Request → Prop
  | .listServers .. => True
  | .listBlockVolumes .. => True
  | .getServer _ => True
  | _ => False

theorem reads_allowed (p : ScalewayProvider) (c : Cloud) (q : Request) (h : Reads q) : Allowed p c q := by
  cases q with
  | listServers | listBlockVolumes | getServer => trivial
  | createServer | serverAction | deleteServer | writeCloudInit | getBlockVolume | tagVolume | deleteVolume | checkVolume => exact h.elim

theorem listPages_reads {β : Type} {l : Listing β} (hl : ∀ page, Reads (l.request page)) (left page : Nat)
    (collected : List β) : (listPages l left page collected).Uses Reads := by
  induction left generalizing page collected with
  | zero => trivial
  | succ left ih =>
    refine ⟨hl page, ?_⟩
    intro reply
    cases reply with
    | transport | http | garbled => trivial
    | ok answer =>
      dsimp only
      split
      · trivial
      · split
        · trivial
        · trivial
        · exact ih _ _

theorem getServer_reads (uuid : ServerId) : (getServer uuid).Uses Reads := by
  refine ⟨trivial, ?_⟩
  intro reply
  cases reply with
  | transport | garbled | ok => trivial
  | http status body =>
    dsimp only
    split
    · trivial
    · trivial

theorem stranded_reads (volumes : List BlockVolume) (ids : List ServerId) (handles : List Fleet.InstanceHandle) :
    (p.stranded volumes ids handles).Uses Reads := by
  induction volumes generalizing ids handles with
  | nil => trivial
  | cons v volumes ih =>
    unfold stranded
    split
    · exact ih _ _
    · split
      · exact ih _ _
      · split
        · exact ih _ _
        · refine (getServer_reads _).andThen ?_
          intro found
          cases found with
          | none | some => exact ih _ _

theorem list_safe : Safe (custodian p) (fun _ _ => True) p.list c := by
  refine Safe.of_uses (reads_allowed p) ?_
  refine (listPages_reads (l := p.blockVolumes p.fleetTag) (fun _ => trivial) _ _ _).andThen ?_
  intro tagged
  refine (listPages_reads (l := p.servers) (fun _ => trivial) _ _ _).andThen ?_
  intro servers
  exact stranded_reads _ _ _

end

/-! ## The law -/

/-- The account, with the provider's calls in flight. -/
abbrev Fleetwork := Pool Cloud Request Response Op Returned

/-- An account on which nothing was made yet. -/
def newAccount : Fleetwork := ⟨.empty, [], []⟩

/-- What the provider documents: ids are never used twice, and `destroy` is called with ids
that were handed out. -/
def Documented (p : ScalewayProvider) (pool : Fleetwork) : Event Op Fate Move → Prop
  | .start (.destroy providerId) => Issued p pool.state providerId
  | .request place fate => ∀ q ∈ pool.next? place, IdsFresh pool.state fate q
  | _ => True

instance (p : ScalewayProvider) (c : Cloud) (providerId : String) : Decidable (Issued p c providerId) :=
  decidable_of_iff (∀ uuid ∈ (p.localUuid providerId).toOption, uuid ∈ c.madeServers) <| by
    cases hlocal : p.localUuid providerId <;> simp [Issued, hlocal, Except.toOption]

instance (p : ScalewayProvider) (pool : Fleetwork) (e : Event Op Fate Move) : Decidable (Documented p pool e) := by
  unfold Documented
  split <;> infer_instance

/-- The condition: a removal that completes leaves only block volumes of the server, and
what a lookup by server tag finds fits on its first page. -/
def LeavesOnlyBlock (pool : Fleetwork) : Event Op Fate Move → Prop
  | .move (.removed id) => pool.state.RemovalSafe id
  | .request place _ => ∀ q ∈ pool.next? place, LookupFits pool.state q
  | _ => True

instance (pool : Fleetwork) (e : Event Op Fate Move) : Decidable (LeavesOnlyBlock pool e) := by
  unfold LeavesOnlyBlock
  split <;> infer_instance

/-- The law. -/
structure InSight (p : ScalewayProvider) (pool : Fleetwork) : Prop where
  servers : ∀ s ∈ pool.state.servers, p.fleetTag ∈ s.tags
  volumes : ∀ v ∈ pool.state.volumes,
    (v.attached = true ∧ pool.state.Exists v.server) ∨ serverTag v.server ∈ v.tags
  destroyed : ∀ providerId, (.destroy providerId, .destroyed (.ok ())) ∈ pool.returned →
    Destroyed p pool.state providerId

/-- What each call may start from. -/
def Starts (p : ScalewayProvider) (c : Cloud) : Op → Prop
  | .destroy providerId => Issued p c providerId
  | _ => True

/-- What each call promises. -/
def Promise (p : ScalewayProvider) : Op → Returned → Cloud → Prop
  | .destroy providerId, .destroyed (.ok ()), c => Destroyed p c providerId
  | _, _, _ => True

section
variable {p : ScalewayProvider} {c c' : Cloud} {providerId : String}

theorem Issued.evolves (h : Issued p c providerId) (hev : c.Evolves p c') : Issued p c' providerId :=
  fun uuid huuid => hev.madeServers (h uuid huuid)

/-- Ids are never used twice: what was destroyed stays destroyed. -/
theorem Destroyed.evolves (h : Destroyed p c providerId) (hissued : Issued p c providerId) (hev : c.Evolves p c') :
    Destroyed p c' providerId := by
  intro uuid huuid
  have hmade := hissued uuid huuid
  obtain ⟨hgone, hnone⟩ := h uuid huuid
  refine ⟨not_exists_evolves hgone hmade hev, ?_⟩
  intro v' hv' hserver
  obtain ⟨v, hv, hsame⟩ := hev.volumes v' hv' (hserver ▸ hmade)
  exact hnone v hv (hsame.server.trans hserver)

end

theorem program_safe (p : ScalewayProvider) (op : Op) (c : Cloud) (hstart : Starts p c op) :
    Safe (custodian p) (Promise p op) (p.program op) c := by
  cases op with
  | create spec => exact (create_safe spec).bind fun _ _ _ _ _ => Safe.ret fun _ _ _ => trivial
  | list => exact list_safe.bind fun _ _ _ _ _ => Safe.ret fun _ _ _ => trivial
  | destroy providerId =>
    refine (destroy_safe hstart).bind ?_
    intro r c₁ _ hev₁ hr
    cases r with
    | ok done => exact Safe.ret fun c₂ _ hev₂ => (hr done rfl).evolves (hstart.evolves hev₁) hev₂
    | error e => exact Safe.ret fun _ _ _ => trivial

theorem newAccount_kept (p : ScalewayProvider) : Cloud.empty.Kept p := by
  constructor <;> simp [Cloud.empty]

/-- A documented step that meets the condition is one the discipline allows. -/
theorem poolOk_of_documented {p pool e}
    (hdocumented : Documented p pool e) (hblock : LeavesOnlyBlock pool e) :
    PoolOk (custodian p) (Starts p) pool e := by
  cases e with
  | start op =>
    cases op with
    | destroy providerId => exact hdocumented
    | create | list => trivial
  | die => trivial
  | move m =>
    cases m with
    | removed id => exact hblock
    | _ => trivial
  | request place fate => exact fun q hq => ⟨hdocumented q hq, hblock q hq⟩

/-- The invariant of the account and the promises of the calls are the law. -/
theorem Cloud.Kept.inSight {p} {pool : Fleetwork} (hkept : pool.state.Kept p)
    (hpromise : ∀ op r, (op, r) ∈ pool.returned → Promise p op r pool.state) : InSight p pool where
  servers := hkept.serverTagged
  volumes := by
    intro v hv
    by_cases hthere : pool.state.Exists v.server
    · exact .inl ⟨hkept.attached v hv hthere, hthere⟩
    · exact .inr (hkept.custody v hv hthere).2.2
  destroyed := fun providerId hmem => hpromise _ _ hmem

/-- **Nothing that bills is lost sight of**, in every run in which the removals that
complete leave only block volumes and the lookups by server tag fit on a page. -/
theorem nothing_out_of_sight (p : ScalewayProvider) {h : List (Event Op Fate Move)} {pool : Fleetwork}
    (run : Run (poolStep scaleway p.program) (fun _ pool e => Documented p pool e ∧ LeavesOnlyBlock pool e)
      newAccount h pool) : InSight p pool := by
  have hrun := run.mono fun _ _ _ hok => poolOk_of_documented hok.1 hok.2
  obtain ⟨hkept, hpromise⟩ := Pool.sound (fun op c _ hstart => program_safe p op c hstart) (newAccount_kept p) hrun
  exact Cloud.Kept.inSight hkept hpromise

/-! ## Two runs of one server -/

def testProvider : ScalewayProvider where
  projectId := "project"
  zone := "nl-ams-1"
  image := "ubuntu"
  gpuImage := none
  fleetTag := "mm-fleet"
  settlePolls := 2

def testSpec : InstanceSpec where
  mmNodeId := "bc-b-fanout-0"
  flavor := .fanout
  region := "nl-ams"
  size := "DEV1-S"
  userData := "#cloud-config"

/-- A request that is answered, on an account that makes servers with one volume of this type. -/
def answeredWith (volumeType : VolumeType) : Event Op Fate Move :=
  .request 0 ⟨.answered, ⟨"s1", [⟨"v1", volumeType⟩], some "51.15.0.1", some 0⟩, true⟩

/-- The server boots from a block volume; the process dies when the removal is accepted. -/
def destroyedTwice : List (Event Op Fate Move) :=
  let answered := answeredWith .sbsVolume
  -- `create`: the server, its volume's tags, the user data, poweron.
  [.start (.create testSpec), answered, answered, answered, answered, .move (.serverState "s1" .running),
   -- `destroy`: the server, its volume, terminate.
   .start (.destroy "nl-ams-1/s1"), answered, answered, answered, .die, .move (.removed "s1"),
   -- `destroy` again: the server, the volumes by tag, the deletion of the one it finds.
   .start (.destroy "nl-ams-1/s1"), answered, answered, answered, .move (.volumeRemoved "v1"), answered]

/-- The server boots from a local volume and is shut down; the process dies when the
deletion of the server is accepted. -/
def strandedTwice : List (Event Op Fate Move) :=
  let answered := answeredWith .lSsd
  -- `create`: the server, the user data, poweron.
  [.start (.create testSpec), answered, answered, answered, .move (.serverState "s1" .stopped),
   -- `destroy`: the server, DELETE.
   .start (.destroy "nl-ams-1/s1"), answered, answered, .move (.removed "s1"), .die,
   -- `destroy` again: the server, the volumes by tag, of which there are none.
   .start (.destroy "nl-ams-1/s1"), answered, answered]

/-- The account and the calls after these events. -/
def after (events : List (Event Op Fate Move)) : Fleetwork :=
  events.foldl (poolStep scaleway testProvider.program) newAccount

/-- The `destroy` calls that returned `Ok`. -/
def destroyedOk (pool : Fleetwork) : List String :=
  pool.returned.filterMap fun entry => match entry with
    | (.destroy providerId, .destroyed (.ok ())) => some providerId
    | _ => none

theorem mem_destroyedOk {pool providerId} :
    providerId ∈ destroyedOk pool ↔ (.destroy providerId, .destroyed (.ok ())) ∈ pool.returned := by
  unfold destroyedOk
  rw [List.mem_filterMap]
  constructor
  · rintro ⟨entry, hmem, hentry⟩
    split at hentry
    · cases hentry
      exact hmem
    · cases hentry
  · exact fun hmem => ⟨_, hmem, rfl⟩

theorem nothing_out_of_sight_twice :
    InSight testProvider (after destroyedTwice) ∧ destroyedOk (after destroyedTwice) = ["nl-ams-1/s1"] := by
  have follows : Follows (poolStep scaleway testProvider.program)
      (fun _ pool e => Documented testProvider pool e ∧ LeavesOnlyBlock pool e) [] newAccount destroyedTwice := by
    decide +kernel
  exact ⟨nothing_out_of_sight testProvider (Run.start.follow follows), by decide +kernel⟩

/-- **A volume is stranded.** Only block volumes carry a tag, and DELETE leaves every
volume of the server. The retry of an interrupted `destroy` finds neither the server nor
a tag and returns `Ok`, while the server's local volume exists, detached and untagged. -/
theorem stranded_volume :
    Run (poolStep scaleway testProvider.program) (fun _ pool e => Documented testProvider pool e) newAccount
        strandedTwice.reverse (after strandedTwice) ∧
      (∃ v ∈ (after strandedTwice).state.volumes, v.attached = false ∧ serverTag v.server ∉ v.tags) ∧
      (.destroy "nl-ams-1/s1", .destroyed (.ok ())) ∈ (after strandedTwice).returned ∧
      ¬ Destroyed testProvider (after strandedTwice).state "nl-ams-1/s1" := by
  have follows : Follows (poolStep scaleway testProvider.program) (fun _ pool e => Documented testProvider pool e)
      [] newAccount strandedTwice := by
    decide +kernel
  have run := Run.start.follow follows
  rw [List.append_nil] at run
  have left : ∃ v ∈ (after strandedTwice).state.volumes, v.attached = false ∧ serverTag v.server ∉ v.tags ∧
      v.server = "s1" := by
    decide +kernel
  obtain ⟨v, hv, hdetached, huntagged, hserver⟩ := left
  refine ⟨run, ⟨v, hv, hdetached, huntagged⟩, mem_destroyedOk.mp (by decide +kernel), ?_⟩
  intro hdestroyed
  exact (hdestroyed "s1" (by decide +kernel)).2 v hv hserver

end MatrixMedia.Scaleway

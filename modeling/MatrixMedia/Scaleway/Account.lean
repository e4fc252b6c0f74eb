import MatrixMedia.Scaleway.Provider

/-!
# What the account keeps

`Kept` is the invariant behind custody: every server carries the fleet tag, and a volume
whose server is gone is a block volume that carries the fleet's and its server's tag.
`Evolves` is how the account can change under a call: servers and volumes of ids that
were handed out only go away, and a tagged volume stays tagged. The requests that could
break this are allowed under a condition (`Allowed`), which the provider's code has to
meet; the one move that can break it, a removal that completes, is `RemovalSafe`.
-/

namespace MatrixMedia.Scaleway
open Lib Lib.Text Lib.Chrono Lib.Interaction Cloud List

/-- The volume carries the fleet's tag and the tag of the server it was made with. -/
def Tagged (p : ScalewayProvider) (v : CloudVolume) : Prop := p.fleetTag ∈ v.tags ∧ serverTag v.server ∈ v.tags

def Cloud.Exists (c : Cloud) (id : ServerId) : Prop := ∃ s ∈ c.servers, s.id = id

/-- Every block volume of the server is tagged. -/
def Cloud.BlockTagged (p : ScalewayProvider) (c : Cloud) (id : ServerId) : Prop :=
  ∀ v ∈ c.volumes, v.server = id → v.volumeType = .sbsVolume → Tagged p v

/-- The invariant of the account. -/
structure Cloud.Kept (p : ScalewayProvider) (c : Cloud) : Prop where
  serverMade : ∀ s ∈ c.servers, s.id ∈ c.madeServers
  serverTagged : ∀ s ∈ c.servers, p.fleetTag ∈ s.tags
  volumeMade : ∀ v ∈ c.volumes, (v.id, v.server, v.volumeType) ∈ c.madeVolumes
  madeWith : ∀ made ∈ c.madeVolumes, made.2.1 ∈ c.madeServers
  unique : (c.madeVolumes.map Prod.fst).Nodup
  distinct : (c.volumes.map CloudVolume.id).Nodup
  project : ∀ v ∈ c.volumes, v.projectId = p.projectId
  attached : ∀ v ∈ c.volumes, c.Exists v.server → v.attached = true
  custody : ∀ v ∈ c.volumes, ¬ c.Exists v.server → v.volumeType = .sbsVolume ∧ Tagged p v
  pending : ∀ s ∈ c.servers, s.removal ≠ none → c.BlockTagged p s.id

/-- `v'` is the volume `v` later on. -/
structure SameVolume (p : ScalewayProvider) (v v' : CloudVolume) : Prop where
  id : v.id = v'.id
  server : v.server = v'.server
  volumeType : v.volumeType = v'.volumeType
  tagged : Tagged p v → Tagged p v'

/-- How the account can change. -/
structure Cloud.Evolves (p : ScalewayProvider) (c c' : Cloud) : Prop where
  madeServers : c.madeServers ⊆ c'.madeServers
  madeVolumes : c.madeVolumes ⊆ c'.madeVolumes
  servers : ∀ id ∈ c.madeServers, c'.Exists id → c.Exists id
  volumes : ∀ v' ∈ c'.volumes, v'.server ∈ c.madeServers → ∃ v ∈ c.volumes, SameVolume p v v'

section
variable {p : ScalewayProvider} {c c' : Cloud}

theorem Cloud.Evolves.refl (p : ScalewayProvider) (c : Cloud) : c.Evolves p c where
  madeServers := List.Subset.refl _
  madeVolumes := List.Subset.refl _
  servers := fun _ _ h => h
  volumes := fun v hv _ => ⟨v, hv, rfl, rfl, rfl, fun h => h⟩

theorem Cloud.Evolves.trans {c₁ c₂ c₃ : Cloud} (h : c₁.Evolves p c₂) (h' : c₂.Evolves p c₃) : c₁.Evolves p c₃ where
  madeServers := fun _ hid => h'.madeServers (h.madeServers hid)
  madeVolumes := fun _ hv => h'.madeVolumes (h.madeVolumes hv)
  servers := fun id hid hexists => h.servers id hid (h'.servers id (h.madeServers hid) hexists)
  volumes := by
    intro v₃ hv₃ hmade
    obtain ⟨v₂, hv₂, hsame₂⟩ := h'.volumes v₃ hv₃ (h.madeServers hmade)
    obtain ⟨v₁, hv₁, hsame₁⟩ := h.volumes v₂ hv₂ (hsame₂.server ▸ hmade)
    exact ⟨v₁, hv₁, hsame₁.id.trans hsame₂.id, hsame₁.server.trans hsame₂.server,
      hsame₁.volumeType.trans hsame₂.volumeType, fun ht => hsame₂.tagged (hsame₁.tagged ht)⟩

variable {id : ServerId} {removal : Removal} {v : CloudVolume} {made : NewServer}

/-- An id names one volume: its server and its type are those it was made with. -/
theorem Cloud.Kept.made_eq (h : c.Kept p) (hv : v ∈ c.volumes) {server}
    {volumeType : VolumeType} (hmade : (v.id, server, volumeType) ∈ c.madeVolumes) :
    v.server = server ∧ v.volumeType = volumeType := by
  have hsame := inj_on_of_nodup_map h.unique (h.volumeMade v hv) hmade rfl
  cases hsame
  exact ⟨rfl, rfl⟩

theorem Cloud.Kept.eq_of_id (h : c.Kept p) {w} (hv : v ∈ c.volumes) (hw : w ∈ c.volumes)
    (hid : v.id = w.id) : v = w :=
  inj_on_of_nodup_map h.distinct hv hw hid

/-! ## Changes that make nothing -/

/-- What is there was there before, with its tags; a removal is started only where the block
volumes are tagged, and a server that is gone leaves only tagged block volumes. -/
theorem Cloud.Kept.shrink (h : c.Kept p) (hmadeServers : c'.madeServers = c.madeServers)
    (hmadeVolumes : c'.madeVolumes = c.madeVolumes)
    (hservers : ∀ s' ∈ c'.servers, ∃ s ∈ c.servers, s.id = s'.id ∧ s.tags = s'.tags ∧
      (s'.removal ≠ none → s.removal ≠ none ∨ c.BlockTagged p s.id))
    (hvolumes : ∀ v' ∈ c'.volumes, ∃ v ∈ c.volumes, SameVolume p v v' ∧ v.projectId = v'.projectId ∧
      (c'.Exists v.server → v.attached = v'.attached) ∧
      (c.Exists v.server → ¬ c'.Exists v.server → v.volumeType = .sbsVolume ∧ Tagged p v))
    (hids : (c'.volumes.map CloudVolume.id).Sublist (c.volumes.map CloudVolume.id)) :
    c'.Kept p ∧ c.Evolves p c' := by
  have hback : ∀ id, c'.Exists id → c.Exists id := by
    rintro id ⟨s', hs', rfl⟩
    obtain ⟨s, hs, hid, -⟩ := hservers s' hs'
    exact ⟨s, hs, hid⟩
  refine ⟨⟨?_, ?_, ?_, ?_, ?_, hids.nodup h.distinct, ?_, ?_, ?_, ?_⟩, ?_⟩
  · intro s' hs'
    obtain ⟨s, hs, hid, -⟩ := hservers s' hs'
    rw [hmadeServers, ← hid]
    exact h.serverMade s hs
  · intro s' hs'
    obtain ⟨s, hs, -, htags, -⟩ := hservers s' hs'
    rw [← htags]
    exact h.serverTagged s hs
  · intro v' hv'
    obtain ⟨v, hv, hsame, -⟩ := hvolumes v' hv'
    rw [hmadeVolumes, ← hsame.id, ← hsame.server, ← hsame.volumeType]
    exact h.volumeMade v hv
  · rw [hmadeVolumes, hmadeServers]
    exact h.madeWith
  · rw [hmadeVolumes]
    exact h.unique
  · intro v' hv'
    obtain ⟨v, hv, -, hproject, -⟩ := hvolumes v' hv'
    rw [← hproject]
    exact h.project v hv
  · intro v' hv' hthere
    obtain ⟨v, hv, hsame, -, hattached, -⟩ := hvolumes v' hv'
    rw [← hsame.server] at hthere
    rw [← hattached hthere]
    exact h.attached v hv (hback _ hthere)
  · intro v' hv' hgone
    obtain ⟨v, hv, hsame, -, -, hleft⟩ := hvolumes v' hv'
    rw [← hsame.server] at hgone
    obtain ⟨htype, htagged⟩ : v.volumeType = .sbsVolume ∧ Tagged p v := by
      by_cases hthere : c.Exists v.server
      · exact hleft hthere hgone
      · exact h.custody v hv hthere
    exact ⟨hsame.volumeType ▸ htype, hsame.tagged htagged⟩
  · intro s' hs' hremoval v' hv' hserver htype
    obtain ⟨s, hs, hid, -, hpending⟩ := hservers s' hs'
    obtain ⟨v, hv, hsame, -⟩ := hvolumes v' hv'
    have htagged : c.BlockTagged p s.id := by
      rcases hpending hremoval with hold | hnew
      · exact h.pending s hs hold
      · exact hnew
    apply hsame.tagged
    apply htagged v hv
    · rw [hsame.server, hserver, hid]
    · rw [hsame.volumeType, htype]
  · refine ⟨?_, ?_, fun id _ hthere => hback id hthere, ?_⟩
    · rw [hmadeServers]
      exact List.Subset.refl _
    · rw [hmadeVolumes]
      exact List.Subset.refl _
    · intro v' hv' _
      obtain ⟨v, hv, hsame, -⟩ := hvolumes v' hv'
      exact ⟨v, hv, hsame⟩

/-- A change that removes no server either. -/
theorem Cloud.Kept.update (h : c.Kept p) (hmadeServers : c'.madeServers = c.madeServers)
    (hmadeVolumes : c'.madeVolumes = c.madeVolumes)
    (hservers : ∀ s' ∈ c'.servers, ∃ s ∈ c.servers, s.id = s'.id ∧ s.tags = s'.tags ∧
      (s'.removal ≠ none → s.removal ≠ none ∨ c.BlockTagged p s.id))
    (hexists : ∀ id, c.Exists id → c'.Exists id)
    (hvolumes : ∀ v' ∈ c'.volumes, ∃ v ∈ c.volumes, SameVolume p v v' ∧ v.attached = v'.attached ∧
      v.projectId = v'.projectId)
    (hids : (c'.volumes.map CloudVolume.id).Sublist (c.volumes.map CloudVolume.id)) :
    c'.Kept p ∧ c.Evolves p c' := by
  refine h.shrink hmadeServers hmadeVolumes hservers ?_ hids
  intro v' hv'
  obtain ⟨v, hv, hsame, hattached, hproject⟩ := hvolumes v' hv'
  exact ⟨v, hv, hsame, hproject, fun _ => hattached, fun hthere hgone => absurd (hexists _ hthere) hgone⟩

theorem SameVolume.refl (p : ScalewayProvider) (v : CloudVolume) : SameVolume p v v := ⟨rfl, rfl, rfl, fun h => h⟩

/-- Servers change in place. -/
theorem Cloud.Kept.setServer (h : c.Kept p) (id : ServerId) {f}
    (hid : ∀ s, (f s).id = s.id) (htags : ∀ s, (f s).tags = s.tags)
    (hremoval : ∀ s ∈ c.servers, s.id = id → (f s).removal ≠ none → s.removal ≠ none ∨ c.BlockTagged p id) :
    (c.setServer id f).Kept p ∧ c.Evolves p (c.setServer id f) := by
  refine h.update rfl rfl ?_ ?_ (fun v hv => ⟨v, hv, SameVolume.refl p v, rfl, rfl⟩) (List.Sublist.refl _)
  · intro s' hs'
    obtain ⟨s, hs, rfl⟩ := mem_map.mp hs'
    by_cases heq : s.id = id
    · rw [if_pos heq]
      refine ⟨s, hs, (hid s).symm, (htags s).symm, ?_⟩
      rw [heq]
      exact hremoval s hs heq
    · rw [if_neg heq]
      exact ⟨s, hs, rfl, rfl, .inl⟩
  · rintro _ ⟨s, hs, rfl⟩
    refine ⟨_, mem_map_of_mem hs, ?_⟩
    split
    · exact hid s
    · rfl

/-- Volumes change in place. -/
theorem Cloud.Kept.setVolume (h : c.Kept p) (id : VolumeId) {f}
    (hsame : ∀ v ∈ c.volumes, v.id = id → SameVolume p v (f v) ∧ v.attached = (f v).attached ∧
      v.projectId = (f v).projectId) :
    (c.setVolume id f).Kept p ∧ c.Evolves p (c.setVolume id f) := by
  refine h.update rfl rfl (fun s hs => ⟨s, hs, rfl, rfl, .inl⟩) (fun _ hthere => hthere) ?_ ?_
  · intro v' hv'
    obtain ⟨v, hv, rfl⟩ := mem_map.mp hv'
    by_cases heq : v.id = id
    · rw [if_pos heq]
      exact ⟨v, hv, hsame v hv heq⟩
    · rw [if_neg heq]
      exact ⟨v, hv, SameVolume.refl p v, rfl, rfl⟩
  · show ((c.volumes.map fun v => if v.id = id then f v else v).map CloudVolume.id).Sublist _
    have hids : (c.volumes.map fun v => if v.id = id then f v else v).map CloudVolume.id =
        c.volumes.map CloudVolume.id := by
      rw [map_map]
      apply map_congr_left
      intro v hv
      show (if v.id = id then f v else v).id = v.id
      split
      · rename_i heq
        exact (hsame v hv heq).1.id.symm
      · rfl
    rw [hids]

/-! ## A server is made -/

/-- Ids are never used twice. -/
structure Cloud.Fresh (c : Cloud) (made : NewServer) : Prop where
  server : made.id ∉ c.madeServers
  distinct : (made.volumes.map ServerVolume.id).Nodup
  volumes : ∀ v ∈ made.volumes, v.id ∉ c.madeVolumes.map Prod.fst

instance (c : Cloud) (made : NewServer) : Decidable (c.Fresh made) :=
  decidable_of_iff (_ ∧ _ ∧ _)
    ⟨fun ⟨a, b, d⟩ => ⟨a, b, d⟩, fun ⟨a, b, d⟩ => ⟨a, b, d⟩⟩

theorem Cloud.mem_make {body} (hv : v ∈ (c.make made body).volumes) :
    (∃ sv ∈ made.volumes, v = newVolume made body.project sv) ∨ v ∈ c.volumes := by
  rcases mem_append.mp hv with hv | hv
  · obtain ⟨sv, hsv, rfl⟩ := mem_map.mp hv
    exact .inl ⟨sv, hsv, rfl⟩
  · exact .inr hv

/-- Ids that were never handed out are added to distinct ones. -/
theorem Cloud.Fresh.nodup (hfresh : c.Fresh made) {ids : List VolumeId} (hids : ids.Nodup)
    (hsub : ids ⊆ c.madeVolumes.map Prod.fst) : (made.volumes.map ServerVolume.id ++ ids).Nodup := by
  refine nodup_append.mpr ⟨hfresh.distinct, hids, ?_⟩
  intro a ha b hb hab
  obtain ⟨sv, hsv, rfl⟩ := mem_map.mp ha
  subst hab
  exact hfresh.volumes sv hsv (hsub hb)

theorem Cloud.Kept.make (h : c.Kept p) (hfresh : c.Fresh made) {body : CreateServer}
    (htags : p.fleetTag ∈ body.tags) (hproject : body.project = p.projectId) :
    (c.make made body).Kept p ∧ c.Evolves p (c.make made body) := by
  have hold : ∀ id ∈ c.madeServers, (c.make made body).Exists id → c.Exists id := by
    rintro id hid ⟨s, hs, rfl⟩
    rcases mem_cons.mp hs with rfl | hs
    · exact absurd hid hfresh.server
    · exact ⟨s, hs, rfl⟩
  refine ⟨⟨?_, ?_, ?_, ?_, ?_, ?_, ?_, ?_, ?_, ?_⟩, ?_⟩
  · intro s hs
    rcases mem_cons.mp hs with rfl | hs
    · exact mem_cons_self
    · exact mem_cons_of_mem _ (h.serverMade s hs)
  · intro s hs
    rcases mem_cons.mp hs with rfl | hs
    · exact htags
    · exact h.serverTagged s hs
  · intro v hv
    rcases mem_make hv with ⟨sv, hsv, rfl⟩ | hv
    · exact mem_append_left _ (mem_map.mpr ⟨sv, hsv, rfl⟩)
    · exact mem_append_right _ (h.volumeMade v hv)
  · intro e he
    rcases mem_append.mp he with he | he
    · obtain ⟨sv, -, rfl⟩ := mem_map.mp he
      exact mem_cons_self
    · exact mem_cons_of_mem _ (h.madeWith e he)
  · show (((made.volumes.map fun v => (v.id, made.id, v.volumeType)) ++ c.madeVolumes).map Prod.fst).Nodup
    rw [map_append, map_map]
    exact hfresh.nodup h.unique (List.Subset.refl _)
  · show ((made.volumes.map (newVolume made body.project) ++ c.volumes).map CloudVolume.id).Nodup
    rw [map_append, map_map]
    refine hfresh.nodup h.distinct ?_
    intro id hid
    obtain ⟨v, hv, rfl⟩ := mem_map.mp hid
    exact mem_map_of_mem (f := Prod.fst) (h.volumeMade v hv)
  · intro v hv
    rcases mem_make hv with ⟨sv, -, rfl⟩ | hv
    · exact hproject
    · exact h.project v hv
  · intro v hv hthere
    rcases mem_make hv with ⟨sv, -, rfl⟩ | hv
    · rfl
    · exact h.attached v hv (hold _ (h.madeWith _ (h.volumeMade v hv)) hthere)
  · intro v hv hgone
    rcases mem_make hv with ⟨sv, -, rfl⟩ | hv
    · exact absurd ⟨_, mem_cons_self, rfl⟩ hgone
    · refine h.custody v hv ?_
      rintro ⟨s, hs, hid⟩
      exact hgone ⟨s, mem_cons_of_mem _ hs, hid⟩
  · intro s hs hremoval v hv hserver htype
    rcases mem_cons.mp hs with rfl | hs
    · exact absurd rfl hremoval
    · rcases mem_make hv with ⟨sv, -, rfl⟩ | hv
      · have hid : made.id = s.id := hserver
        exact absurd (hid ▸ h.serverMade s hs) hfresh.server
      · exact h.pending s hs hremoval v hv hserver htype
  · refine ⟨subset_cons_self _ _, subset_append_right _ _, hold, ?_⟩
    intro v hv hserver
    rcases mem_make hv with ⟨sv, -, rfl⟩ | hv
    · exact absurd hserver hfresh.server
    · exact ⟨v, hv, SameVolume.refl p v⟩

/-! ## A removal completes -/

/-- The removal of the server leaves none of its volumes but block volumes. -/
def Cloud.RemovalSafe (c : Cloud) (id : ServerId) : Prop :=
  ∀ removal ∈ (c.server? id).bind CloudServer.removal, ∀ v ∈ c.volumes, v.server = id →
    removal.deletes v.volumeType = false → v.volumeType = .sbsVolume

instance (c : Cloud) (id : ServerId) : Decidable (c.RemovalSafe id) :=
  inferInstanceAs (Decidable (∀ removal ∈ (c.server? id).bind CloudServer.removal, _))

theorem Cloud.mem_of_server? {s} (h : c.server? id = some s) :
    s ∈ c.servers ∧ s.id = id := by
  refine ⟨mem_of_find?_eq_some h, ?_⟩
  have := find?_some h
  exact beq_iff_eq.mp this

theorem Cloud.not_exists_of_server? (h : c.server? id = none) : ¬ c.Exists id := by
  rintro ⟨s, hs, rfl⟩
  have := find?_eq_none.mp h s hs
  exact this (beq_self_eq_true _)

theorem Cloud.mem_remove {s} :
    s ∈ (c.remove id removal).servers ↔ s ∈ c.servers ∧ s.id ≠ id := by
  show s ∈ c.servers.filter (fun s => s.id != id) ↔ _
  rw [mem_filter, bne_iff_ne]

theorem Cloud.exists_remove {id'} (hne : id' ≠ id) (h : c.Exists id') :
    (c.remove id removal).Exists id' := by
  obtain ⟨s, hs, rfl⟩ := h
  exact ⟨s, mem_remove.mpr ⟨hs, hne⟩, rfl⟩

theorem Cloud.not_exists_remove (id : ServerId) (removal : Removal) : ¬ (c.remove id removal).Exists id := by
  rintro ⟨s, hs, hid⟩
  exact (mem_remove.mp hs).2 hid

/-- The volumes that a removal leaves, each detached if it was the server's. -/
theorem Cloud.ids_remove (id : ServerId) (removal : Removal) :
    ((c.remove id removal).volumes.map CloudVolume.id).Sublist (c.volumes.map CloudVolume.id) := by
  have hids : (c.remove id removal).volumes.map CloudVolume.id =
      (c.volumes.filter fun v => !(v.server == id && removal.deletes v.volumeType)).map CloudVolume.id := by
    show List.map CloudVolume.id (List.map _ _) = _
    rw [map_map]
    apply map_congr_left
    intro v _
    show CloudVolume.id (if v.server = id then _ else v) = v.id
    split
    · rfl
    · rfl
  rw [hids]
  exact filter_sublist.map CloudVolume.id

theorem Cloud.Kept.remove (h : c.Kept p)
    (hremoval : (c.server? id).bind CloudServer.removal = some removal) (hsafe : c.RemovalSafe id) :
    (c.remove id removal).Kept p ∧ c.Evolves p (c.remove id removal) := by
  obtain ⟨s₀, hs₀, hpending⟩ := Option.bind_eq_some_iff.mp hremoval
  obtain ⟨hmem₀, hid₀⟩ := mem_of_server? hs₀
  have htagged : c.BlockTagged p id := hid₀ ▸ h.pending s₀ hmem₀ (by rw [hpending]; exact Option.some_ne_none _)
  refine h.shrink rfl rfl ?_ ?_ (ids_remove id removal)
  · intro s hs
    exact ⟨s, (mem_remove.mp hs).1, rfl, rfl, .inl⟩
  · intro v' hv'
    obtain ⟨v, hv, rfl⟩ := mem_map.mp hv'
    obtain ⟨hv, hleft⟩ := mem_filter.mp hv
    by_cases hserver : v.server = id
    · -- it was the removed server's, and the removal left it
      rw [if_pos hserver]
      have hblock : v.volumeType = .sbsVolume := hsafe removal hremoval v hv hserver (by simpa [hserver] using hleft)
      refine ⟨v, hv, ⟨rfl, rfl, rfl, fun ht => ht⟩, rfl, fun hthere => ?_, fun _ _ => ?_⟩
      · exact absurd (hserver ▸ hthere) (not_exists_remove id removal)
      · exact ⟨hblock, htagged v hv hserver hblock⟩
    · rw [if_neg hserver]
      refine ⟨v, hv, SameVolume.refl p v, rfl, fun _ => rfl, fun hthere hgone => ?_⟩
      exact absurd (exists_remove hserver hthere) hgone

/-! ## The discipline -/

/-- The requests the provider may make. -/
def Allowed (p : ScalewayProvider) (c : Cloud) : Request → Prop
  | .createServer body => p.fleetTag ∈ body.tags ∧ body.project = p.projectId
  | .serverAction id .terminate => c.BlockTagged p id
  | .deleteServer id => c.BlockTagged p id
  | .tagVolume id tags => ∀ v ∈ c.volumes, v.id = id → p.fleetTag ∈ tags ∧ serverTag v.server ∈ tags
  | _ => True

/-- A new server gets ids that were never handed out. -/
def IdsFresh (c : Cloud) (fate : Fate) : Request → Prop
  | .createServer _ => c.Fresh fate.made
  | _ => True

instance (c : Cloud) (fate : Fate) (q : Request) : Decidable (IdsFresh c fate q) := by
  unfold IdsFresh
  split <;> infer_instance

/-- What a lookup by server tag finds fits on the first page. -/
def LookupFits (c : Cloud) : Request → Prop
  | .listBlockVolumes project tag page => page = 1 → startsWith serverTagStem tag = true →
      (c.taggedVolumes project tag).length ≤ listPerPage
  | _ => True

instance (c : Cloud) (q : Request) : Decidable (LookupFits c q) := by
  unfold LookupFits
  split <;> infer_instance

/-- The fates of a request. -/
def Admitted (c : Cloud) (q : Request) (fate : Fate) : Prop := IdsFresh c fate q ∧ LookupFits c q

/-- The moves of the account: a removal that completes leaves only block volumes. -/
def Moves (c : Cloud) : Move → Prop
  | .removed id => c.RemovalSafe id
  | _ => True

/-- Whatever its fate, a request does what it is documented to do, or nothing. -/
theorem request_fst (c : Cloud) (q : Request) (fate : Fate) :
    (c.request q fate).1 = c ∨ (c.request q fate).1 = (c.perform fate q).1 := by
  unfold request
  split
  · exact .inr rfl
  · exact .inl rfl
  · exact .inl rfl
  · exact .inr rfl
  · exact .inr rfl
  · split
    · rename_i heq
      rw [heq]
      exact .inr rfl
    · exact .inr rfl

theorem onServer_kept {β : Type} {f : CloudServer → Cloud × Reply β} (hsame : c.Kept p ∧ c.Evolves p c)
    (hf : ∀ s, c.server? id = some s → (f s).1.Kept p ∧ c.Evolves p (f s).1) :
    (c.onServer id f).1.Kept p ∧ c.Evolves p (c.onServer id f).1 := by
  unfold onServer
  split
  · exact hsame
  · exact hf _ ‹_›

theorem onVolume_kept {β : Type} {api : VolumeApi} {id : VolumeId} {f : CloudVolume → Cloud × Reply β} (hsame : c.Kept p ∧ c.Evolves p c)
    (hf : ∀ v, c.volume? api id = some v → (f v).1.Kept p ∧ c.Evolves p (f v).1) :
    (c.onVolume api id f).1.Kept p ∧ c.Evolves p (c.onVolume api id f).1 := by
  unfold onVolume
  split
  · exact hsame
  · exact hf _ ‹_›

theorem Cloud.Kept.perform (h : c.Kept p) {q : Request} (hallowed : Allowed p c q) {fate : Fate}
    (hadmitted : Admitted c q fate) : (c.perform fate q).1.Kept p ∧ c.Evolves p (c.perform fate q).1 := by
  have hsame : c.Kept p ∧ c.Evolves p c := ⟨h, Evolves.refl p c⟩
  cases q with
  | createServer body => exact h.make hadmitted.1 hallowed.1 hallowed.2
  | getServer id => exact onServer_kept hsame fun _ _ => hsame
  | listServers project tag page => exact hsame
  | serverAction id action =>
    cases action with
    | poweron =>
      refine onServer_kept hsame fun s _ => ?_
      split
      · exact h.setServer id (fun _ => rfl) (fun _ => rfl) fun _ _ _ => .inl
      · exact hsame
    | terminate =>
      refine onServer_kept hsame fun s _ => ?_
      split
      · exact h.setServer id (fun _ => rfl) (fun _ => rfl) fun _ _ _ _ => .inr hallowed
      · exact hsame
  | deleteServer id =>
    refine onServer_kept hsame fun s _ => ?_
    split
    · exact h.setServer id (fun _ => rfl) (fun _ => rfl) fun _ _ _ _ => .inr hallowed
    · exact hsame
  | writeCloudInit id userData =>
    exact onServer_kept hsame fun _ _ => hsame
  | getBlockVolume id => exact onVolume_kept hsame fun _ _ => hsame
  | listBlockVolumes project tag page => exact hsame
  | tagVolume id tags =>
    refine onVolume_kept hsame fun _ _ => ?_
    refine h.setVolume id fun v hv hid => ⟨⟨rfl, rfl, rfl, fun _ => ?_⟩, rfl, rfl⟩
    exact hallowed v hv hid
  | deleteVolume api id =>
    refine onVolume_kept hsame fun v _ => ?_
    split
    · exact hsame
    · exact h.setVolume id fun v _ _ => ⟨⟨rfl, rfl, rfl, fun ht => ht⟩, rfl, rfl⟩
  | checkVolume api id => exact onVolume_kept hsame fun _ _ => hsame

theorem Cloud.Kept.move (h : c.Kept p) {m} (hm : Moves c m) :
    (c.move m).Kept p ∧ c.Evolves p (c.move m) := by
  cases m with
  | serverState id state => exact h.setServer id (fun _ => rfl) (fun _ => rfl) fun _ _ _ => .inl
  | removed id =>
    simp only [Cloud.move]
    split
    · rename_i removal hremoval
      exact h.remove hremoval hm
    · exact ⟨h, Evolves.refl p c⟩
  | removalFailed id =>
    exact h.setServer id (fun _ => rfl) (fun _ => rfl) fun _ _ _ hne => absurd rfl hne
  | volumeState id status references =>
    exact h.setVolume id fun v _ _ => ⟨⟨rfl, rfl, rfl, fun ht => ht⟩, rfl, rfl⟩
  | volumeRemoved id =>
    refine h.update rfl rfl (fun s hs => ⟨s, hs, rfl, rfl, .inl⟩) (fun _ hthere => hthere) ?_
      (filter_sublist.map _)
    intro v hv
    exact ⟨v, (mem_filter.mp hv).1, SameVolume.refl p v, rfl, rfl⟩
  | volumeRemovalFailed id =>
    exact h.setVolume id fun v _ _ => ⟨⟨rfl, rfl, rfl, fun ht => ht⟩, rfl, rfl⟩

end

/-- What the provider's calls promise each other. -/
def custodian (p : ScalewayProvider) : Discipline scaleway where
  inv := Kept p
  rely := Evolves p
  allowed := Allowed p
  admits := Admitted
  moves := Moves
  rely_refl := Evolves.refl p
  rely_trans := Evolves.trans
  request_keeps := by
    intro c q fate h hallowed hadmitted
    have hperform := h.perform hallowed hadmitted
    rcases request_fst c q fate with heq | heq
    · show (c.request q fate).1.Kept p ∧ c.Evolves p (c.request q fate).1
      rw [heq]
      exact ⟨h, Evolves.refl p c⟩
    · show (c.request q fate).1.Kept p ∧ c.Evolves p (c.request q fate).1
      rw [heq]
      exact hperform
  move_keeps := fun h hm => h.move hm

end MatrixMedia.Scaleway

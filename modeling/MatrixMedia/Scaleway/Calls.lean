import MatrixMedia.Scaleway.Account

/-!
# What single requests guarantee

One `Safe` lemma for each request the provider makes, up to `ensureServerTag_safe`. What
a call learns stays true while others run: the volumes seen on the server are the ones it
was made with (`Seen`), no other ones exist (`Covers`), and a tag or a 404 is not taken
back (`TaggedId.evolves`, `NoVolume.evolves`).
-/

namespace MatrixMedia.Scaleway
open Lib Lib.Text Lib.Chrono Lib.Interaction Safe List

section
variable {p : ScalewayProvider} {c c' : Cloud} {uuid : ServerId} {id : VolumeId} {q : Request} {fate : Fate}

/-! ## What a reply says -/

theorem request_ok {a} (h : c.request q fate = (c', .ok a)) : c.perform fate q = (c', .ok a) := by
  unfold Cloud.request at h
  split at h
  · exact h
  · cases h
  · cases h
  · cases h
  · cases h
  · split at h
    · cases h
    · exact h

variable {status : Status} {server : ServerId} {volumes : List ServerVolume} {volumeType : VolumeType} {body : ErrorBody}
  {β : Type}

/-- A 404 is never made up. -/
theorem request_notFound (h : c.request q fate = (c', .http status body))
    (hcode : status.code = 404) : c.perform fate q = (c', .http status body) := by
  unfold Cloud.request at h
  split at h
  · exact h
  · cases h
  · rename_i refused _ _
    cases h
    exact absurd hcode refused.2.2
  · cases h
  · rename_i refused _ _
    cases h
    exact absurd hcode refused.2.2
  · split at h
    · cases h
    · exact h

theorem onServer_ok {f : CloudServer → Cloud × Reply β} {a : β}
    (h : c.onServer uuid f = (c', .ok a)) : ∃ s, c.server? uuid = some s ∧ f s = (c', .ok a) := by
  unfold Cloud.onServer at h
  split at h
  · cases h
  · exact ⟨_, ‹_›, h⟩

theorem onServer_notFound {f : CloudServer → Cloud × Reply β}
    (h : c.onServer uuid f = (c', .http status body)) (hf : ∀ s, f s ≠ (c', .http status body)) :
    ¬ c.Exists uuid := by
  unfold Cloud.onServer at h
  split at h
  · exact Cloud.not_exists_of_server? ‹_›
  · exact absurd h (hf _)

theorem onVolume_ok {api : VolumeApi} {f : CloudVolume → Cloud × Reply β} {a : β}
    (h : c.onVolume api id f = (c', .ok a)) :
    ∃ v ∈ c.volumes, v.id = id ∧ v.volumeType.api = api ∧ f v = (c', .ok a) := by
  unfold Cloud.onVolume at h
  split at h
  · cases h
  · rename_i v hfind
    have hv := find?_some hfind
    rw [Bool.and_eq_true, beq_iff_eq, beq_iff_eq] at hv
    exact ⟨v, mem_of_find?_eq_some hfind, hv.1, hv.2, h⟩

theorem onVolume_notFound {api : VolumeApi} {f : CloudVolume → Cloud × Reply β}
    (h : c.onVolume api id f = (c', .http status body)) (hf : ∀ v, f v ≠ (c', .http status body)) :
    ∀ v ∈ c.volumes, v.id = id → v.volumeType.api ≠ api := by
  unfold Cloud.onVolume at h
  split at h
  · rename_i hfind
    intro v hv hid hapi
    apply find?_eq_none.mp hfind v hv
    rw [Bool.and_eq_true, beq_iff_eq, beq_iff_eq]
    exact ⟨hid, hapi⟩
  · exact absurd h (hf _)

/-- A request to tag a volume that reports success has tagged it. -/
theorem tagVolume_done {tags : List String} {reply : Reply Unit}
    (h : c.request (.tagVolume id tags) fate = (c', reply))
    (hreply : reply = .ok () ∨ ∃ e, reply = .garbled e) :
    ∀ v' ∈ c'.volumes, v'.id = id → v'.tags = tags ∧ ∃ v ∈ c.volumes, v.id = id ∧ v.server = v'.server := by
  have hdone : c' = c.setVolume id fun v => { v with tags := tags } := by
    have hperform : ∀ a, c.perform fate (.tagVolume id tags) = (c', .ok a) →
        c' = c.setVolume id fun v => { v with tags := tags } := by
      intro a ha
      obtain ⟨v, -, -, -, hf⟩ := onVolume_ok ha
      cases hf
      rfl
    rcases hreply with rfl | ⟨e, rfl⟩
    · exact hperform () (request_ok h)
    · unfold Cloud.request at h
      split at h
      · simp only [Cloud.perform, Cloud.onVolume] at h
        split at h <;> cases h
      · cases h
      · cases h
      · cases h
      · cases h
      · split at h
        · rename_i heq
          cases h
          exact hperform _ heq
        · simp only [Cloud.perform, Cloud.onVolume] at h
          split at h <;> cases h
  subst hdone
  intro v' hv' hid
  obtain ⟨v, hv, rfl⟩ := mem_map.mp hv'
  by_cases heq : v.id = id
  · rw [if_pos heq]
    exact ⟨rfl, v, hv, heq, rfl⟩
  · rw [if_neg heq] at hid
    exact absurd hid heq

/-! ## What a call knows -/

/-- These volumes were made with the server. -/
def Seen (c : Cloud) (uuid : ServerId) (volumes : List ServerVolume) : Prop :=
  ∀ sv ∈ volumes, (sv.id, uuid, sv.volumeType) ∈ c.madeVolumes

/-- The server has no other volumes. -/
def Covers (c : Cloud) (uuid : ServerId) (volumes : List ServerVolume) : Prop :=
  ∀ v ∈ c.volumes, v.server = uuid → ∃ sv ∈ volumes, sv.id = v.id

/-- The volume of this id, if it exists, is tagged. -/
def TaggedId (p : ScalewayProvider) (c : Cloud) (id : VolumeId) : Prop := ∀ v ∈ c.volumes, v.id = id → Tagged p v

def NoVolume (c : Cloud) (id : VolumeId) : Prop := ∀ v ∈ c.volumes, v.id ≠ id

theorem Seen.evolves (h : Seen c uuid volumes) (hev : c.Evolves p c') :
    Seen c' uuid volumes := fun sv hsv => hev.madeVolumes (h sv hsv)

theorem Covers.evolves (h : Covers c uuid volumes) (hmade : uuid ∈ c.madeServers)
    (hev : c.Evolves p c') : Covers c' uuid volumes := by
  intro v' hv' hserver
  obtain ⟨v, hv, hsame⟩ := hev.volumes v' hv' (hserver ▸ hmade)
  obtain ⟨sv, hsv, hid⟩ := h v hv (hsame.server.trans hserver)
  exact ⟨sv, hsv, hid.trans hsame.id⟩

theorem not_exists_evolves (h : ¬ c.Exists uuid) (hmade : uuid ∈ c.madeServers) (hev : c.Evolves p c') :
    ¬ c'.Exists uuid := fun hthere => h (hev.servers uuid hmade hthere)

section
variable (hkept : c.Kept p) (hkept' : c'.Kept p) (hev : c.Evolves p c')
  (hmade : (id, server, volumeType) ∈ c.madeVolumes)
include hkept hkept' hev hmade

/-- A volume of an id handed out before is an old one. -/
theorem old_volume {v'} (hv' : v' ∈ c'.volumes) (hid : v'.id = id) : ∃ v ∈ c.volumes, SameVolume p v v' := by
  subst hid
  obtain ⟨hserver, -⟩ := hkept'.made_eq hv' (hev.madeVolumes hmade)
  exact hev.volumes v' hv' (hserver ▸ hkept.madeWith _ hmade)

theorem TaggedId.evolves (h : TaggedId p c id) : TaggedId p c' id := by
  intro v' hv' hid
  obtain ⟨v, hv, hsame⟩ := old_volume hkept hkept' hev hmade hv' hid
  exact hsame.tagged (h v hv (hsame.id.trans hid))

theorem NoVolume.evolves (h : NoVolume c id) : NoVolume c' id := by
  intro v' hv' hid
  obtain ⟨v, hv, hsame⟩ := old_volume hkept hkept' hev hmade hv' hid
  exact h v hv (hsame.id.trans hid)

end

/-- Before a removal is asked for: the block volumes of the server are tagged. -/
theorem blockTagged_of_seen (hkept : c.Kept p) (hseen : Seen c uuid volumes)
    (hcovers : Covers c uuid volumes) (htagged : ∀ sv ∈ volumes, sv.volumeType = .sbsVolume → TaggedId p c sv.id) :
    c.BlockTagged p uuid := by
  intro v hv hserver htype
  obtain ⟨sv, hsv, hid⟩ := hcovers v hv hserver
  obtain ⟨-, hsvtype⟩ := hkept.made_eq hv (hid ▸ hseen sv hsv)
  exact htagged sv hsv (hsvtype ▸ htype) v hv hid.symm

/-! ## Single requests -/

/-- What a `GET` of the server reports. -/
def ServerReport (c : Cloud) (uuid : ServerId) : Option Server → Prop
  | none => ¬ c.Exists uuid
  | some server => Seen c uuid server.volumes ∧ Covers c uuid server.volumes

theorem mem_view_volumes {s sv} : sv ∈ (c.view s).volumes ↔
    ∃ v ∈ c.volumes, v.server = s.id ∧ v.attached = true ∧ ⟨v.id, v.volumeType⟩ = sv := by
  simp only [Cloud.view, mem_map, mem_filter, Bool.and_eq_true, beq_iff_eq, and_assoc]

/-- The view of an existing server shows all of its volumes. -/
theorem view_report (hkept : c.Kept p) {s} (hs : s ∈ c.servers) :
    ServerReport c s.id (some (c.view s)) := by
  constructor
  · intro sv hsv
    obtain ⟨v, hv, hserver, -, rfl⟩ := mem_view_volumes.mp hsv
    exact hserver ▸ hkept.volumeMade v hv
  · intro v hv hserver
    have hattached := hkept.attached v hv ⟨s, hs, hserver.symm⟩
    exact ⟨_, mem_view_volumes.mpr ⟨v, hv, hserver, hattached, rfl⟩, rfl⟩

theorem ServerReport.evolves {found} (h : ServerReport c uuid found) (hmade : uuid ∈ c.madeServers)
    (hev : c.Evolves p c') : ServerReport c' uuid found := by
  cases found with
  | none => exact not_exists_evolves h hmade hev
  | some server => exact ⟨h.1.evolves hev, h.2.evolves hmade hev⟩

theorem getServer_safe (hmade : uuid ∈ c.madeServers) :
    Safe (custodian p) (Returns fun found c => ServerReport c uuid found) (getServer uuid) c := by
  refine call fun c₁ hkept hev => ⟨trivial, ?_⟩
  rintro c₂ reply ⟨fate, -, hreq⟩ hkept₂ hev₂
  have hreq : c₁.request (.getServer uuid) fate = (c₂, reply) := hreq
  have hmade₁ := hev.madeServers hmade
  cases reply with
  | transport | garbled => exact error _
  | http status body =>
    dsimp only
    split
    · rename_i hcode
      have hgone := onServer_notFound (request_notFound hreq hcode) nofun
      refine ok fun c₃ _ hev₃ => ?_
      exact not_exists_evolves hgone hmade₁ (hev₂.trans hev₃)
    · exact error _
  | ok server =>
    obtain ⟨s, hs, hview⟩ := onServer_ok (request_ok hreq)
    cases hview
    obtain ⟨hmem, rfl⟩ := Cloud.mem_of_server? hs
    refine ok fun c₃ _ hev₃ => ?_
    exact (view_report hkept hmem).evolves hmade₁ hev₃

/-- A removal or another action, asked for only when it is allowed. -/
theorem plainRequest_safe {q failed gone}
    (hallowed : ∀ c', c'.Kept p → c.Evolves p c' → Allowed p c' q) :
    Safe (custodian p) (Returns fun _ _ => True) (plainRequest q failed gone) c := by
  refine call fun c₁ hkept hev => ⟨hallowed c₁ hkept hev, ?_⟩
  intro c₂ reply _ _ _
  cases reply with
  | transport e => exact error _
  | garbled e => exact ok fun _ _ _ => trivial
  | http status body =>
    dsimp only
    split
    · exact ok fun _ _ _ => trivial
    · exact error _
  | ok a => exact ok fun _ _ _ => trivial

/-- `terminate` answers `false` only when the server is gone. -/
theorem terminate_safe (hmade : uuid ∈ c.madeServers)
    (hallowed : ∀ c', c'.Kept p → c.Evolves p c' → c'.BlockTagged p uuid) :
    Safe (custodian p) (Returns fun there c => there = false → ¬ c.Exists uuid) (serverAction uuid .terminate) c := by
  refine call fun c₁ hkept hev => ⟨hallowed c₁ hkept hev, ?_⟩
  rintro c₂ reply ⟨fate, -, hreq⟩ hkept₂ hev₂
  have hreq : c₁.request (.serverAction uuid .terminate) fate = (c₂, reply) := hreq
  cases reply with
  | transport e => exact error _
  | garbled | ok => exact ok fun _ _ _ h => by cases h
  | http status body =>
    dsimp only
    split
    · rename_i answer hcode heq
      have hgone : ¬ c₁.Exists uuid := by
        have hcode : status.code = 404 := beq_iff_eq.mp heq
        refine onServer_notFound (request_notFound hreq hcode) ?_
        intro s h
        split at h
        · cases h
        · cases h
          exact absurd hcode (by decide)
      exact ok fun c₃ _ hev₃ _ =>
        not_exists_evolves hgone (hev.madeServers hmade) (hev₂.trans hev₃)
    · exact error _

/-! ## Tags -/

theorem tagVolume_safe {tags}
    (hmade : (id, uuid, volumeType) ∈ c.madeVolumes) (hfleet : p.fleetTag ∈ tags) (hserver : serverTag uuid ∈ tags) :
    Safe (custodian p) (Returns fun _ c => TaggedId p c id) (p.tagVolume id tags) c := by
  unfold ScalewayProvider.tagVolume
  generalize p.settlePolls + 1 = left
  generalize (none : Option Fleet.ProviderError) = last
  induction left generalizing c last with
  | zero => exact error _
  | succ left ih =>
    refine call fun c₁ hkept hev => ⟨?_, ?_⟩
    · intro v hv hid
      obtain ⟨hv, -⟩ := hkept.made_eq hv (hid ▸ hev.madeVolumes hmade)
      exact ⟨hfleet, hv ▸ hserver⟩
    rintro c₂ reply ⟨fate, -, hreq⟩ hkept₂ hev₂
    have hreq : c₁.request (.tagVolume id tags) fate = (c₂, reply) := hreq
    have hmade₂ := hev₂.madeVolumes (hev.madeVolumes hmade)
    have hdone : (reply = .ok () ∨ ∃ e, reply = .garbled e) → TaggedId p c₂ id := by
      intro hreply v' hv' hid
      obtain ⟨htags, -⟩ := tagVolume_done hreq hreply v' hv' hid
      obtain ⟨hv', -⟩ := hkept₂.made_eq hv' (hid ▸ hmade₂)
      unfold Tagged
      rw [htags, hv']
      exact ⟨hfleet, hserver⟩
    cases reply with
    | transport e => exact error _
    | garbled e =>
      have htagged := hdone (.inr ⟨e, rfl⟩)
      exact ok fun c₃ hkept₃ hev₃ => htagged.evolves hkept₂ hkept₃ hev₃ hmade₂
    | ok a =>
      have htagged := hdone (.inl rfl)
      exact ok fun c₃ hkept₃ hev₃ => htagged.evolves hkept₂ hkept₃ hev₃ hmade₂
    | http status body =>
      dsimp only
      split
      · exact ih hmade₂ _
      · exact error _

/-- What a `GET` of a block volume says about its tags. -/
def VolumeReport (p : ScalewayProvider) (c : Cloud) (uuid : ServerId) (id : VolumeId) : Option BlockVolume → Prop
  | none => TaggedId p c id
  | some current => p.fleetTag ∈ current.tags → serverTag uuid ∈ current.tags → TaggedId p c id

theorem getBlockVolume_safe (hmade : (id, uuid, .sbsVolume) ∈ c.madeVolumes) :
    Safe (custodian p) (Returns fun found c => VolumeReport p c uuid id found) (getBlockVolume id) c := by
  refine call fun c₁ hkept hev => ⟨trivial, ?_⟩
  rintro c₂ reply ⟨fate, -, hreq⟩ hkept₂ hev₂
  have hreq : c₁.request (.getBlockVolume id) fate = (c₂, reply) := hreq
  have hmade₁ := hev.madeVolumes hmade
  cases reply with
  | transport | garbled => exact error _
  | http status body =>
    dsimp only
    split
    · rename_i hcode
      have hnone := onVolume_notFound (request_notFound hreq hcode) nofun
      have htagged : TaggedId p c₁ id := by
        intro v hv hid
        obtain ⟨-, htype⟩ := hkept.made_eq hv (hid ▸ hmade₁)
        exact absurd (by rw [htype]; rfl) (hnone v hv hid)
      exact ok fun c₃ hkept₃ hev₃ => htagged.evolves hkept hkept₃ (hev₂.trans hev₃) hmade₁
    · exact error _
  | ok current =>
    obtain ⟨v, hv, hid, -, hview⟩ := onVolume_ok (request_ok hreq)
    cases hview
    refine ok fun c₃ hkept₃ hev₃ hfleet hserver => ?_
    have htagged : TaggedId p c₁ id := by
      intro w hw hwid
      obtain rfl := hkept.eq_of_id hw hv (hwid.trans hid.symm)
      obtain ⟨hserver', -⟩ := hkept.made_eq hw (hid ▸ hmade₁)
      exact ⟨hfleet, hserver' ▸ hserver⟩
    exact htagged.evolves hkept hkept₃ hev₃ hmade₁

theorem mem_withOurTags (p : ScalewayProvider) (uuid : ServerId) (tags : List String) :
    p.fleetTag ∈ p.withOurTags uuid tags ∧ serverTag uuid ∈ p.withOurTags uuid tags := by
  have hadd : ∀ (ts : List String) (t : String), t ∈ (if ts.contains t then ts else ts ++ [t]) ∧
      ∀ u ∈ ts, u ∈ (if ts.contains t then ts else ts ++ [t]) := by
    intro ts t
    split
    · rename_i h
      exact ⟨contains_iff_mem.mp h, fun _ hu => hu⟩
    · exact ⟨mem_append_right _ mem_cons_self, fun _ hu => mem_append_left _ hu⟩
  obtain ⟨hfleet, -⟩ := hadd tags p.fleetTag
  obtain ⟨hserver, hkeep⟩ := hadd (if tags.contains p.fleetTag then tags else tags ++ [p.fleetTag]) (serverTag uuid)
  exact ⟨hkeep _ hfleet, hserver⟩

theorem ensureServerTag_safe (hkept : c.Kept p) (hseen : Seen c uuid volumes) :
    Safe (custodian p) (Returns fun _ c => ∀ sv ∈ volumes, sv.volumeType = .sbsVolume → TaggedId p c sv.id)
      (p.ensureServerTag uuid volumes) c := by
  induction volumes generalizing c with
  | nil => exact ok fun _ _ _ sv hsv => by cases hsv
  | cons sv volumes ih =>
    have hrest : Seen c uuid volumes := fun w hw => hseen w (mem_cons_of_mem _ hw)
    have hmade := hseen sv mem_cons_self
    -- Going on with the rest once the first volume is tagged, or is none of the block API's.
    have hnext : ∀ c₁, c₁.Kept p → c.Evolves p c₁ → (sv.volumeType = .sbsVolume → TaggedId p c₁ sv.id) →
        Safe (custodian p) (Returns fun _ c => ∀ w ∈ sv :: volumes, w.volumeType = .sbsVolume → TaggedId p c w.id)
          (p.ensureServerTag uuid volumes) c₁ := by
      intro c₁ hkept₁ hev htagged
      refine (ih hkept₁ (hrest.evolves hev)).weaken ?_
      intro r c₂ hkept₂ hev₂ hr a ha w hw htype
      rcases mem_cons.mp hw with rfl | hw
      · exact (htagged htype).evolves hkept₁ hkept₂ hev₂ (hev.madeVolumes hmade)
      · exact hr a ha w hw htype
    unfold ScalewayProvider.ensureServerTag
    split
    · rename_i hblock
      have htype : sv.volumeType = .sbsVolume := beq_iff_eq.mp hblock
      rw [htype] at hmade
      refine (getBlockVolume_safe hmade).andThen ?_
      intro found c₁ hkept₁ hev₁ hreport
      cases found with
      | none => exact hnext c₁ hkept₁ hev₁ fun _ => hreport
      | some current =>
        dsimp only
        split
        · rename_i htags
          rw [Bool.and_eq_true, contains_iff_mem, contains_iff_mem] at htags
          exact hnext c₁ hkept₁ hev₁ fun _ => hreport htags.2 htags.1
        · obtain ⟨hfleet, hserver⟩ := mem_withOurTags p uuid current.tags
          refine (tagVolume_safe (hev₁.madeVolumes hmade) hfleet hserver).andThen ?_
          intro _ c₂ hkept₂ hev₂ htagged
          exact hnext c₂ hkept₂ (hev₁.trans hev₂) fun _ => htagged
    · rename_i hblock
      exact hnext c hkept (Cloud.Evolves.refl p c) fun htype => absurd (beq_iff_eq.mpr htype) hblock

end

end MatrixMedia.Scaleway

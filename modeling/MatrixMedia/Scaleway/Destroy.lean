import MatrixMedia.Scaleway.Calls

/-!
# What `destroy` guarantees

`destroy_safe`: when `destroy` returns `Ok`, the server and every volume made with it are
gone. The polls end with a server that is gone and the volumes seen on it, the lookup by
tag finds every volume that outlived it, and each deletion waits until its volume is gone.
-/

namespace MatrixMedia.Scaleway
open Lib Lib.Text Lib.Chrono Lib.Interaction Safe ScalewayProvider List

section
variable {p : ScalewayProvider} {c c' : Cloud} {uuid : ServerId} {id : VolumeId} {q : Request} {fate : Fate}

/-! ## The polls of `destroy` -/

open ScalewayProvider in
theorem mem_foldl_insertVolume {new volumes : List ServerVolume} {sv}
    (h : sv ∈ new.foldl insertVolume volumes) : sv ∈ volumes ∨ sv ∈ new := by
  induction new generalizing volumes with
  | nil => exact .inl h
  | cons v new ih =>
    rcases ih h with hin | hin
    · unfold insertVolume at hin
      split at hin
      · obtain ⟨w, hw, rfl⟩ := mem_map.mp hin
        split
        · exact .inr mem_cons_self
        · exact .inl hw
      · rcases mem_append.mp hin with hin | hin
        · exact .inl hin
        · rw [mem_singleton] at hin
          exact .inr (hin ▸ mem_cons_self)
    · exact .inr (mem_cons_of_mem _ hin)

open ScalewayProvider in
theorem insertVolume_id (volumes : List ServerVolume) (v : ServerVolume) :
    (∃ w ∈ insertVolume volumes v, w.id = v.id) ∧
      ∀ sv ∈ volumes, ∃ w ∈ insertVolume volumes v, w.id = sv.id := by
  unfold insertVolume
  split
  · rename_i hany
    obtain ⟨w, hw, hid⟩ := any_eq_true.mp hany
    have hkeep : ∀ sv ∈ volumes, ∃ w ∈ volumes.map fun w => if w.id = v.id then v else w, w.id = sv.id := by
      intro sv hsv
      refine ⟨_, mem_map_of_mem hsv, ?_⟩
      split
      · rename_i heq
        exact heq.symm
      · rfl
    obtain ⟨w', hw', hid'⟩ := hkeep w hw
    exact ⟨⟨w', hw', hid'.trans (beq_iff_eq.mp hid)⟩, hkeep⟩
  · exact ⟨⟨v, mem_append_right _ mem_cons_self, rfl⟩,
      fun sv hsv => ⟨sv, mem_append_left _ hsv, rfl⟩⟩

open ScalewayProvider in
theorem foldl_insertVolume_id {new : List ServerVolume} (volumes : List ServerVolume) {sv : ServerVolume}
    (h : sv ∈ volumes ∨ sv ∈ new) : ∃ w ∈ new.foldl insertVolume volumes, w.id = sv.id := by
  induction new generalizing volumes sv with
  | nil =>
    rcases h with h | h
    · exact ⟨sv, h, rfl⟩
    · cases h
  | cons v new ih =>
    obtain ⟨⟨w, hw, hwid⟩, hkeep⟩ := insertVolume_id volumes v
    have hstep : sv ∈ new ∨ ∃ w ∈ insertVolume volumes v, w.id = sv.id := by
      rcases h with h | h
      · exact .inr (hkeep sv h)
      · rcases mem_cons.mp h with rfl | h
        · exact .inr ⟨w, hw, hwid⟩
        · exact .inl h
    rcases hstep with hnew | ⟨w', hw', hid⟩
    · exact ih _ (.inr hnew)
    · obtain ⟨u, hu, huid⟩ := ih _ (.inl hw')
      exact ⟨u, hu, huid.trans hid⟩

/-- Where the polls end: with volumes of the server, and `gone` only if it is. -/
def PollReport (c : Cloud) (uuid : ServerId) (polled : Polled) : Prop :=
  Seen c uuid polled.volumes ∧ (polled.gone = true → ¬ c.Exists uuid)

/-- What the polls have collected, with what the server shows now. -/
theorem seen_insert {volumes shown} (hseen : Seen c uuid volumes) (hshown : Seen c uuid shown) :
    Seen c uuid (shown.foldl insertVolume volumes) := by
  intro sv hsv
  rcases mem_foldl_insertVolume hsv with h | h
  · exact hseen sv h
  · exact hshown sv h

theorem covers_insert {shown : List ServerVolume} (volumes : List ServerVolume) (hcovers : Covers c uuid shown) :
    Covers c uuid (shown.foldl insertVolume volumes) := by
  intro v hv hserver
  obtain ⟨sv, hsv, hid⟩ := hcovers v hv hserver
  obtain ⟨w, hw, hwid⟩ := foldl_insertVolume_id volumes (.inr hsv)
  exact ⟨w, hw, hwid.trans hid⟩

/-- Once the volumes seen are tagged, the server may be removed, now and later. -/
theorem blockTagged_of_tags {c₁ c₂ c₃ : Cloud} {volumes} (hmade : uuid ∈ c₁.madeServers)
    (hseen : Seen c₁ uuid volumes) (hcovers : Covers c₁ uuid volumes) (hkept₂ : c₂.Kept p) (hev₂ : c₁.Evolves p c₂)
    (htagged : ∀ sv ∈ volumes, sv.volumeType = .sbsVolume → TaggedId p c₂ sv.id) (hkept₃ : c₃.Kept p)
    (hev₃ : c₂.Evolves p c₃) : c₃.BlockTagged p uuid := by
  have hev₁₃ := hev₂.trans hev₃
  refine blockTagged_of_seen hkept₃ (hseen.evolves hev₁₃) (hcovers.evolves hmade hev₁₃) ?_
  intro sv hsv htype
  exact (htagged sv hsv htype).evolves hkept₂ hkept₃ hev₃ (hev₂.madeVolumes (hseen sv hsv))

theorem destroyLoop_safe {providerId} (left : Nat) {volumes requested} (hmade : uuid ∈ c.madeServers) (hseen : Seen c uuid volumes) :
    Safe (custodian p) (Returns fun polled c => PollReport c uuid polled)
      (p.destroyLoop providerId uuid left volumes requested) c := by
  induction left generalizing c volumes requested with
  | zero => exact ok fun c' _ hev => ⟨hseen.evolves hev, fun h => by cases h⟩
  | succ left ih =>
    unfold destroyLoop
    refine (getServer_safe hmade).andThen ?_
    intro found c₁ hkept₁ hev₁ hreport
    have hmade₁ := hev₁.madeServers hmade
    have hseen₁ := hseen.evolves hev₁
    cases found with
    | none =>
      exact ok fun c₂ _ hev₂ => ⟨hseen₁.evolves hev₂, fun _ => not_exists_evolves hreport hmade₁ hev₂⟩
    | some server =>
      obtain ⟨hshown, hcovers⟩ := hreport
      dsimp only
      have hseenAll := seen_insert hseen₁ hshown
      have hcoversAll := covers_insert volumes hcovers
      generalize server.volumes.foldl insertVolume volumes = all at hseenAll hcoversAll
      have hdelete : Safe (custodian p) (Returns fun polled c => PollReport c uuid polled)
          ((p.ensureServerTag uuid all).andThen fun _ => (deleteServer uuid).andThen fun _ =>
            p.destroyLoop providerId uuid left all (some .deleted)) c₁ := by
        refine (ensureServerTag_safe hkept₁ hseenAll).andThen ?_
        intro _ c₂ hkept₂ hev₂ htagged
        refine (plainRequest_safe fun _ => blockTagged_of_tags hmade₁ hseenAll hcoversAll hkept₂ hev₂ htagged).andThen ?_
        intro _ c₃ hkept₃ hev₃ _
        exact ih (hev₃.madeServers (hev₂.madeServers hmade₁)) (hseenAll.evolves (hev₂.trans hev₃))
      split
      · exact ih hmade₁ hseenAll
      · split
        · refine (ensureServerTag_safe hkept₁ hseenAll).andThen ?_
          intro _ c₂ hkept₂ hev₂ htagged
          have hmade₂ := hev₂.madeServers hmade₁
          refine (terminate_safe hmade₂ fun _ => blockTagged_of_tags hmade₁ hseenAll hcoversAll hkept₂ hev₂ htagged).andThen ?_
          intro there c₃ hkept₃ hev₃ hgone
          have hmade₃ := hev₃.madeServers hmade₂
          have hseen₃ := hseenAll.evolves (hev₂.trans hev₃)
          cases there with
          | true => exact ih hmade₃ hseen₃
          | false =>
            exact ok fun c₄ _ hev₄ =>
              ⟨hseen₃.evolves hev₄, fun _ => not_exists_evolves (hgone rfl) hmade₃ hev₄⟩
        · exact hdelete
        · exact hdelete
        · exact ih hmade₁ hseenAll
        · exact ih hmade₁ hseenAll
        · exact error _

/-! ## The lookup by tag -/

/-- The id of a block volume that was made at some time. -/
def MadeBlock (c : Cloud) (id : VolumeId) : Prop := ∃ server, (id, server, .sbsVolume) ∈ c.madeVolumes

theorem MadeBlock.evolves (h : MadeBlock c id) (hev : c.Evolves p c') : MadeBlock c' id := by
  obtain ⟨server, hmade⟩ := h
  exact ⟨server, hev.madeVolumes hmade⟩

theorem collect_ok {β : Type} {l : Listing β} {collected items result : List β}
    (h : collect l collected items = .ok result) : result = collected ++ items := by
  induction items generalizing collected with
  | nil =>
    cases h
    rw [append_nil]
  | cons item items ih =>
    unfold collect at h
    split at h
    · cases h
    · rw [ih h, append_assoc]
      rfl

theorem mem_taggedVolumes {project tag v} : v ∈ c.taggedVolumes project tag ↔
    v ∈ c.volumes ∧ v.volumeType = .sbsVolume ∧ v.projectId = project ∧ tag ∈ v.tags := by
  simp only [Cloud.taggedVolumes, mem_filter, Bool.and_eq_true, beq_iff_eq, contains_iff_mem, and_assoc]

theorem ours_view {tag} {v : CloudVolume} (hproject : v.projectId = p.projectId) (htag : tag ∈ v.tags) :
    (p.blockVolumes tag).ours v.view = true := by
  show (v.projectId == p.projectId && v.tags.any (· == tag)) = true
  rw [Bool.and_eq_true, beq_iff_eq, any_eq_true]
  exact ⟨hproject, tag, htag, beq_self_eq_true _⟩

/-- A page of the volume list reports what the account holds. -/
theorem volumePage_ok {tag page answer}
    (h : c.request (.listBlockVolumes p.projectId tag page) fate = (c', .ok answer)) :
    c' = c ∧ answer.items =
      (((c.taggedVolumes p.projectId tag).map CloudVolume.view).drop ((page - 1) * listPerPage)).take listPerPage := by
  have hperform := request_ok h
  cases hperform
  exact ⟨rfl, rfl⟩

theorem volumePage_made (hkept : c.Kept p) {tag page answer}
    (h : c.request (.listBlockVolumes p.projectId tag page) fate = (c', .ok answer)) :
    ∀ b ∈ answer.items, MadeBlock c b.id := by
  intro b hb
  rw [(volumePage_ok h).2] at hb
  obtain ⟨v, hv, rfl⟩ := mem_map.mp (mem_of_mem_drop (mem_of_mem_take hb))
  obtain ⟨hv, htype, -⟩ := mem_taggedVolumes.mp hv
  exact ⟨v.server, htype ▸ hkept.volumeMade v hv⟩

/-- The pages from some page on: only block volumes, and everything collected so far. -/
theorem listPages_safe {tag : String} (left : Nat) {page : Nat} {collected : List BlockVolume}
    (hmade : ∀ b ∈ collected, MadeBlock c b.id) :
    Safe (custodian p) (Returns fun tagged c => (∀ b ∈ tagged, MadeBlock c b.id) ∧
        ∀ b ∈ collected, (p.blockVolumes tag).ours b = true → b ∈ tagged)
      (listPages (p.blockVolumes tag) left page collected) c := by
  induction left generalizing c page collected with
  | zero => exact error _
  | succ left ih =>
    refine call fun c₁ hkept hev => ⟨trivial, ?_⟩
    rintro c₂ reply ⟨fate, -, hreq⟩ hkept₂ hev₂
    have hreq : c₁.request (.listBlockVolumes p.projectId tag page) fate = (c₂, reply) := hreq
    cases reply with
    | transport | http | garbled => exact error _
    | ok answer =>
      have hitems := volumePage_made hkept hreq
      dsimp only
      split
      · exact error _
      · rename_i all hall
        have hall : all = collected ++ answer.items := collect_ok hall
        have hmadeAll : ∀ b ∈ all, MadeBlock c₂ b.id := by
          intro b hb
          rw [hall, mem_append] at hb
          rcases hb with hb | hb
          · exact (hmade b hb).evolves (hev.trans hev₂)
          · exact (hitems b hb).evolves hev₂
        split
        · exact error _
        · refine ok fun c₃ _ hev₃ => ⟨?_, ?_⟩
          · intro b hb
            exact (hmadeAll b (mem_filter.mp hb).1).evolves hev₃
          · intro b hb hours
            exact mem_filter.mpr ⟨hall ▸ mem_append_left _ hb, hours⟩
        · refine (ih hmadeAll).weaken ?_
          intro r c₃ _ _ hr tagged htagged
          obtain ⟨hmade₃, hkeep⟩ := hr tagged htagged
          exact ⟨hmade₃, fun b hb => hkeep b (hall ▸ mem_append_left _ hb)⟩

/-- The lookup by server tag, once the server is gone: it finds every volume that is left. -/
theorem lookup_safe (hmade : uuid ∈ c.madeServers) (hgone : ¬ c.Exists uuid) :
    Safe (custodian p) (Returns fun tagged c => (∀ b ∈ tagged, MadeBlock c b.id) ∧
        ∀ v ∈ c.volumes, v.server = uuid → ∃ b ∈ tagged, b.id = v.id)
      (p.listBlockVolumes (serverTag uuid)) c := by
  show Safe (custodian p) _ (listPages (p.blockVolumes (serverTag uuid)) (99 + 1) 1 []) c
  refine call fun c₁ hkept hev => ⟨trivial, ?_⟩
  rintro c₂ reply ⟨fate, hadmitted, hreq⟩ hkept₂ hev₂
  have hreq : c₁.request (.listBlockVolumes p.projectId (serverTag uuid) 1) fate = (c₂, reply) := hreq
  have hfits : (c₁.taggedVolumes p.projectId (serverTag uuid)).length ≤ listPerPage :=
    hadmitted.2 rfl (startsWith_iff.mpr ⟨uuid, rfl⟩)
  cases reply with
  | transport | http | garbled => exact error _
  | ok answer =>
    obtain ⟨rfl, hitems⟩ := volumePage_ok hreq
    have hmadeItems := volumePage_made hkept hreq
    have hmade₁ := hev.madeServers hmade
    have hgone₁ := not_exists_evolves hgone hmade hev
    -- Everything of the server that is left is tagged, and all of it fits on this page.
    have hcovered : ∀ c₃, c₂.Evolves p c₃ → ∀ v' ∈ c₃.volumes, v'.server = uuid →
        ∃ b ∈ answer.items, (p.blockVolumes (serverTag uuid)).ours b = true ∧ b.id = v'.id := by
      intro c₃ hev₃ v' hv' hserver'
      obtain ⟨v, hv, hsame⟩ := hev₃.volumes v' hv' (hserver' ▸ hmade₁)
      have hserver : v.server = uuid := hsame.server.trans hserver'
      obtain ⟨htype, -, htag⟩ := hkept.custody v hv (hserver ▸ hgone₁)
      rw [hserver] at htag
      refine ⟨v.view, ?_, ours_view (hkept.project v hv) htag, hsame.id⟩
      rw [hitems, Nat.sub_self, Nat.zero_mul, drop_zero, take_of_length_le (by rwa [length_map])]
      exact mem_map_of_mem (mem_taggedVolumes.mpr ⟨hv, htype, hkept.project v hv, htag⟩)
    dsimp only
    split
    · exact error _
    · rename_i all hall
      have hall : all = answer.items := collect_ok hall
      subst hall
      split
      · exact error _
      · refine ok fun c₃ _ hev₃ => ⟨?_, ?_⟩
        · intro b hb
          exact (hmadeItems b (mem_filter.mp hb).1).evolves hev₃
        · intro v' hv' hserver
          obtain ⟨b, hb, hours, hid⟩ := hcovered c₃ hev₃ v' hv' hserver
          exact ⟨b, mem_filter.mpr ⟨hb, hours⟩, hid⟩
      · refine (listPages_safe 99 hmadeItems).weaken ?_
        intro r c₃ _ hev₃ hr tagged htagged
        obtain ⟨hmade₃, hkeep⟩ := hr tagged htagged
        refine ⟨hmade₃, ?_⟩
        intro v' hv' hserver
        obtain ⟨b, hb, hours, hid⟩ := hcovered c₃ hev₃ v' hv' hserver
        exact ⟨b, hkeep b hb hours, hid⟩

/-! ## Deleting volumes -/

theorem waitUntilVolumeGone_safe {server} {volumeType : VolumeType}
    (hmade : (id, server, volumeType) ∈ c.madeVolumes) (left : Nat) :
    Safe (custodian p) (Returns fun _ c => NoVolume c id)
      (waitUntilVolumeGone volumeType.api id left) c := by
  induction left generalizing c with
  | zero => exact error _
  | succ left ih =>
    refine call fun c₁ hkept hev => ⟨trivial, ?_⟩
    rintro c₂ reply ⟨fate, -, hreq⟩ hkept₂ hev₂
    have hreq : c₁.request (.checkVolume volumeType.api id) fate = (c₂, reply) := hreq
    have hmade₁ := hev.madeVolumes hmade
    cases reply with
    | transport | garbled => exact error _
    | http status body =>
      dsimp only
      split
      · rename_i hcode
        have hnone := onVolume_notFound (request_notFound hreq hcode) nofun
        have hgone : NoVolume c₁ id := by
          intro v hv hid
          obtain ⟨-, htype⟩ := hkept.made_eq hv (hid ▸ hmade₁)
          exact hnone v hv hid (by rw [htype])
        exact ok fun c₃ hkept₃ hev₃ => hgone.evolves hkept hkept₃ (hev₂.trans hev₃) hmade₁
      · exact error _
    | ok state =>
      dsimp only
      split
      · exact error _
      · exact ih (hev₂.madeVolumes hmade₁)

theorem deleteVolume_safe {server} {sv : ServerVolume}
    (hmade : (sv.id, server, sv.volumeType) ∈ c.madeVolumes) :
    Safe (custodian p) (Returns fun _ c => NoVolume c sv.id) (p.deleteVolume sv) c := by
  unfold deleteVolume
  generalize hn : p.settlePolls + 1 = left
  generalize "" = last
  clear hn
  induction left generalizing c last with
  | zero => exact error _
  | succ left ih =>
    refine call fun c₁ hkept hev => ⟨trivial, ?_⟩
    rintro c₂ reply - hkept₂ hev₂
    have hmade₂ := hev₂.madeVolumes (hev.madeVolumes hmade)
    cases reply with
    | transport e => exact error _
    | garbled | ok => exact waitUntilVolumeGone_safe hmade₂ _
    | http status body =>
      dsimp only
      split
      · exact waitUntilVolumeGone_safe hmade₂ _
      · split
        · exact ih hmade₂ _
        · exact error _

theorem deleteEach_safe {volumes}
    (hmade : ∀ sv ∈ volumes, ∃ server, (sv.id, server, sv.volumeType) ∈ c.madeVolumes) (leaked : List String) :
    Safe (custodian p) (fun out c => out = [] → leaked = [] ∧ ∀ sv ∈ volumes, NoVolume c sv.id)
      (p.deleteEach volumes leaked) c := by
  induction volumes generalizing c leaked with
  | nil => exact ret fun _ _ _ h => ⟨h, nofun⟩
  | cons sv volumes ih =>
    obtain ⟨server, hsv⟩ := hmade sv mem_cons_self
    refine (deleteVolume_safe hsv).bind ?_
    intro r c₁ hkept₁ hev₁ hr
    have hrest : ∀ w ∈ volumes, ∃ server, (w.id, server, w.volumeType) ∈ c₁.madeVolumes := by
      intro w hw
      obtain ⟨server', hw'⟩ := hmade w (mem_cons_of_mem _ hw)
      exact ⟨server', hev₁.madeVolumes hw'⟩
    cases r with
    | ok a =>
      refine (ih hrest leaked).weaken ?_
      intro out c₂ hkept₂ hev₂ hout hnil
      obtain ⟨hleaked, hgone⟩ := hout hnil
      refine ⟨hleaked, ?_⟩
      intro w hw
      rcases mem_cons.mp hw with rfl | hw
      · exact (hr a rfl).evolves hkept₁ hkept₂ hev₂ (hev₁.madeVolumes hsv)
      · exact hgone w hw
    | error why =>
      refine (ih hrest _).weaken ?_
      intro out c₂ _ _ hout hnil
      obtain ⟨hleaked, -⟩ := hout hnil
      simp at hleaked

theorem deleteVolumes_safe {providerId verb volumes}
    (hmade : ∀ sv ∈ volumes, ∃ server, (sv.id, server, sv.volumeType) ∈ c.madeVolumes) :
    Safe (custodian p) (Returns fun _ c => ∀ sv ∈ volumes, NoVolume c sv.id)
      (p.deleteVolumes providerId verb volumes) c := by
  refine (deleteEach_safe hmade []).bind ?_
  intro leaked c₁ hkept₁ hev₁ hleaked
  split
  · rename_i hnil
    have hgone := (hleaked (List.isEmpty_iff.mp hnil)).2
    refine ok fun c₂ hkept₂ hev₂ sv hsv => ?_
    obtain ⟨server, hsvmade⟩ := hmade sv hsv
    exact (hgone sv hsv).evolves hkept₁ hkept₂ hev₂ (hev₁.madeVolumes hsvmade)
  · exact error _

/-! ## Destroy -/

open ScalewayProvider in
theorem mem_addTagged {volumes tagged sv}
    (h : sv ∈ addTagged volumes (.ok tagged)) : sv ∈ volumes ∨ ∃ b ∈ tagged, sv = ⟨b.id, .sbsVolume⟩ := by
  unfold addTagged at h
  induction tagged generalizing volumes with
  | nil => exact .inl h
  | cons b tagged ih =>
    rcases ih h with hin | ⟨b', hb', rfl⟩
    · have hin : sv ∈ orInsertVolume volumes ⟨b.id, .sbsVolume⟩ := hin
      unfold orInsertVolume at hin
      split at hin
      · exact .inl hin
      · rcases mem_append.mp hin with hin | hin
        · exact .inl hin
        · exact .inr ⟨b, mem_cons_self, mem_singleton.mp hin⟩
    · exact .inr ⟨b', mem_cons_of_mem _ hb', rfl⟩

open ScalewayProvider in
theorem addTagged_id (volumes : List ServerVolume) {tagged id}
    (h : (∃ sv ∈ volumes, sv.id = id) ∨ ∃ b ∈ tagged, b.id = id) :
    ∃ sv ∈ addTagged volumes (.ok tagged), sv.id = id := by
  unfold addTagged
  induction tagged generalizing volumes with
  | nil =>
    rcases h with h | ⟨b, hb, -⟩
    · exact h
    · cases hb
  | cons b tagged ih =>
    apply ih
    have hkeep : ∀ sv ∈ volumes, sv ∈ orInsertVolume volumes ⟨b.id, .sbsVolume⟩ := by
      intro sv hsv
      unfold orInsertVolume
      split
      · exact hsv
      · exact mem_append_left _ hsv
    have hnew : ∃ sv ∈ orInsertVolume volumes ⟨b.id, .sbsVolume⟩, sv.id = b.id := by
      unfold orInsertVolume
      split
      · rename_i hany
        obtain ⟨w, hw, hid⟩ := any_eq_true.mp hany
        exact ⟨w, hw, beq_iff_eq.mp hid⟩
      · exact ⟨_, mem_append_right _ mem_cons_self, rfl⟩
    rcases h with ⟨sv, hsv, hid⟩ | ⟨b', hb', hid⟩
    · exact .inl ⟨sv, hkeep sv hsv, hid⟩
    · rcases mem_cons.mp hb' with rfl | hb'
      · exact .inl (hid ▸ hnew)
      · exact .inr ⟨b', hb', hid⟩

/-- The end of `destroy`: with the server gone, every volume made with it goes too. -/
theorem removeVolumes_safe {providerId} {polled : Polled} (hmade : uuid ∈ c.madeServers)
    (hgone : ¬ c.Exists uuid) (hseen : Seen c uuid polled.volumes) :
    Safe (custodian p) (Returns fun _ c => ∀ v ∈ c.volumes, v.server ≠ uuid)
      (p.removeVolumes providerId uuid polled) c := by
  refine (lookup_safe hmade hgone).bind ?_
  intro lookup c₁ hkept₁ hev₁ hlookup
  have hmadeSeen : ∀ sv ∈ polled.volumes, ∃ server, (sv.id, server, sv.volumeType) ∈ c₁.madeVolumes :=
    fun sv hsv => ⟨uuid, hev₁.madeVolumes (hseen sv hsv)⟩
  cases lookup with
  | error e =>
    refine (deleteVolumes_safe fun sv hsv => hmadeSeen sv (mem_filter.mp hsv).1).andThen ?_
    intro _ c₂ _ _ _
    exact error _
  | ok tagged =>
    obtain ⟨hmadeTagged, hfound⟩ := hlookup tagged rfl
    have hmadeAll : ∀ sv ∈ addTagged polled.volumes (.ok tagged),
        ∃ server, (sv.id, server, sv.volumeType) ∈ c₁.madeVolumes := by
      intro sv hsv
      rcases mem_addTagged hsv with hsv | ⟨b, hb, rfl⟩
      · exact hmadeSeen sv hsv
      · exact hmadeTagged b hb
    refine (deleteVolumes_safe fun sv hsv => hmadeAll sv (mem_filter.mp hsv).1).andThen ?_
    intro _ c₂ hkept₂ hev₂ hdeleted
    have hmade₂ := (hev₁.trans hev₂).madeServers hmade
    have hclean : ∀ v ∈ c₂.volumes, v.server ≠ uuid := by
      intro v₂ hv₂ hserver₂
      obtain ⟨v, hv, hsame⟩ := hev₂.volumes v₂ hv₂ (hserver₂ ▸ hev₁.madeServers hmade)
      have hserver := hsame.server.trans hserver₂
      obtain ⟨b, hb, hbid⟩ := hfound v hv hserver
      obtain ⟨sv, hsv, hid⟩ := addTagged_id polled.volumes (.inr ⟨b, hb, hbid⟩)
      obtain ⟨server, hsvmade⟩ := hmadeAll sv hsv
      -- What outlives its server is a block volume, so no terminate has deleted it.
      have hblock := (hkept₁.custody v hv (hserver ▸ not_exists_evolves hgone hmade hev₁)).1
      obtain ⟨-, htype⟩ := hkept₁.made_eq hv (hid ▸ hsvmade)
      refine hdeleted sv (mem_filter.mpr ⟨hsv, ?_⟩) v₂ hv₂ (hsame.id.symm.trans hid.symm)
      unfold ServerVolume.deletedByTerminate
      rw [← htype, hblock]
      simp
    refine ok fun c₃ _ hev₃ v hv hserver => ?_
    obtain ⟨v₂, hv₂, hsame⟩ := hev₃.volumes v hv (hserver ▸ hmade₂)
    exact hclean v₂ hv₂ (hsame.server.trans hserver)

/-- The server of a zoned id and every volume made with it are gone. -/
def Destroyed (p : ScalewayProvider) (c : Cloud) (providerId : String) : Prop :=
  ∀ uuid, p.localUuid providerId = .ok uuid → ¬ c.Exists uuid ∧ ∀ v ∈ c.volumes, v.server ≠ uuid

/-- The call is for an id that was handed out. -/
def Issued (p : ScalewayProvider) (c : Cloud) (providerId : String) : Prop :=
  ∀ uuid, p.localUuid providerId = .ok uuid → uuid ∈ c.madeServers

theorem destroy_safe {providerId} (hissued : Issued p c providerId) :
    Safe (custodian p) (Returns fun _ c => Destroyed p c providerId) (p.destroy providerId) c := by
  unfold destroy
  split
  · exact error _
  · rename_i uuid huuid
    have hmade := hissued uuid huuid
    refine (destroyLoop_safe (p.settlePolls + 1) hmade (by intro sv hsv; cases hsv)).andThen ?_
    intro polled c₁ _ hev₁ ⟨hseen, hgone⟩
    split
    · rename_i hpolled
      have hmade₁ := hev₁.madeServers hmade
      refine (removeVolumes_safe hmade₁ (hgone hpolled) hseen).weaken ?_
      intro r c₂ _ hev₂ hr a ha uuid' huuid'
      rw [huuid] at huuid'
      cases huuid'
      exact ⟨not_exists_evolves (hgone hpolled) hmade₁ hev₂, hr a ha⟩
    · exact error _

end

end MatrixMedia.Scaleway

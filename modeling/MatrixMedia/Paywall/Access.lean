import MatrixMedia.Paywall.Gates

/-!
# The terms of a stream

A stream is in a room, has a host and perhaps a `min_tier_level`, and its recordings inherit all three.
`terms_for_ever`: no call of any handler, whatever it overlaps with, changes them.
-/

namespace MatrixMedia.Paywall

open Lib Lib.Chrono Lib.Interaction Api List Option

open Std (TreeMap)

open Streams (Stream)

variable {cfg : ContentConfig} {s s' : ContentState}

/-! ## What recordings inherit -/

/-- Streams are in rooms, and a recording has the terms of its stream. -/
structure Inherits (s : ContentState) : Prop where
  rooms : ∀ (id : String) (row : Stream), s.streams[id]? = some row → (s.rooms[row.roomId]?).isSome
  recordings : ∀ (id : String) (r : Recording), s.recordings[id]? = some r →
    (s.streams[r.streamId]?).map streamTerms = some (r.roomId, r.hostUserId, r.minTierLevel)

/-- The terms of a stream are for ever. -/
def KeepsTerms (s s' : ContentState) : Prop :=
  ∀ (id : String) terms, (s.streams[id]?).map streamTerms = some terms → (s'.streams[id]?).map streamTerms = some terms

theorem ContentState.Effect.keepsTerms (heffect : s.Effect q fate s') : KeepsTerms s s' := by
  intro id terms hterms
  cases heffect with
  | @stream newId host room sfuRoom min fate fresh found =>
    rw [Table.getElem?_insert, if_neg]
    · exact hterms
    · rintro rfl
      rw [fresh] at hterms
      cases hterms
  | _ => exact hterms

theorem move_keepsTerms (s : ContentState) (m : ContentMove) : KeepsTerms s (s.move m) :=
  fun id _ hterms => (s.move_terms m id).trans hterms

/-- A recording row is on the terms of a stream that is there. -/
def OnTerms (s : ContentState) : ContentRequest → Prop
  | .insertRecording _ stream room host _ _ min => (s.streams[stream]?).map streamTerms = some (room, host, min)
  | _ => True

/-- The rows of recordings change, but not what they inherited. -/
theorem Inherits.modify (h : Inherits s) (id : String) (f : Recording → Recording)
    (hf : ∀ r, (f r).streamId = r.streamId ∧ (f r).roomId = r.roomId ∧ (f r).hostUserId = r.hostUserId ∧
      (f r).minTierLevel = r.minTierLevel) : Inherits { s with recordings := s.recordings.modify id f } := by
  refine ⟨h.rooms, fun id' r hr => ?_⟩
  rw [Table.getElem?_modify] at hr
  split at hr
  · obtain ⟨old, hold, rfl⟩ := map_eq_some_iff.mp hr
    obtain ⟨hstream, hroom, hhost, hmin⟩ := hf old
    rw [hstream, hroom, hhost, hmin]
    exact h.recordings id' old hold
  · exact h.recordings id' r hr

theorem Inherits.effect (h : Inherits s) {q} (hq : OnTerms s q) (heffect : s.Effect q fate s') : Inherits s' := by
  have hterms := heffect.keepsTerms
  have hkept : ∀ (id : String) (r : Recording), s.recordings[id]? = some r →
      (s'.streams[r.streamId]?).map streamTerms = some (r.roomId, r.hostUserId, r.minTierLevel) :=
    fun id r hr => hterms _ _ (h.recordings id r hr)
  cases heffect with
  | none | gate kept set | unstored why | ungate | participant => exact ⟨h.rooms, h.recordings⟩
  | room row => exact ⟨fun id stream hstream => Table.isSome_insert _ _ (h.rooms id stream hstream), h.recordings⟩
  | stream fresh found =>
    refine ⟨fun id row hrow => ?_, hkept⟩
    rw [Table.getElem?_insert] at hrow
    split at hrow
    · cases hrow
      exact found
    · exact h.rooms id row hrow
  | resumed => exact h.modify _ _ fun r => ⟨rfl, rfl, rfl, rfl⟩
  | recording fresh =>
    refine ⟨h.rooms, fun id r hr => ?_⟩
    rw [Table.getElem?_insert] at hr
    split at hr
    · cases hr
      exact hq
    · exact h.recordings id r hr

theorem Inherits.move (h : Inherits s) (m : ContentMove) : Inherits (s.move m) := by
  cases m with
  | endStream id =>
    refine ⟨fun id' row hrow => ?_, fun id' r hr => move_keepsTerms s (.endStream id) _ _ (h.recordings id' r hr)⟩
    have hterms := s.move_terms (.endStream id) id'
    rw [hrow, map_some] at hterms
    obtain ⟨old, hold, hsame⟩ := map_eq_some_iff.mp hterms.symm
    have hroom : old.roomId = row.roomId := congrArg Prod.fst hsame
    exact hroom ▸ h.rooms id' old hold
  | updateRecording id status mxc cdn mp4 hidden => exact h.modify _ _ fun r => ⟨rfl, rfl, rfl, rfl⟩
  | _ => exact ⟨h.rooms, h.recordings⟩

def inheriting : Discipline contentService where
  inv := Inherits
  rely := KeepsTerms
  allowed := OnTerms
  admits := fun _ _ _ => True
  moves := fun _ _ => True
  rely_refl := fun _ _ _ hterms => hterms
  rely_trans := fun h₁ h₂ id terms hterms => h₂ id terms (h₁ id terms hterms)
  request_keeps := fun {s q fate} h hq _ => ⟨h.effect hq (s.request_effect q fate), (s.request_effect q fate).keepsTerms⟩
  move_keeps := fun {s m} h _ => ⟨h.move m, move_keepsTerms s m⟩

theorem onTerms_of_plain {q : ContentRequest} (h : q.Plain) : OnTerms s q := by
  cases q <;> trivial

/-! ## The writers -/

theorem startRecording_safe {user id egressId : String} : Safe inheriting (fun _ _ => True) (startRecording cfg user id egressId) s := by
  refine Safe.call fun s₁ _ _ => ⟨trivial, fun s₂ r hanswer _ _ => ?_⟩
  cases r with
  | error e => exact Safe.ret fun _ _ _ => trivial
  | ok stream =>
    cases stream with
    | none => exact Safe.ret fun _ _ _ => trivial
    | some stream =>
      have hterms : (s₂.streams[id]?).map streamTerms = some (streamTerms stream) := by
        obtain ⟨fate, -, hrequest⟩ := hanswer
        cases fate with
        | served =>
          obtain ⟨rfl, hreply⟩ := Prod.ext_iff.mp hrequest
          have hrow : s₁.streams[id]? = some stream := Except.ok.inj hreply
          exact congrArg (Option.map streamTerms) hrow
        | failed | unconfirmed => cases hrequest
      simp only [orDatabase, orError]
      split
      · exact Safe.ret fun _ _ _ => trivial
      split
      · exact Safe.ret fun _ _ _ => trivial
      -- what was read of the stream is what it still says when the row is inserted
      have huses : (recordAs cfg id egressId stream).Uses fun q => ∀ s,
          (s.streams[id]?).map streamTerms = some (streamTerms stream) → OnTerms s q :=
        recordAs_uses (fun q hq s _ => onTerms_of_plain hq) (fun _ _ _ _ h => h) fun _ _ _ _ _ => trivial
      have hsafe : Safe inheriting (fun _ s => (s.streams[id]?).map streamTerms = some (streamTerms stream))
          (recordAs cfg id egressId stream) s₂ :=
        Safe.of_uses_stable (fun _ _ h hrely => hrely id _ h) (fun s q hA hq => hq s hA) huses hterms
      exact hsafe.weaken fun _ _ _ _ _ => trivial

theorem program_safe (k : ContentJob) (s : ContentState) : Safe inheriting (fun _ _ => True) (k.program cfg) s := by
  have hother : ∀ k : ContentJob, (∀ q s, k.May q → OnTerms s q) → ∀ s, Safe inheriting (fun _ _ => True) (k.program cfg) s :=
    fun k hmay s => Safe.of_uses (fun s q hq => hmay q s hq) (program_may k)
  cases k with
  | createStream n user body newId sfuName =>
    refine hother _ (fun q s hq => ?_) s
    rcases hq with hq | ⟨_, _, rfl⟩ | ⟨_, _, rfl⟩
    · exact onTerms_of_plain hq
    · trivial
    · trivial
  | startRecording n user id egressId =>
    exact startRecording_safe.bind fun r _ _ _ _ => Safe.ret fun _ _ _ => trivial
  | createGate n user req =>
    refine hother _ (fun q s hq => ?_) s
    obtain ⟨level, preview, rfl⟩ := hq
    trivial
  | deleteGate n user contentType contentId =>
    refine hother _ (fun q s hq => ?_) s
    cases hq
    trivial
  | joinStream | proxyViewerOffer | getRecording | listRoomRecordings =>
    refine hother _ (fun q s hq => ?_) s
    exact onTerms_of_plain hq

/-! ## Whole runs -/

theorem step_keepsTerms {pool : ContentPool} (e : ContentEvent) : KeepsTerms pool.state (contentStep cfg pool e).state := by
  unfold contentStep
  rcases poolStep_state contentService (ContentJob.program cfg) pool e with hsame | ⟨q, fate, hrequest⟩ | ⟨m, hmove⟩
  · rw [hsame]
    exact fun _ _ hterms => hterms
  · rw [hrequest]
    exact (ContentState.request_effect _ q fate).keepsTerms
  · rw [hmove]
    exact move_keepsTerms _ m

theorem poolOk_inheriting (pool : ContentPool) (e : ContentEvent) : PoolOk inheriting (fun _ _ => True) pool e := by
  cases e with
  | request place fate => exact fun _ _ => trivial
  | _ => trivial

theorem sound_inheriting {now tables h} {pool : ContentPool}
    (run : Run (contentStep cfg) (fun _ _ _ => True) (.start now tables) h pool) : pool.Sound inheriting fun _ _ _ => True := by
  refine Pool.sound_of_run (fun k s _ _ => program_safe k s) ?_ (run.mono fun _ pool e _ => poolOk_inheriting pool e)
  exact ⟨fun _ _ hrow => by simp at hrow, fun _ _ hr => by simp at hr⟩

/-- **Terms are for ever**: whatever happens, overlaps, fails or dies, each stream is in a room that exists and each recording
has the room, host and level of its stream; and from any point on no stream gets others. -/
theorem terms_for_ever (cfg : ContentConfig) (now : DateTime) (tables : Tables) (events : List ContentEvent) :
    Inherits (events.foldl (contentStep cfg) (.start now tables)).state ∧
    ∀ pool : ContentPool, KeepsTerms pool.state (events.foldl (contentStep cfg) pool).state := by
  refine ⟨(sound_inheriting (Run.free events)).inv, ?_⟩
  induction events with
  | nil => exact fun _ _ _ hterms => hterms
  | cons e events ih => exact fun pool id terms hterms => ih _ id terms (step_keepsTerms e id terms hterms)

end MatrixMedia.Paywall

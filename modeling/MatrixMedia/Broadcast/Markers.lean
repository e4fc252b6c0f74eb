import MatrixMedia.Broadcast.Calls

/-!
# The newest marker of an ended stream

A resume reads the status, bumps `marker_generation` and publishes an active marker; an end
moves the row, bumps and publishes the terminal one. Neither bump nor publish looks at the
status again. `newest_marker_terminal` needs that no resume is in flight when the row is moved;
`resumed_after_end` is a run where one is.
-/

namespace MatrixMedia.Broadcast

open Lib Lib.Interaction Api Multiset BroadcastState

open Streams (Stream StreamStatus RecordingRelease)

namespace BroadcastState

/-- The markers of a stream, newest first. -/
def markersOf (s : BroadcastState) (id : String) : List Marker := s.markers.filter fun m => m.streamId = id

end BroadcastState

/-! ## Stages of a resume and of an end -/

/-- The request neither touches streams nor their markers. -/
def MarkerFree : BroadcastRequest → Prop
  | .bumpMarkerGeneration _ | .publishMarker _ | .endStreamIfActive _ | .content (.insertStream ..) => False
  | _ => True

inductive Marking where
  /-- It has nothing to do with markers any more. -/
  | idle
  | reading
  /-- A resume that saw the stream active. -/
  | live
  /-- An end before its transition, with the room of the stream. -/
  | ending (room : Int)
  /-- An end that moved the row. -/
  | moved (room : Int)
  | located
  /-- It has bumped the generation to this one. -/
  | pending (status : StreamStatus) (generation : Nat)

namespace Marking

def isLive : Marking → Bool
  | .live | .pending .active _ => true
  | _ => false

def isClosing : Marking → Bool
  | .moved _ | .located | .pending .ended _ => true
  | _ => false

def room : Marking → Option Int
  | .ending room | .moved room => some room
  | _ => none

def generation : Marking → Option Nat
  | .pending _ g => some g
  | _ => none

end Marking

section

variable {α : Type} (id : String)

/-- The program publishes this marker next, and then none. -/
def AtPublish (status : StreamStatus) (generation : Nat) (p : Action α) : Prop :=
  ∃ room reason next, p = .call (.publishMarker ⟨room, id, status, generation, reason⟩) next ∧ (next (.ok ())).Uses MarkerFree

/-- The program bumps the generation next, and publishes with it. -/
def AtBump (status : StreamStatus) (p : Action α) : Prop :=
  ∃ next, p = .call (.bumpMarkerGeneration id) next ∧ ∀ g, (next (.ok g)).Leads MarkerFree (AtPublish id status (max g 1).toNat)

/-- A resume after its read. -/
def ResumeTail (p : Action α) : Prop := p.Leads MarkerFree fun p => AtBump id .active p ∨ p.Uses MarkerFree

/-- An end that moved the row reads the room next. -/
def AtRoomRead (room : Int) (p : Action α) : Prop :=
  ∃ next, p = .call (.content (.getRoom room)) next ∧ ∀ r, AtBump id .ended (next (.ok (some r)))

/-- An end after its read. -/
def EndTail (room : Int) (p : Action α) : Prop :=
  p.Leads MarkerFree fun p => ∃ next, p = .call (.endStreamIfActive id) next ∧ AtRoomRead id room (next (.ok true)) ∧
    (next (.ok false)).Uses MarkerFree

/-- A resume or an end with the row that it read. -/
def AfterRead (k : BroadcastJob) (row : StreamRow) (p : Action α) : Prop :=
  p.Uses MarkerFree ∨ (k.resumes = some id ∧ row.stream.status = .active ∧ ResumeTail id p) ∨ EndTail id row.stream.roomId p

/-- Where a resume or an end stands. -/
def Marking.Stands (k : BroadcastJob) (p : Action α) : Marking → Prop
  | .idle => p.Uses MarkerFree
  | .reading => p.Leads MarkerFree fun p => p.Uses MarkerFree ∨ ∃ next, p = .call (.getStream id) next ∧
      ∀ row, AfterRead id k row (next (.ok (some row)))
  | .live => k.resumes = some id ∧ ResumeTail id p
  | .ending room => EndTail id room p
  | .moved room => AtRoomRead id room p
  | .located => AtBump id .ended p
  | .pending status g => (status = .active → k.resumes = some id) ∧ p.Leads MarkerFree (AtPublish id status g)

end

/-- A program that returns has no terminal marker left to write. -/
theorem Marking.Stands.not_closing {α : Type} {id k a} {t : Marking}
    (h : t.Stands id k (.ret a : Action α)) : t.isClosing = false := by
  cases t with
  | idle | reading | live | ending room => rfl
  | moved | located =>
    obtain ⟨next, heq, -⟩ := h
    cases heq
  | pending status g =>
    cases status with
    | active => rfl
    | ended =>
      cases h.2 with
      | here hat =>
        obtain ⟨room, reason, next, heq, -⟩ := hat
        cases heq

/-! ## What the stages mean for the tables -/

/-- The row, its room and its markers. -/
structure MarkersOk (id : String) (s : BroadcastState) : Prop where
  row : ∃ x, s.content.streams[id]? = some x ∧ (s.content.rooms[x.roomId]?).isSome
  positive : 1 ≤ s.generation id
  bounded : ∀ m ∈ s.markersOf id, (m.generation : Int) ≤ s.generation id
  terminal : ∀ m ∈ s.markersOf id, m.status = .ended → s.status id = some .ended
  newest : ∀ m ∈ s.markersOf id, m.status = .ended → s.markers.head? = some m ∧
    ∃ older, s.markersOf id = m :: older ∧ ∀ m' ∈ older, m'.generation < m.generation

/-- One stage. -/
structure StageOk (id : String) (s : BroadcastState) (t : Marking) : Prop where
  live : t.isLive = true → s.status id = some .active
  closing : t.isClosing = true → s.status id = some .ended
  room : ∀ room ∈ t.room, (s.content.rooms[room]?).isSome
  bounded : ∀ g ∈ t.generation, (g : Int) ≤ s.generation id
  newest : ∀ g, t = .pending .ended g → ∀ m ∈ s.markersOf id, m.generation < g

/-- The generations that were published and those that are about to be. -/
def generations (id : String) (s : BroadcastState) (notes : Multiset (BroadcastJob × Marking)) : Multiset Nat :=
  ofList ((s.markersOf id).map Marker.generation) + notes.filterMap fun n => n.2.generation

/-- The terminal markers that were published and those that are about to be. -/
def terminals (id : String) (s : BroadcastState) (notes : Multiset (BroadcastJob × Marking)) : Nat :=
  ((s.markersOf id).filter fun m => m.status = .ended).length + notes.countP fun n => n.2.isClosing = true

structure MarkersInv (id : String) (s : BroadcastState) (notes : Multiset (BroadcastJob × Marking)) : Prop where
  ok : MarkersOk id s
  stages : ∀ n ∈ notes, StageOk id s n.2
  resumes : ∀ n ∈ notes, n.2.isLive = true → n.1.resumes = some id
  distinct : (generations id s notes).Nodup
  one : s.status id = some .ended → terminals id s notes = 1

/-! ## What keeps it -/

/-- Streams and markers are as they were, and no room is lost. -/
structure SameMarkers (s s' : BroadcastState) : Prop where
  streams : s'.content.streams = s.content.streams
  generations : s'.generations = s.generations
  markers : s'.markers = s.markers
  rooms : ∀ room : Int, (s.content.rooms[room]?).isSome → (s'.content.rooms[room]?).isSome

theorem sameMarkers_of_free {s s' : BroadcastState} {q} (heffect : s.Effect q s') (hq : MarkerFree q) :
    SameMarkers s s' := by
  have hrooms : ∀ room : Int, (s.content.rooms[room]?).isSome → (s'.content.rooms[room]?).isSome := by
    intro room hroom
    rcases heffect.rooms with ⟨heq, -⟩ | ⟨row, heq, -⟩
    · rwa [heq]
    · rw [heq]
      exact Table.isSome_insert _ _ hroom
  cases heffect with
  | content effect =>
    cases effect with
    | stream fresh found => exact hq.elim
    | _ => exact ⟨rfl, rfl, rfl, hrooms⟩
  | key =>
    revert hrooms
    unfold setStreamKey
    split <;> exact fun hrooms => ⟨rfl, rfl, rfl, hrooms⟩
  | bumped | marker | ended => exact hq.elim
  | _ => exact ⟨rfl, rfl, rfl, hrooms⟩

section

variable {α : Type} {id : String} {s s' : BroadcastState} {notes : Multiset (BroadcastJob × Marking)} {k : BroadcastJob} {t t' : Marking}

theorem SameMarkers.status (hs : SameMarkers s s') : s'.status id = s.status id := by
  unfold BroadcastState.status
  rw [hs.streams]

theorem SameMarkers.generation (hs : SameMarkers s s') : s'.generation id = s.generation id := by
  unfold BroadcastState.generation
  rw [hs.generations]

theorem SameMarkers.markersOf (hs : SameMarkers s s') : s'.markersOf id = s.markersOf id := by
  unfold BroadcastState.markersOf
  rw [hs.markers]

theorem MarkersInv.same (h : MarkersInv id s notes) (hs : SameMarkers s s') : MarkersInv id s' notes := by
  obtain ⟨x, hx, hroom⟩ := h.ok.row
  refine ⟨⟨⟨x, hs.streams ▸ hx, hs.rooms _ hroom⟩, ?_, ?_, ?_, ?_⟩, fun n hn => ?_, h.resumes, ?_, ?_⟩
  · rw [hs.generation]
    exact h.ok.positive
  · rw [hs.markersOf, hs.generation]
    exact h.ok.bounded
  · rw [hs.markersOf, hs.status]
    exact h.ok.terminal
  · rw [hs.markersOf, hs.markers]
    exact h.ok.newest
  · have hstage := h.stages n hn
    refine ⟨?_, ?_, fun room hroom => hs.rooms room (hstage.room room hroom), ?_, ?_⟩
    · rw [hs.status]
      exact hstage.live
    · rw [hs.status]
      exact hstage.closing
    · rw [hs.generation]
      exact hstage.bounded
    · rw [hs.markersOf]
      exact hstage.newest
  · unfold Broadcast.generations
    rw [hs.markersOf]
    exact h.distinct
  · unfold terminals
    rw [hs.markersOf, hs.status]
    exact h.one

theorem sameMarkers_move (s : BroadcastState) (m : BroadcastMove) : SameMarkers s (s.move m) := by
  cases m <;> exact ⟨rfl, rfl, rfl, fun _ h => h⟩

/-- A stage before its generation is known. -/
theorem StageOk.early (hgeneration : t.generation = none) (hlive : t.isLive = true → s.status id = some .active)
    (hclosing : t.isClosing = true → s.status id = some .ended) (hroom : ∀ room ∈ t.room, (s.content.rooms[room]?).isSome) :
    StageOk id s t := by
  refine ⟨hlive, hclosing, hroom, fun g hg => ?_, fun g heq => ?_⟩
  · cases hgeneration.symm.trans hg
  · rw [heq] at hgeneration
    cases hgeneration

theorem StageOk.idle : StageOk id s .idle := .early rfl nofun nofun nofun

section
variable (h : MarkersInv id s ((k, t) ::ₘ notes))
include h

/-- One program goes on to another stage with the same claim on generations and markers. -/
theorem MarkersInv.restage (hstage : StageOk id s t')
    (hresumes : t'.isLive = true → k.resumes = some id) (hgeneration : t'.generation = t.generation)
    (hclosing : t'.isClosing = t.isClosing) : MarkersInv id s ((k, t') ::ₘ notes) := by
  obtain ⟨-, hothers⟩ := forall_mem_cons.mp h.stages
  obtain ⟨-, hlive⟩ := forall_mem_cons.mp h.resumes
  refine ⟨h.ok, forall_mem_cons.mpr ⟨hstage, hothers⟩, forall_mem_cons.mpr ⟨hresumes, hlive⟩, ?_, fun hended => ?_⟩
  · have hdistinct := h.distinct
    unfold generations at hdistinct ⊢
    rw [filterMap_cons] at hdistinct ⊢
    rwa [hgeneration]
  · have hone := h.one hended
    unfold terminals at hone ⊢
    rw [countP_cons] at hone ⊢
    rwa [hclosing]

/-- The generation is bumped, by a program that goes on to publish it. -/
theorem MarkersInv.bump {status}
    (ht : (t = .live ∧ status = .active) ∨ (t = .located ∧ status = .ended)) :
    MarkersInv id { s with generations := s.generations.insert id (s.generation id + 1) }
      ((k, .pending status (max (s.generation id + 1) 1).toNat) ::ₘ notes) := by
  have hpositive := h.ok.positive
  have hgeneration : generation { s with generations := s.generations.insert id (s.generation id + 1) } id =
      s.generation id + 1 := by
    unfold generation
    rw [Table.getElem?_insert, if_pos rfl]
    rfl
  have hnew : ((max (s.generation id + 1) 1).toNat : Int) = s.generation id + 1 := by omega
  obtain ⟨hown, hothers⟩ := forall_mem_cons.mp h.stages
  have hbelow : ∀ g ∈ generations id s ((k, t) ::ₘ notes), (g : Int) ≤ s.generation id := by
    intro g hg
    rcases mem_add.mp hg with hg | hg
    · obtain ⟨m, hm, rfl⟩ := List.mem_map.mp (mem_coe.mp hg)
      exact h.ok.bounded m hm
    · obtain ⟨n, hn, hgen⟩ := (mem_filterMap _ _).mp hg
      exact (h.stages n hn).bounded g hgen
  have hnone : t.generation = none := by
    rcases ht with ⟨rfl, -⟩ | ⟨rfl, -⟩ <;> rfl
  have hclosing : (Marking.pending status (max (s.generation id + 1) 1).toNat).isClosing = t.isClosing := by
    rcases ht with ⟨rfl, rfl⟩ | ⟨rfl, rfl⟩ <;> rfl
  have hlive : (Marking.pending status (max (s.generation id + 1) 1).toNat).isLive = true → t.isLive = true := by
    rcases ht with ⟨rfl, rfl⟩ | ⟨rfl, rfl⟩
    · exact fun _ => rfl
    · exact fun hl => Bool.noConfusion hl
  obtain ⟨hresumes, hothersLive⟩ := forall_mem_cons.mp h.resumes
  refine ⟨⟨h.ok.row, by rw [hgeneration]; omega, fun m hm => ?_, h.ok.terminal, h.ok.newest⟩,
    forall_mem_cons.mpr ⟨⟨fun hl => hown.live (hlive hl), fun hc => hown.closing (hclosing ▸ hc), fun _ hroom => (by cases hroom),
      fun g hg => ?_, fun g heq m hm => ?_⟩, fun n hn => ?_⟩,
    forall_mem_cons.mpr ⟨fun hl => hresumes (hlive hl), hothersLive⟩, ?_, fun hended => ?_⟩
  · rw [hgeneration]
    exact Int.le_add_one (h.ok.bounded m hm)
  · cases hg
    rw [hgeneration]
    omega
  · cases heq
    have := h.ok.bounded m hm
    omega
  · have hstage := hothers n hn
    refine ⟨hstage.live, hstage.closing, hstage.room, fun g hg => ?_, hstage.newest⟩
    rw [hgeneration]
    exact Int.le_add_one (hstage.bounded g hg)
  · have hdistinct := h.distinct
    unfold generations at hdistinct hbelow ⊢
    rw [filterMap_cons_none (f := fun n : BroadcastJob × Marking => n.2.generation) _ _ hnone] at hdistinct hbelow
    rw [filterMap_cons_some (fun n : BroadcastJob × Marking => n.2.generation) _ _ rfl, add_cons, nodup_cons]
    refine ⟨fun hmem => ?_, hdistinct⟩
    have := hbelow _ hmem
    omega
  · have hone := h.one hended
    unfold terminals at hone ⊢
    rw [countP_cons] at hone ⊢
    rwa [hclosing]

/-- A handler that returns has nothing more to publish. -/
theorem MarkersInv.leave {a} (hstands : t.Stands id k (.ret a : Action α)) :
    MarkersInv id s notes := by
  obtain ⟨-, hstages⟩ := forall_mem_cons.mp h.stages
  obtain ⟨-, hresumes⟩ := forall_mem_cons.mp h.resumes
  refine ⟨h.ok, hstages, hresumes, ?_, fun hended => ?_⟩
  · refine nodup_of_le ?_ h.distinct
    exact Multiset.add_le_add_iff_left.mpr (Multiset.filterMap_le_filterMap _ (Multiset.le_cons_self _ _))
  · have hclosing : t.isClosing = false := hstands.not_closing
    have hone := h.one hended
    unfold terminals at hone ⊢
    rwa [countP_cons, if_neg (by simp [hclosing])] at hone

/-- Nothing more to do with markers. -/
theorem MarkersInv.idle (hgeneration : t.generation = none) (hclosing : t.isClosing = false) :
    MarkersInv id s ((k, .idle) ::ₘ notes) :=
  h.restage .idle nofun hgeneration.symm hclosing.symm

/-- The counter is bumped. -/
theorem MarkersInv.bumped {status : StreamStatus}
    (ht : (t = .live ∧ status = .active) ∨ (t = .located ∧ status = .ended)) (hk : status = .active → k.resumes = some id)
    {next : Except String Int → Action α} (hnext : ∀ g, (next (.ok g)).Leads MarkerFree (AtPublish id status (max g 1).toNat))
    (hroom : s.generation id < 2147483647) :
    ∃ t', t'.Stands id k (next (s.request (.bumpMarkerGeneration id) .served).2) ∧
      MarkersInv id (s.request (.bumpMarkerGeneration id) .served).1 ((k, t') ::ₘ notes) := by
  obtain ⟨x, hx, -⟩ := h.ok.row
  have hbump : s.bumpMarkerGeneration id =
      .ok ({ s with generations := s.generations.insert id (s.generation id + 1) }, s.generation id + 1) := by
    unfold bumpMarkerGeneration
    rw [hx, if_neg (by simp), if_neg (by omega)]
  have hrequest : s.request (.bumpMarkerGeneration id) .served =
      ({ s with generations := s.generations.insert id (s.generation id + 1) }, .ok (s.generation id + 1)) := by
    simp only [request, hbump]
    rfl
  rw [hrequest]
  exact ⟨.pending status _, ⟨hk, hnext _⟩, h.bump ht⟩

end

/-- The row is moved while no resume is in flight. -/
theorem MarkersInv.move {room} (h : MarkersInv id s ((k, .ending room) ::ₘ notes)) {x}
    (hx : s.content.streams[id]? = some x) (hactive : x.status = .active) (hapart : ∀ n ∈ notes, n.1.resumes ≠ some id) :
    MarkersInv id { s with content := { s.content with streams := s.content.streams.insert id { x with status := .ended } } }
      ((k, .moved room) ::ₘ notes) := by
  have hstatus : s.status id = some .active := hactive ▸ status_eq hx
  have hended := @status_ended s id x
  have hne : ∀ {P : Prop}, (P → s.status id = some .ended) → ¬P := by
    intro P hP p
    rw [hstatus] at hP
    cases hP p
  obtain ⟨hown, hothers⟩ := forall_mem_cons.mp h.stages
  obtain ⟨-, hresumes⟩ := forall_mem_cons.mp h.resumes
  have hopen : ∀ m ∈ s.markersOf id, m.status ≠ .ended := fun m hm => hne (h.ok.terminal m hm)
  refine ⟨⟨?_, h.ok.positive, h.ok.bounded, fun _ _ _ => hended, fun m hm ht => absurd ht (hopen m hm)⟩,
    forall_mem_cons.mpr ⟨.early rfl nofun (fun _ => hended) hown.room, fun n hn => ?_⟩,
    forall_mem_cons.mpr ⟨nofun, hresumes⟩, ?_, fun _ => ?_⟩
  · obtain ⟨x', hx', hroom⟩ := h.ok.row
    cases hx.symm.trans hx'
    exact ⟨{ x with status := .ended }, by rw [Table.getElem?_insert, if_pos rfl], hroom⟩
  · have hstage := hothers n hn
    exact ⟨fun hl => absurd (hresumes n hn hl) (hapart n hn), fun _ => hended, hstage.room, hstage.bounded, hstage.newest⟩
  · have hdistinct := h.distinct
    unfold generations at hdistinct ⊢
    rw [filterMap_cons] at hdistinct ⊢
    exact hdistinct
  · have hmarkers : (s.markersOf id).filter (fun m => m.status = .ended) = [] :=
      List.filter_eq_nil_iff.mpr fun m hm => by simpa using hopen m hm
    have hnotes : notes.countP (fun n => n.2.isClosing = true) = 0 := countP_eq_zero.mpr fun n hn => hne (hothers n hn).closing
    show ((s.markersOf id).filter _).length + countP _ _ = 1
    rw [hmarkers, countP_cons, hnotes]
    rfl

/-- The marker is published. -/
theorem MarkersInv.publish {m : Marker} (hm : m.streamId = id) (h : MarkersInv id s ((k, .pending m.status m.generation) ::ₘ notes)) :
    MarkersInv id { s with markers := m :: s.markers } ((k, .idle) ::ₘ notes) := by
  have hmarkers : markersOf { s with markers := m :: s.markers } id = m :: s.markersOf id := by
    unfold markersOf
    rw [List.filter_cons, if_pos (by simpa using hm)]
  obtain ⟨hown, hothers⟩ := forall_mem_cons.mp h.stages
  -- with a terminal marker under way the row is ended and there is no other; with an active one it is active
  have hcases : (m.status = .active ∧ s.status id = some .active ∧ ∀ m' ∈ s.markersOf id, m'.status ≠ .ended) ∨
      (m.status = .ended ∧ s.status id = some .ended ∧ (∀ m' ∈ s.markersOf id, m'.status ≠ .ended) ∧
        notes.countP (fun n => n.2.isClosing = true) = 0) := by
    cases hstatus : m.status with
    | active =>
      have hactive := hown.live (by rw [hstatus]; rfl)
      refine .inl ⟨rfl, hactive, fun m' hm' ht => ?_⟩
      cases hactive.symm.trans (h.ok.terminal m' hm' ht)
    | ended =>
      have hended := hown.closing (by rw [hstatus]; rfl)
      have hone := h.one hended
      unfold terminals at hone
      rw [countP_cons, if_pos (by rw [hstatus]; rfl)] at hone
      have hnone : (s.markersOf id).filter (fun m => m.status = .ended) = [] := List.length_eq_zero_iff.mp (by omega)
      exact .inr ⟨rfl, hended, fun m' hm' => by simpa using List.filter_eq_nil_iff.mp hnone m' hm', by omega⟩
  have hopen : ∀ m' ∈ s.markersOf id, m'.status ≠ .ended := by
    rcases hcases with ⟨-, -, h⟩ | ⟨-, -, h, -⟩ <;> exact h
  obtain ⟨-, hresumes⟩ := forall_mem_cons.mp h.resumes
  refine ⟨⟨h.ok.row, h.ok.positive, ?_, ?_, ?_⟩, forall_mem_cons.mpr ⟨.idle, fun n hn => ?_⟩,
    forall_mem_cons.mpr ⟨nofun, hresumes⟩, ?_, fun hended => ?_⟩
  · rw [hmarkers]
    exact List.forall_mem_cons.mpr ⟨hown.bounded _ rfl, h.ok.bounded⟩
  · rw [hmarkers]
    refine List.forall_mem_cons.mpr ⟨fun ht => hown.closing (by rw [ht]; rfl), fun m' hm' ht => absurd ht (hopen m' hm')⟩
  · rw [hmarkers]
    refine List.forall_mem_cons.mpr ⟨fun ht => ⟨rfl, _, rfl, hown.newest _ (by rw [ht])⟩, fun m' hm' ht => absurd ht (hopen m' hm')⟩
  · have hstage := hothers n hn
    refine ⟨hstage.live, hstage.closing, hstage.room, hstage.bounded, fun g heq => ?_⟩
    rw [hmarkers]
    refine List.forall_mem_cons.mpr ⟨?_, hstage.newest g heq⟩
    rcases hcases with ⟨-, hactive, -⟩ | ⟨-, -, -, hnone⟩
    · cases hactive.symm.trans (hstage.closing (by rw [heq]; rfl))
    · exact absurd (by rw [heq]; rfl) (countP_eq_zero.mp hnone n hn)
  · have hdistinct := h.distinct
    unfold generations at hdistinct ⊢
    rw [filterMap_cons_some (fun n : BroadcastJob × Marking => n.2.generation) _ _ rfl, add_cons] at hdistinct
    rw [hmarkers, List.map_cons, ← cons_coe, cons_add,
      filterMap_cons_none (f := fun n : BroadcastJob × Marking => n.2.generation) _ _ rfl]
    exact hdistinct
  · rcases hcases with ⟨-, hactive, -⟩ | ⟨ht, -, hnone, hzero⟩
    · cases hactive.symm.trans hended
    · unfold terminals
      rw [hmarkers, List.filter_cons, if_pos (by simpa using ht), List.filter_eq_nil_iff.mpr fun m' hm' => by simpa using hnone m' hm',
        countP_cons, hzero]
      rfl

/-- A handler starts. -/
theorem MarkersInv.join (h : MarkersInv id s notes) : MarkersInv id s ((k, .reading) ::ₘ notes) := by
  refine ⟨h.ok, forall_mem_cons.mpr ⟨.early rfl nofun nofun nofun, h.stages⟩, forall_mem_cons.mpr ⟨nofun, h.resumes⟩, ?_,
    fun hended => ?_⟩
  · unfold generations
    rw [filterMap_cons_none (f := fun n : BroadcastJob × Marking => n.2.generation) _ _ rfl]
    exact h.distinct
  · unfold terminals
    rw [countP_cons]
    exact h.one hended

/-- Nothing is in flight. -/
theorem MarkersInv.quiet (h : MarkersInv id s 0) (hended : s.status id = some .ended) :
    ∃ m older, s.markersOf id = m :: older ∧ s.markers.head? = some m ∧ m.status = .ended ∧
      ∀ m' ∈ older, m'.status = .active ∧ m'.generation < m.generation := by
  have hone := h.one hended
  unfold terminals at hone
  rw [countP_zero, Nat.add_zero] at hone
  obtain ⟨m, hm⟩ := List.length_eq_one_iff.mp hone
  have hmem : m ∈ (s.markersOf id).filter fun m => m.status = .ended := hm ▸ List.mem_singleton_self m
  have hterminal : m.status = .ended := by simpa using (List.mem_filter.mp hmem).2
  obtain ⟨hhead, older, heq, hbelow⟩ := h.ok.newest m (List.mem_of_mem_filter hmem) hterminal
  refine ⟨m, older, heq, hhead, hterminal, fun m' hm' => ⟨?_, hbelow m' hm'⟩⟩
  rw [heq, List.filter_cons, if_pos (by simpa using hterminal)] at hm
  have holder := List.filter_eq_nil_iff.mp (List.cons.inj hm).2 m' hm'
  cases hstatus : m'.status with
  | active => rfl
  | ended => simp [hstatus] at holder

/-- What has been read of the row. -/
theorem MarkersInv.read (h : MarkersInv id s ((k, .reading) ::ₘ notes)) {next : Except String (Option StreamRow) → Action α}
    (hafter : ∀ row, AfterRead id k row (next (.ok (some row)))) :
    ∃ t', t'.Stands id k (next (.ok (s.getStream id))) ∧ MarkersInv id s ((k, t') ::ₘ notes) := by
  obtain ⟨x, hx, hroom⟩ := h.ok.row
  have hrow : s.getStream id = some ⟨x, s.generation id, s.e2ee[id]?⟩ := by
    unfold getStream
    rw [hx]
    rfl
  rw [hrow]
  rcases hafter ⟨x, s.generation id, s.e2ee[id]?⟩ with huses | ⟨hk, hactive, htail⟩ | htail
  · exact ⟨.idle, huses, h.idle rfl rfl⟩
  · have hstatus : s.status id = some .active := hactive ▸ status_eq hx
    exact ⟨.live, ⟨hk, htail⟩, h.restage (.early rfl (fun _ => hstatus) nofun nofun) (fun _ => hk) rfl rfl⟩
  · refine ⟨.ending x.roomId, htail, h.restage (.early rfl nofun nofun fun room hr => ?_) nofun rfl rfl⟩
    cases hr
    exact hroom

/-- The transition moves an active row and leaves an ended one. -/
theorem MarkersInv.transition {room : Int} (h : MarkersInv id s ((k, .ending room) ::ₘ notes))
    {next : Except String Bool → Action α} (hmoved : AtRoomRead id room (next (.ok true))) (hkept : (next (.ok false)).Uses MarkerFree)
    (hapart : s.status id = some .active → ∀ n ∈ notes, n.1.resumes ≠ some id) :
    ∃ t', t'.Stands id k (next (s.request (.endStreamIfActive id) .served).2) ∧
      MarkersInv id (s.request (.endStreamIfActive id) .served).1 ((k, t') ::ₘ notes) := by
  obtain ⟨x, hx, -⟩ := h.ok.row
  rcases request_endStreamIfActive hx with ⟨hactive, hrequest⟩ | ⟨-, hrequest⟩
  · rw [hrequest]
    exact ⟨.moved room, hmoved, h.move hx hactive (hapart (hactive ▸ status_eq hx))⟩
  · rw [hrequest]
    exact ⟨.idle, hkept, h.idle rfl rfl⟩

/-- **One step of a resume or an end.** -/
theorem MarkersInv.request {q : BroadcastRequest} {next : q.Reply → Action α} (h : MarkersInv id s ((k, t) ::ₘ notes))
    (hstands : t.Stands id k (.call q next)) (hroom : q.bumps = some id → s.generation id < 2147483647)
    (hapart : q.ends = some id → s.status id = some .active → ∀ n ∈ notes, n.1.resumes ≠ some id) :
    ∃ t', t'.Stands id k (next (s.request q .served).2) ∧ MarkersInv id (s.request q .served).1 ((k, t') ::ₘ notes) := by
  have hsame : MarkerFree q → SameMarkers s (s.request q .served).1 := fun hq => sameMarkers_of_free (s.request_effect q .served) hq
  cases t with
  | idle => exact ⟨.idle, hstands.2 _, h.same (hsame hstands.1)⟩
  | reading =>
    cases hstands with
    | call hq hnext => exact ⟨.reading, hnext _, h.same (hsame hq)⟩
    | here hat =>
      rcases hat with huses | ⟨next', heq, hafter⟩
      · exact ⟨.idle, huses.2 _, (h.same (hsame huses.1)).idle rfl rfl⟩
      · cases heq
        exact h.read hafter
  | live =>
    obtain ⟨hk, htail⟩ := hstands
    cases htail with
    | call hq hnext => exact ⟨.live, ⟨hk, hnext _⟩, h.same (hsame hq)⟩
    | here hat =>
      rcases hat with ⟨next', heq, hnext⟩ | huses
      · cases heq
        exact h.bumped (.inl ⟨rfl, rfl⟩) (fun _ => hk) hnext (hroom rfl)
      · exact ⟨.idle, huses.2 _, (h.same (hsame huses.1)).idle rfl rfl⟩
  | ending room =>
    cases hstands with
    | call hq hnext => exact ⟨.ending room, hnext _, h.same (hsame hq)⟩
    | here hat =>
      obtain ⟨next', heq, hmoved, hkept⟩ := hat
      cases heq
      exact h.transition hmoved hkept (hapart rfl)
  | moved room =>
    obtain ⟨next', heq, hnext⟩ := hstands
    cases heq
    have hstage := h.stages _ (mem_cons_self _ _)
    obtain ⟨r, hr⟩ := Option.isSome_iff_exists.mp (hstage.room room rfl)
    have hrequest : s.request (.content (.getRoom room)) .served = (s, .ok (some r)) := by
      simp only [request, contentRequest, Paywall.ContentState.request, hr]
      rfl
    rw [hrequest]
    exact ⟨.located, hnext r, h.restage (.early rfl (fun hl => Bool.noConfusion hl) (fun _ => hstage.closing rfl)
      fun _ hr => (by cases hr)) (fun hl => Bool.noConfusion hl) rfl rfl⟩
  | located =>
    obtain ⟨next', heq, hnext⟩ := hstands
    cases heq
    exact h.bumped (.inr ⟨rfl, rfl⟩) (fun heq => StreamStatus.noConfusion heq) hnext (hroom rfl)
  | pending status g =>
    obtain ⟨hk, hleads⟩ := hstands
    cases hleads with
    | call hq hnext => exact ⟨.pending status g, ⟨hk, hnext _⟩, h.same (hsame hq)⟩
    | here hat =>
      obtain ⟨room, reason, next', heq, hnext⟩ := hat
      cases heq
      exact ⟨.idle, hnext, h.publish rfl⟩

end

/-! ## The programs -/

section

variable {α β : Type} {cfg : BroadcastConfig} {id user : String} {row : StreamRow} {release : RecordingRelease} {reason : Option String}

variable {p : Action α} {f : α → Action β}

theorem AtPublish.followed {status g} (h : AtPublish id status g p)
    (hf : ∀ a, (f a).Uses MarkerFree) : AtPublish id status g (p.bind f) := by
  obtain ⟨room, reason, next, rfl, huses⟩ := h
  exact ⟨room, reason, _, rfl, huses.bind hf⟩

theorem AtBump.followed {status} (h : AtBump id status p)
    (hf : ∀ a, (f a).Uses MarkerFree) : AtBump id status (p.bind f) := by
  obtain ⟨next, rfl, hleads⟩ := h
  exact ⟨_, rfl, fun g => (hleads g).followed fun _ hp => .here (hp.followed hf)⟩

theorem ResumeTail.followed (h : ResumeTail id p) (hf : ∀ a, (f a).Uses MarkerFree) :
    ResumeTail id (p.bind f) := by
  refine Prog.Leads.followed h fun p hp => .here ?_
  rcases hp with hbump | huses
  · exact .inl (hbump.followed hf)
  · exact .inr (huses.bind hf)

theorem AtRoomRead.followed {room} (h : AtRoomRead id room p)
    (hf : ∀ a, (f a).Uses MarkerFree) : AtRoomRead id room (p.bind f) := by
  obtain ⟨next, rfl, hbump⟩ := h
  exact ⟨_, rfl, fun r => (hbump r).followed hf⟩

theorem EndTail.followed {room} (h : EndTail id room p) (hf : ∀ a, (f a).Uses MarkerFree) :
    EndTail id room (p.bind f) := by
  refine Prog.Leads.followed h fun p hp => .here ?_
  obtain ⟨next, rfl, hmoved, hkept⟩ := hp
  exact ⟨_, rfl, hmoved.followed hf, hkept.bind hf⟩

/-! ### Resumes -/

theorem markResumed_tail {key} : ResumeTail id (markResumed id row key) := by
  refine .call trivial fun r => ?_
  cases r with
  | error e => exact .here (.inr trivial)
  | ok room =>
    cases room with
    | none => exact .here (.inr trivial)
    | some room =>
      exact .here (.inl ⟨_, rfl, fun g => .here ⟨room.matrixRoomId, none, _, rfl, trivial⟩⟩)

theorem currentKey_free : (currentKey id row).Uses MarkerFree := by
  unfold currentKey
  split
  · exact ⟨trivial, fun _ => uses_orError fun _ => trivial⟩
  · trivial

/-- A resume that saw the row active has its token and key to get before the marker. -/
theorem resumeStream_reads {n} : Marking.reading.Stands id (.resumeStream n user id) (respond .resumed (resumeStream user id)) := by
  refine .call trivial fun suspended => ?_
  dsimp only [Prog.bind]
  split
  · exact .here (.inl trivial)
  refine .here (.inr ⟨_, rfl, fun row => ?_⟩)
  dsimp only [orNotFound, orDatabase, orError]
  split
  · exact .inl trivial
  split
  · exact .inl trivial
  rename_i hactive
  split
  · exact .inl trivial
  refine .inr (.inl ⟨rfl, by cases h : row.stream.status <;> simp_all, .call trivial fun r => ?_⟩)
  cases r with
  | error e => exact .here (.inr trivial)
  | ok token =>
    have htail : ResumeTail id ((currentKey id row).andThen fun key => markResumed id row key) := by
      refine Prog.Leads.bind currentKey_free fun key => ?_
      cases key with
      | error e => exact .here (.inr trivial)
      | ok key => exact markResumed_tail
    exact htail.followed fun _ => trivial

/-! ### Ends -/

theorem mediaCall_free (q : BroadcastRequest) (h : MediaCall id release q) : MarkerFree q := by
  cases h <;> trivial

theorem publishEnded_at {m : Marker} (hm : m.streamId = id) (attempts : Nat) :
    AtPublish id m.status m.generation (publishEnded m (attempts + 1)) := by
  subst hm
  exact ⟨m.matrixRoomId, m.reason, _, rfl, trivial⟩

theorem finalizeStreamMarker_at {room} : AtBump id .ended (finalizeStreamMarker id row room reason) := by
  refine ⟨_, rfl, fun g => ?_⟩
  dsimp only
  split
  · exact .call trivial fun _ => .here (publishEnded_at rfl 2)
  · exact .here (publishEnded_at rfl 2)

theorem afterEnd_at {withheld} : AtRoomRead id row.stream.roomId (afterEnd cfg id row release reason withheld) := by
  refine ⟨_, rfl, fun room => AtBump.followed finalizeStreamMarker_at fun written => Prog.Uses.bind ?_ fun _ => trivial⟩
  split
  · refine ⟨trivial, fun r => ?_⟩
    cases r with
    | ok recordings => exact announceAll_uses (fun _ => trivial) recordings
    | error e => trivial
  · trivial

theorem endAndFinaliseStream_tail : EndTail id row.stream.roomId (endAndFinaliseStream cfg id row release reason) :=
  Prog.Leads.bind (releaseMedia_uses.mono mediaCall_free) fun _ =>
    .here ⟨_, rfl, afterEnd_at.followed fun _ => trivial, trivial⟩

theorem endStream_reads {k} : Marking.reading.Stands id k (respond .ended (endStream cfg user id)) := by
  refine .here (.inr ⟨_, rfl, fun row => ?_⟩)
  dsimp only [orNotFound, orDatabase, orError]
  split
  · exact .inl trivial
  · exact .inr (.inr (endAndFinaliseStream_tail.followed fun _ => trivial))

theorem stopStream_reads {k} : Marking.reading.Stands id k (respond .ended (stopStream cfg id release reason)) :=
  .here (.inr ⟨_, rfl, fun _ => .inr (.inr (endAndFinaliseStream_tail.followed fun _ => trivial))⟩)

theorem program_reads {k : BroadcastJob} (hk : k.resumes = some id ∨ k.ends.map Prod.fst = some id) :
    Marking.reading.Stands id k (k.program cfg) := by
  cases k with
  | resumeStream n user id' =>
    rcases hk with hk | hk <;> cases hk
    exact resumeStream_reads
  | endStream n user id' =>
    rcases hk with hk | hk <;> cases hk
    exact endStream_reads
  | stopStream n id' release reason =>
    rcases hk with hk | hk <;> cases hk
    exact stopStream_reads
  | _ => rcases hk with hk | hk <;> cases hk

/-! ## Runs -/

/-- The stream is resumed and ended, by calls that succeed. -/
def MarkerRuns (id : String) (pool : BroadcastPool) : BroadcastEvent → Prop
  | .start k => k.resumes = some id ∨ k.ends.map Prod.fst = some id
  | .request place fate => fate = .served ∧ ((pool.next? place).bind BroadcastRequest.bumps = some id → pool.state.generation id < 2147483647)
  | .move _ => True
  | .die => False

/-- No resume is in flight when the row is moved. -/
def ResumesDone (id : String) (pool : BroadcastPool) : BroadcastEvent → Prop
  | .request place _ => (pool.next? place).bind BroadcastRequest.ends = some id → pool.state.status id = some .active →
      ∀ x ∈ pool.running, x.1.resumes ≠ some id
  | _ => True

instance decidableMarkerRuns (id : String) (pool : BroadcastPool) : (e : BroadcastEvent) → Decidable (MarkerRuns id pool e)
  | .start _ => instDecidableOr
  | .request _ _ => instDecidableAnd
  | .move _ => isTrue trivial
  | .die => isFalse not_false

instance decidableResumesDone (id : String) (pool : BroadcastPool) : (e : BroadcastEvent) → Decidable (ResumesDone id pool e)
  | .request .. => inferInstanceAs (Decidable (_ → _))
  | .start _ | .move _ | .die => isTrue trivial

/-- The stages of the resumes and ends in flight. -/
def markersOutline (cfg : BroadcastConfig) (id : String) :
    Outline broadcastService (BroadcastJob.program cfg) (fun pool e => MarkerRuns id pool e ∧ ResumesDone id pool e) Marking where
  stands := fun k p t => t.Stands id k p
  inv := fun s _ notes => MarkersInv id s notes
  start := by
    intro pool k notes hinv hjobs hok
    exact ⟨.reading, program_reads hok.1, hinv.join⟩
  request := by
    intro pool place k q next fate t notes hstands hinv hjobs hplace hok
    obtain ⟨⟨rfl, hroom⟩, hapart⟩ := hok
    have hq : pool.next? place = some q := by simp only [Pool.next?, hplace]
    refine hinv.request hstands (fun hbumps => hroom (by rw [hq]; exact hbumps)) fun hends hactive n hn => ?_
    obtain ⟨x, hx, heq⟩ := Outline.mem_running hjobs (mem_cons_of_mem hn)
    exact heq ▸ hapart (by rw [hq]; exact hends) hactive x hx
  finish := by
    intro s returned k a t notes hstands hinv
    exact hinv.leave hstands
  move := by
    intro pool m notes hinv hok
    exact hinv.same (sameMarkers_move pool.state m)
  die := by
    intro pool notes hinv hok
    exact hok.1.elim

/-- A stream that is live, with its room, and the markers it has so far. -/
structure Started (id : String) (s : BroadcastState) : Prop where
  row : ∃ x, s.content.streams[id]? = some x ∧ x.status = .active ∧ (s.content.rooms[x.roomId]?).isSome
  positive : 1 ≤ s.generation id
  bounded : ∀ m ∈ s.markersOf id, m.status = .active ∧ (m.generation : Int) ≤ s.generation id
  distinct : ((s.markersOf id).map Marker.generation).Nodup

theorem Started.inv {s} (h : Started id s) : MarkersInv id s 0 := by
  obtain ⟨x, hx, hactive, hroom⟩ := h.row
  have hopen : ∀ m ∈ s.markersOf id, m.status ≠ .ended := by
    intro m hm hended
    cases (h.bounded m hm).1.symm.trans hended
  refine ⟨⟨⟨x, hx, hroom⟩, h.positive, fun m hm => (h.bounded m hm).2, fun m hm hended => absurd hended (hopen m hm),
    fun m hm hended => absurd hended (hopen m hm)⟩, fun _ hn => absurd hn (notMem_zero _),
    fun _ hn => absurd hn (notMem_zero _), ?_, fun hended => ?_⟩
  · unfold generations
    rw [Multiset.filterMap_zero, Multiset.add_zero]
    exact coe_nodup.mpr h.distinct
  · unfold status at hended
    rw [hx, Option.map_some, hactive] at hended
    cases hended

/-- **The newest marker of an ended stream is the terminal one**, when no resume is in flight
while an end moves the row. -/
theorem newest_marker_terminal (cfg : BroadcastConfig) (id : String) (s₀ : BroadcastState) (hstart : Started id s₀) (h : List BroadcastEvent)
    (pool : BroadcastPool)
    (run : Run (broadcastStep cfg) (fun _ pool e => MarkerRuns id pool e ∧ ResumesDone id pool e) ⟨s₀, [], []⟩ h pool) :
    ((pool.state.markersOf id).map Marker.generation).Nodup ∧
    (pool.state.status id = some .ended → pool.running = [] →
      ∃ m older, pool.state.markersOf id = m :: older ∧ pool.state.markers.head? = some m ∧ m.status = .ended ∧
        ∀ m' ∈ older, m'.status = .active ∧ m'.generation < m.generation) := by
  have hsound := (Outline.sound_start (O := markersOutline cfg id) hstart.inv).run run
  refine ⟨?_, fun hended hquiet => ?_⟩
  · obtain ⟨notes, -, -, hinv⟩ := hsound
    exact coe_nodup.mp (nodup_of_le (le_add_right _ _) hinv.distinct)
  · exact (hsound.quiet hquiet).quiet hended

end

theorem onAir_started : Started "live" .onAir := by
  refine ⟨⟨⟨1, "@alice", .active, some "mm-live", 0, none⟩, ?_⟩, ?_, ?_, ?_⟩ <;> decide +kernel

/-- A resume, and then an end. -/
def resumeThenEnd : List BroadcastEvent :=
  (.start (.resumeStream 1 "@alice" "live") :: List.replicate 6 (.request 0 .served) : List BroadcastEvent) ++
  (.start (.stopStream 2 "live" .publish none) :: List.replicate 11 (.request 0 .served) : List BroadcastEvent)

theorem newest_marker_in_turn : ∃ h pool,
    Run (broadcastStep originConfig) (fun _ pool e => MarkerRuns "live" pool e ∧ ResumesDone "live" pool e) ⟨.onAir, [], []⟩ h pool ∧
    ∃ m older, pool.state.markersOf "live" = m :: older ∧ pool.state.markers.head? = some m ∧ m.status = .ended ∧
      ∀ m' ∈ older, m'.status = .active ∧ m'.generation < m.generation := by
  apply Run.exists_and_of_follows (P := fun pool => pool.state.status "live" = some .ended ∧ pool.running = []) resumeThenEnd (by decide +kernel)
  rintro h pool run ⟨hended, hquiet⟩
  exact (newest_marker_terminal originConfig "live" _ onAir_started _ _ run).2 hended hquiet

/-- The resume has read the row, and the whole end comes before its bump. -/
def endWithinResume : List BroadcastEvent :=
  (.start (.resumeStream 1 "@alice" "live") :: List.replicate 4 (.request 0 .served) : List BroadcastEvent) ++
  (.start (.stopStream 2 "live" .publish none) :: List.replicate 11 (.request 0 .served) : List BroadcastEvent) ++
  ([.request 0 .served, .request 0 .served] : List BroadcastEvent)

/-- An ended stream whose newest marker says that it is live. -/
theorem resumed_after_end : ∃ s₀ h pool, Started "live" s₀ ∧
    Run (broadcastStep originConfig) (fun _ pool e => MarkerRuns "live" pool e) ⟨s₀, [], []⟩ h pool ∧ pool.running = [] ∧
    pool.state.status "live" = some .ended ∧
    ∃ m older, pool.state.markersOf "live" = m :: older ∧ m.status = .active ∧ ∀ m' ∈ older, m'.generation < m.generation := by
  obtain ⟨h, pool, run, hquiet, hended, hmarkers⟩ : ∃ h pool,
      Run (broadcastStep originConfig) (fun _ pool e => MarkerRuns "live" pool e) ⟨.onAir, [], []⟩ h pool ∧ pool.running = [] ∧
      pool.state.status "live" = some .ended ∧ pool.state.markersOf "live" =
        [⟨"!room", "live", .active, 3, none⟩, ⟨"!room", "live", .ended, 2, none⟩, ⟨"!room", "live", .active, 1, none⟩] :=
    Run.exists_of_follows endWithinResume (by decide +kernel)
  exact ⟨_, h, pool, onAir_started, run, hquiet, hended, _, _, hmarkers, rfl, by decide⟩

end MatrixMedia.Broadcast

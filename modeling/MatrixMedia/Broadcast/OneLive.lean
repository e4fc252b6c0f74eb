import MatrixMedia.Broadcast.Calls
import MatrixMedia.Paywall.Gates

/-!
# One live stream per room

`create_stream` looks for an active stream of the room and inserts its own in two statements,
and no index of `mm_streams` forbids a second one. `one_live_per_room` needs that no two
`create_stream` for the same room are under way together; `two_live_in_room` is a run of two.
-/

namespace MatrixMedia.Broadcast

open Lib Lib.Interaction Api Multiset Paywall

open Std (TreeMap)

open Streams (Stream StreamTable StreamStatus)

open Paywall (ContentRequest ContentState CreateStreamRequest Room)

/-- No room has two active streams. -/
def OneLive (streams : StreamTable) : Prop :=
  ∀ (id id' : String) (x x' : Stream), streams[id]? = some x → streams[id']? = some x' → x.status = .active → x'.status = .active →
    x.roomId = x'.roomId → id = id'

/-- The ids of `mm_rooms` come from its sequence. -/
def RoomsBelow (c : ContentState) : Prop := ∀ (id : Int) (row : Room), c.rooms[id]? = some row → id < c.nextRoomId

/-! ## Stages of a `create_stream` -/

/-- The request inserts no stream. -/
def NoInsert : BroadcastRequest → Prop
  | .content (.insertStream ..) => False
  | _ => True

inductive Creating where
  /-- It inserts no stream any more. -/
  | idle
  | unresolved
  | resolved (room : Int)
  /-- It saw no active stream in the room. -/
  | clear (room : Int)

/-- The Matrix room of a `create_stream`. -/
def BroadcastJob.creates : BroadcastJob → Option String
  | .createStream _ _ body _ _ _ => some body.roomId
  | _ => none

section

variable {α : Type}

/-- The program inserts into this room next, and then no more. -/
def AtInsert (room : Int) (p : Action α) : Prop :=
  ∃ id host sfuRoom min next, p = .call (.content (.insertStream id room host sfuRoom min)) next ∧ ∀ r, (next r).Uses NoInsert

/-- The program looks for an active stream in this room next. -/
def AtLookup (room : Int) (p : Action α) : Prop :=
  ∃ next, p = .call (.content (.getActiveStream room)) next ∧
    (next (.ok none)).Leads NoInsert (fun p => AtInsert room p ∨ p.Uses NoInsert) ∧ ∀ r, r ≠ .ok none → (next r).Uses NoInsert

/-- The program looks up its room next. -/
def AtRoom (matrixRoomId : String) (p : Action α) : Prop :=
  ∃ next, p = .call (.content (.getOrCreateRoom matrixRoomId)) next ∧ (∀ room, AtLookup room.1 (next (.ok room))) ∧
    ∀ e, (next (.error e)).Uses NoInsert

/-- Where a `create_stream` stands. -/
def Creating.Stands (k : BroadcastJob) (p : Action α) : Creating → Prop
  | .idle => p.Uses NoInsert
  | .unresolved => ∃ room, k.creates = some room ∧ p.Leads NoInsert fun p => AtRoom room p ∨ p.Uses NoInsert
  | .resolved room => AtLookup room p
  | .clear room => p.Leads NoInsert fun p => AtInsert room p ∨ p.Uses NoInsert

end

/-- What the stages mean for the tables. -/
structure OneLiveInv (s : BroadcastState) (notes : Multiset (BroadcastJob × Creating)) : Prop where
  below : RoomsBelow s.content
  live : OneLive s.content.streams
  resolved : ∀ k room, (k, Creating.resolved room) ∈ notes → ∃ row, s.content.rooms[room]? = some row ∧ k.creates = some row.matrixRoomId
  clear : ∀ k room, (k, Creating.clear room) ∈ notes → ∃ row, s.content.rooms[room]? = some row ∧ k.creates = some row.matrixRoomId ∧
    ∀ (id : String) (x : Stream), s.content.streams[id]? = some x → x.status = .active → x.roomId ≠ room
  apart : (notes.filterMap fun n => n.1.creates).Nodup

/-! ## What keeps it -/

/-- No stream becomes active and no room is lost. -/
structure Quieter (s s' : BroadcastState) : Prop where
  below : RoomsBelow s'.content
  rooms : ∀ (id : Int) (row : Room), s.content.rooms[id]? = some row → s'.content.rooms[id]? = some row
  active : ∀ (id : String) (x : Stream), s'.content.streams[id]? = some x → x.status = .active → s.content.streams[id]? = some x

theorem Quieter.live {s s'} (h : Quieter s s') (hlive : OneLive s.content.streams) : OneLive s'.content.streams :=
  fun id id' x x' hx hx' ha ha' => hlive id id' x x' (h.active id x hx ha) (h.active id' x' hx' ha') ha ha'

theorem OneLiveInv.quieter {s s' notes} (h : OneLiveInv s notes)
    (hs : Quieter s s') : OneLiveInv s' notes where
  below := hs.below
  live := hs.live h.live
  resolved := fun k room hmem => by
    obtain ⟨row, hrow, hk⟩ := h.resolved k room hmem
    exact ⟨row, hs.rooms room row hrow, hk⟩
  clear := fun k room hmem => by
    obtain ⟨row, hrow, hk, hclear⟩ := h.clear k room hmem
    exact ⟨row, hs.rooms room row hrow, hk, fun id x hx ha => hclear id x (hs.active id x hx ha) ha⟩
  apart := h.apart

/-- Rooms are only added. -/
theorem rooms_grow {s s' : BroadcastState} {q} (heffect : s.Effect q s') (hbelow : RoomsBelow s.content) :
    RoomsBelow s'.content ∧ ∀ (id : Int) (row : Room), s.content.rooms[id]? = some row → s'.content.rooms[id]? = some row := by
  rcases heffect.rooms with ⟨hrooms, hnext⟩ | ⟨new, hrooms, hnext⟩
  · unfold RoomsBelow
    rw [hrooms, hnext]
    exact ⟨hbelow, fun _ _ h => h⟩
  · refine ⟨fun id row hrow => ?_, fun id row hrow => ?_⟩
    · rw [hrooms, Table.getElem?_insert] at hrow
      rw [hnext]
      split at hrow
      · omega
      · exact Int.lt_trans (hbelow id row hrow) (by omega)
    · rw [hrooms, Table.getElem?_insert, if_neg]
      · exact hrow
      · exact fun heq => absurd (hbelow id row hrow) (by omega)

theorem endStreamIfActive_active {streams : StreamTable} {ended id : String} {x : Stream}
    (h : (Streams.endStreamIfActive streams ended).1[id]? = some x) (ha : x.status = .active) : streams[id]? = some x := by
  unfold Streams.endStreamIfActive at h
  split at h
  · rename_i row hrow
    split at h
    · rw [Table.getElem?_insert] at h
      split at h
      · cases h
        cases ha
      · exact h
    · exact h
  · exact h

/-- A request that inserts no stream. -/
theorem quieter_of_noInsert {s : BroadcastState} {q : BroadcastRequest} (hq : NoInsert q) (hbelow : RoomsBelow s.content) (fate : CallFate) :
    Quieter s (s.request q fate).1 := by
  have heffect := s.request_effect q fate
  obtain ⟨hbelow', hrooms⟩ := rooms_grow heffect hbelow
  refine ⟨hbelow', hrooms, fun id x hx ha => ?_⟩
  have hchange := heffect.streams
  generalize (s.request q fate).1.content.streams = streams at hx hchange
  cases hchange with
  | kept => exact hx
  | inserted fresh found => exact hq.elim
  | ended => exact endStreamIfActive_active hx ha

section

variable {s : BroadcastState} {notes : Multiset (BroadcastJob × Creating)} {k : BroadcastJob} {t t' : Creating}

section
variable (h : OneLiveInv s ((k, t) ::ₘ notes))
include h

/-- One program goes on to another stage. -/
theorem OneLiveInv.restage
    (hresolved : ∀ room, t' = .resolved room → ∃ row, s.content.rooms[room]? = some row ∧ k.creates = some row.matrixRoomId)
    (hclear : ∀ room, t' = .clear room → ∃ row, s.content.rooms[room]? = some row ∧ k.creates = some row.matrixRoomId ∧
      ∀ (id : String) (x : Stream), s.content.streams[id]? = some x → x.status = .active → x.roomId ≠ room) :
    OneLiveInv s ((k, t') ::ₘ notes) where
  below := h.below
  live := h.live
  resolved := fun k' room hmem => by
    rcases mem_cons.mp hmem with heq | hmem
    · cases heq
      exact hresolved room rfl
    · exact h.resolved k' room (mem_cons_of_mem hmem)
  clear := fun k' room hmem => by
    rcases mem_cons.mp hmem with heq | hmem
    · cases heq
      exact hclear room rfl
    · exact h.clear k' room (mem_cons_of_mem hmem)
  apart := by
    have happart := h.apart
    rw [filterMap_cons] at happart ⊢
    exact happart

/-- From here on it inserts nothing. -/
theorem OneLiveInv.idle : OneLiveInv s ((k, .idle) ::ₘ notes) :=
  h.restage (fun _ heq => Creating.noConfusion heq) fun _ heq => Creating.noConfusion heq

theorem OneLiveInv.leave : OneLiveInv s notes where
  below := h.below
  live := h.live
  resolved := fun k' room hmem => h.resolved k' room (mem_cons_of_mem hmem)
  clear := fun k' room hmem => h.clear k' room (mem_cons_of_mem hmem)
  apart := by
    refine nodup_of_le ?_ h.apart
    exact filterMap_le_filterMap _ (le_cons_self _ _)

end

/-- A program joins that has not looked at its room. -/
theorem OneLiveInv.join (h : OneLiveInv s notes) (ht : t = .idle ∨ t = .unresolved)
    (hapart : ∀ room ∈ k.creates, ∀ x ∈ notes, x.1.creates ≠ some room) : OneLiveInv s ((k, t) ::ₘ notes) where
  below := h.below
  live := h.live
  resolved := fun k' room hmem => by
    rcases mem_cons.mp hmem with heq | hmem
    · rcases ht with rfl | rfl <;> cases heq
    · exact h.resolved k' room hmem
  clear := fun k' room hmem => by
    rcases mem_cons.mp hmem with heq | hmem
    · rcases ht with rfl | rfl <;> cases heq
    · exact h.clear k' room hmem
  apart := by
    cases hk : k.creates with
    | none =>
      rw [filterMap_cons_none (f := fun n : BroadcastJob × Creating => n.1.creates) _ _ hk]
      exact h.apart
    | some room =>
      rw [filterMap_cons_some (fun n : BroadcastJob × Creating => n.1.creates) _ _ hk, nodup_cons,
        mem_filterMap]
      refine ⟨?_, h.apart⟩
      rintro ⟨x, hx, heq⟩
      exact hapart room hk x hx heq

theorem quieter_move (s : BroadcastState) (m : BroadcastMove) (hbelow : RoomsBelow s.content) : Quieter s (s.move m) := by
  cases m with
  | _ => exact ⟨hbelow, fun _ _ h => h, fun _ _ h _ => h⟩

/-- The insert itself: no other `create_stream` is clear for the same room. -/
theorem OneLiveInv.insert {room} (h : OneLiveInv s ((k, .clear room) ::ₘ notes)) {id host sfuRoom min s'} (heffect : s.Effect (.content (.insertStream id room host sfuRoom min)) s') :
    OneLiveInv s' ((k, .idle) ::ₘ notes) := by
  obtain ⟨hbelow, hrooms⟩ := rooms_grow heffect h.below
  obtain ⟨row, hrow, hk, hempty⟩ := h.clear k room (mem_cons_self _ _)
  have hchange := heffect.streams
  have hidle := h.idle
  refine ⟨hbelow, ?_, fun k' room' hmem => ?_, fun k' room' hmem => ?_, hidle.apart⟩
  · generalize s'.content.streams = streams at hchange
    cases hchange with
    | kept => exact h.live
    | inserted fresh found =>
      have hread : ∀ (a : String) (x : Stream), (s.content.streams.insert id ⟨room, host, .active, sfuRoom, s.content.utcNow, min⟩)[a]? =
          some x → x.status = .active → (a = id ∧ x.roomId = room) ∨ s.content.streams[a]? = some x ∧ x.roomId ≠ room := by
        intro a x hx ha
        rw [Table.getElem?_insert] at hx
        split at hx
        · rename_i heq
          cases hx
          exact .inl ⟨heq.symm, rfl⟩
        · exact .inr ⟨hx, hempty a x hx ha⟩
      intro a a' x x' hx hx' ha ha' hroom
      rcases hread a x hx ha with ⟨rfl, hin⟩ | ⟨hx, hout⟩ <;> rcases hread a' x' hx' ha' with ⟨rfl, hin'⟩ | ⟨hx', hout'⟩
      · rfl
      · exact absurd (hroom.symm.trans hin) hout'
      · exact absurd (hroom.trans hin') hout
      · exact h.live a a' x x' hx hx' ha ha' hroom
  · obtain ⟨row', hrow', hk'⟩ := hidle.resolved k' room' hmem
    exact ⟨row', hrooms room' row' hrow', hk'⟩
  · obtain ⟨row', hrow', hk', hempty'⟩ := hidle.clear k' room' hmem
    refine ⟨row', hrooms room' row' hrow', hk', fun a x hx ha => ?_⟩
    have hmem' : (k', Creating.clear room') ∈ notes := by simpa using hmem
    have hne : room' ≠ room := by
      rintro rfl
      -- both are for the Matrix room of this row
      have happart := h.apart
      rw [filterMap_cons_some (fun n : BroadcastJob × Creating => n.1.creates) _ _ hk, nodup_cons,
        mem_filterMap] at happart
      exact happart.1 ⟨_, hmem', by rw [hk', Option.some.inj (hrow'.symm.trans hrow)]⟩
    generalize s'.content.streams = streams at hx hchange
    cases hchange with
    | kept => exact hempty' a x hx ha
    | inserted fresh found =>
      rw [Table.getElem?_insert] at hx
      split at hx
      · cases hx
        exact hne.symm
      · exact hempty' a x hx ha

/-- What `get_or_create_room` answers is in the table. -/
theorem getOrCreateRoom_found {c : ContentState} {matrixRoomId fate room}
    (h : (c.request (.getOrCreateRoom matrixRoomId) fate).2 = .ok room) :
    (c.request (.getOrCreateRoom matrixRoomId) fate).1.rooms[room.1]? = some room.2 ∧ room.2.matrixRoomId = matrixRoomId := by
  cases hfound : c.roomByMatrixId matrixRoomId with
  | some found =>
    simp only [ContentState.request, hfound] at h ⊢
    obtain ⟨-, heq⟩ := CallFate.answer_eq_ok.mp h
    cases heq
    exact ⟨Table.mem_toList.mp (List.mem_of_find?_eq_some hfound), by simpa using List.find?_some hfound⟩
  | none =>
    simp only [ContentState.request, hfound, ContentState.write] at h ⊢
    obtain ⟨rfl, heq⟩ := CallFate.answer_eq_ok.mp h
    cases heq
    simp [CallFate.applied]

/-- A room where `get_active_stream` finds nothing. -/
theorem getActiveStream_none {c : ContentState} {room : Int} (h : c.activeStream room = none) {id : String} {x : Stream}
    (hx : c.streams[id]? = some x) (ha : x.status = .active) : x.roomId ≠ room := by
  rintro rfl
  unfold ContentState.activeStream at h
  rw [Option.map_eq_none_iff, List.head?_eq_none_iff] at h
  have hmem : (id, x) ∈ c.streams.toList.filter fun y => y.2.roomId = x.roomId ∧ y.2.status = .active := by
    simpa [ha] using Table.mem_toList.mpr hx
  have hperm := (List.perm_insertionSort (fun a b : String × Stream => b.2.startedAt ≤ a.2.startedAt) _).mem_iff.mpr hmem
  rw [h] at hperm
  exact absurd hperm List.not_mem_nil

variable {α : Type}

/-- **One step of one program**: it goes on to a stage where the tables are as that stage says. -/
theorem OneLiveInv.request {q : BroadcastRequest} {next : q.Reply → Action α} (h : OneLiveInv s ((k, t) ::ₘ notes))
    (hstands : t.Stands k (.call q next)) (fate : CallFate) :
    ∃ t' : Creating, t'.Stands k (next (s.request q fate).2) ∧ OneLiveInv (s.request q fate).1 ((k, t') ::ₘ notes) := by
  have hidle : (∀ r, (next r).Uses NoInsert) → NoInsert q →
      ∃ t' : Creating, t'.Stands k (next (s.request q fate).2) ∧ OneLiveInv (s.request q fate).1 ((k, t') ::ₘ notes) :=
    fun huses hq => ⟨.idle, huses _, (h.quieter (quieter_of_noInsert hq h.below fate)).idle⟩
  cases t with
  | idle => exact hidle hstands.2 hstands.1
  | unresolved =>
    obtain ⟨room, hk, hleads⟩ := hstands
    cases hleads with
    | call hq hnext => exact ⟨.unresolved, ⟨room, hk, hnext _⟩, h.quieter (quieter_of_noInsert hq h.below fate)⟩
    | here hat =>
      rcases hat with ⟨next', heq, hok, herror⟩ | huses
      · cases heq
        have hquieter : Quieter s (s.request (.content (.getOrCreateRoom room)) fate).1 :=
          quieter_of_noInsert (q := .content (.getOrCreateRoom room)) trivial h.below fate
        cases hreply : (s.request (.content (.getOrCreateRoom room)) fate).2 with
        | error e => exact ⟨.idle, herror e, (h.quieter hquieter).idle⟩
        | ok found =>
          obtain ⟨hrow, hroom⟩ := getOrCreateRoom_found hreply
          exact ⟨.resolved found.1, hok found, (h.quieter hquieter).restage
            (fun _ heq => by cases heq; exact ⟨found.2, hrow, by rw [hk, hroom]⟩) fun _ heq => Creating.noConfusion heq⟩
      · exact hidle huses.2 huses.1
  | resolved room =>
    obtain ⟨next', heq, hnone, hother⟩ := hstands
    cases heq
    have hquieter : Quieter s (s.request (.content (.getActiveStream room)) fate).1 :=
      quieter_of_noInsert (q := .content (.getActiveStream room)) trivial h.below fate
    by_cases hreply : (s.request (.content (.getActiveStream room)) fate).2 = .ok none
    · obtain ⟨row, hrow, hk⟩ := h.resolved k room (mem_cons_self _ _)
      have hfree := (CallFate.answer_eq_ok.mp hreply).2
      refine ⟨.clear room, by rw [hreply]; exact hnone, (h.quieter hquieter).restage (fun _ heq => Creating.noConfusion heq) fun _ heq => ?_⟩
      cases heq
      exact ⟨row, hrow, hk, fun id x hx ha => getActiveStream_none (Except.ok.inj hfree) hx ha⟩
    · exact ⟨.idle, hother _ hreply, (h.quieter hquieter).idle⟩
  | clear room =>
    cases hstands with
    | call hq hnext => exact ⟨.clear room, hnext _, h.quieter (quieter_of_noInsert hq h.below fate)⟩
    | here hat =>
      rcases hat with ⟨id, host, sfuRoom, min, next', heq, huses⟩ | huses
      · cases heq
        exact ⟨.idle, huses _, h.insert (s.request_effect _ fate)⟩
      · exact hidle huses.2 huses.1

end

/-! ## The programs -/

section

variable {cfg : BroadcastConfig}

/-- The content calls that `create_stream` carries out insert a stream only when they say so. -/
theorem createCalls_noInsert {body newId key q}
    (hq : NoInsert (.content q)) : (createCalls cfg body newId key q).Uses NoInsert := by
  cases q with
  | setStreamE2eeKey id =>
    refine ⟨trivial, fun r => ?_⟩
    cases r with
    | ok a => exact ⟨trivial, fun _ => trivial⟩
    | error e => trivial
  | generateToken user =>
    refine Prog.Uses.bind ⟨trivial, fun r => ?_⟩ fun _ => ⟨trivial, fun _ => trivial⟩
    split
    · exact ⟨trivial, fun _ => trivial⟩
    · trivial
  | insertStream id room host sfuRoom min => exact hq.elim
  | _ => exact ⟨trivial, fun _ => trivial⟩

/-- A part of `Paywall.createStream` that inserts no stream. -/
theorem interp_noInsert {α : Type} {body newId key} {p : ContentAction α}
    (h : p.Uses fun q => NoInsert (.content q)) : (p.interp (createCalls cfg body newId key)).Uses NoInsert :=
  h.interp fun _ hq => createCalls_noInsert hq

theorem noInsert_of_plain (q : ContentRequest) (h : q.Plain) : NoInsert (.content q) := by
  cases q with
  | insertStream id room host sfuRoom min => exact h
  | _ => trivial

theorem openStream_leads (user : String) (body : CreateStreamRequest) (newId sfuName : String) (key : E2eeKey) (room : Int) :
    ((openStream cfg.content user body newId sfuName room).interp (createCalls cfg body newId key)).Leads NoInsert
      fun p => AtInsert room p ∨ p.Uses NoInsert := by
  have hstart : ∀ level, (startStream user newId body.e2ee level).Uses fun q => NoInsert (.content q) := by
    intro level
    unfold startStream
    split
    · exact ⟨trivial, fun _ => (addHost_plain _).mono noInsert_of_plain⟩
    · exact (addHost_plain _).mono noInsert_of_plain
  unfold openStream
  split
  · exact .here (.inr trivial)
  split
  · exact .here (.inr trivial)
  refine .call trivial fun r => ?_
  cases r with
  | error e => exact .here (.inr trivial)
  | ok a =>
    refine .here (.inl ⟨newId, user, some sfuName, body.minTierLevel, _, rfl, fun r => ?_⟩)
    cases r with
    | error e => trivial
    | ok a =>
      exact interp_noInsert (((effectiveMinTier_plain body.minTier).mono noInsert_of_plain).bind hstart)

theorem createStream_leads (user : String) (body : CreateStreamRequest) (newId sfuName : String) (key : E2eeKey) :
    (createStream cfg user body newId sfuName key).Leads NoInsert fun p => AtRoom body.roomId p ∨ p.Uses NoInsert := by
  refine .call trivial fun suspended => ?_
  dsimp only [Prog.bind]
  split
  · exact .here (.inr trivial)
  rw [Prog.andThen, Prog.interp_bind]
  refine Prog.Leads.bind (interp_noInsert ((checkCanHost_plain _ _).mono noInsert_of_plain)) fun allowed => ?_
  cases allowed with
  | error e => exact .here (.inr trivial)
  | ok a =>
    refine .here (.inl ⟨_, rfl, fun room => ⟨_, rfl, openStream_leads user body newId sfuName key room.1, fun r hr => ?_⟩, fun e => trivial⟩)
    match r with
    | .error e => trivial
    | .ok (some id) => trivial
    | .ok none => exact absurd rfl hr

/-- The response of a handler inserts nothing. -/
theorem AtRoom.followed {α β : Type} {room : String} {p : Action α} {f : α → Action β} (h : AtRoom room p) (hf : ∀ a, (f a).Uses NoInsert) :
    AtRoom room (p.bind f) := by
  obtain ⟨next, rfl, hok, herror⟩ := h
  refine ⟨_, rfl, fun found => ?_, fun e => (herror e).bind hf⟩
  obtain ⟨next', heq, hnone, hother⟩ := hok found
  rw [heq]
  refine ⟨_, rfl, hnone.followed fun p hp => .here ?_, fun r hr => (hother r hr).bind hf⟩
  rcases hp with ⟨id, host, sfuRoom, min, next'', rfl, huses⟩ | huses
  · exact .inl ⟨id, host, sfuRoom, min, _, rfl, fun r => (huses r).bind hf⟩
  · exact .inr (huses.bind hf)

/-- Creating, resuming and ending streams. -/
def BroadcastJob.CreatesOrEnds : BroadcastJob → Prop
  | .createStream .. | .resumeStream .. | .endStream .. | .stopStream .. => True
  | _ => False

instance decidableCreatesOrEnds : (k : BroadcastJob) → Decidable k.CreatesOrEnds
  | .createStream .. | .resumeStream .. | .endStream .. | .stopStream .. => isTrue trivial
  | .rotateStreamKey .. | .startRecording .. | .stopRecording .. | .recordingWatchdog .. | .finaliseOpenRecordings .. => isFalse not_false

theorem endCall_noInsert {id release} (q : BroadcastRequest) (h : EndCall id release q) : NoInsert q := by
  cases h with
  | media h | after h => cases h <;> trivial
  | _ => trivial

theorem resumeCall_noInsert {id} (q : BroadcastRequest) (h : ResumeCall id q) : NoInsert q := by
  cases h <;> trivial

/-- Where a job starts. -/
theorem program_stands {k : BroadcastJob} (hk : k.CreatesOrEnds) : ∃ t : Creating, t.Stands k (k.program cfg) ∧
    (t = .idle ∨ t = .unresolved) := by
  cases k with
  | createStream n user body newId sfuName key =>
    refine ⟨.unresolved, ⟨body.roomId, rfl, (createStream_leads user body newId sfuName key).followed fun p hp => .here ?_⟩, .inr rfl⟩
    rcases hp with hat | huses
    · exact .inl (hat.followed fun _ => trivial)
    · exact .inr (huses.bind fun _ => trivial)
  | resumeStream n user id =>
    exact ⟨.idle, (uses_respond resumeStream_uses).mono resumeCall_noInsert, .inl rfl⟩
  | endStream n user id =>
    exact ⟨.idle, (uses_respond endStream_uses).mono endCall_noInsert, .inl rfl⟩
  | stopStream n id release reason =>
    exact ⟨.idle, (uses_respond stopStream_uses).mono endCall_noInsert, .inl rfl⟩
  | _ => exact hk.elim

/-! ## Runs -/

/-- Streams are created, resumed and ended, and no two `create_stream` for one room are in
flight together. -/
def CreatesApart (pool : BroadcastPool) : BroadcastEvent → Prop :=
  Event.Starts fun k => k.CreatesOrEnds ∧ ∀ room ∈ k.creates, ∀ x ∈ pool.running, x.1.creates ≠ some room

instance decidableCreatesApart (pool : BroadcastPool) (e : BroadcastEvent) : Decidable (CreatesApart pool e) :=
  inferInstanceAs (Decidable (Event.Starts _ e))

/-- The stages of the `create_stream` in flight, and what they mean for the tables. -/
def oneLiveOutline (cfg : BroadcastConfig) :
    Outline broadcastService (BroadcastJob.program cfg) CreatesApart Creating where
  stands := fun k p t => t.Stands k p
  inv := fun s _ notes => OneLiveInv s notes
  start := by
    intro pool k notes hinv hjobs hok
    obtain ⟨t, hstands, ht⟩ : ∃ t : Creating, t.Stands k (k.program cfg) ∧ (t = .idle ∨ t = .unresolved) := program_stands hok.1
    refine ⟨t, hstands, hinv.join ht fun room hroom x hx hcreates => ?_⟩
    obtain ⟨y, hy, heq⟩ := Outline.mem_running hjobs hx
    exact hok.2 room hroom y hy (heq ▸ hcreates)
  request := by
    intro pool place k q next fate t notes hstands hinv hjobs hplace hok
    exact hinv.request hstands fate
  finish := by
    intro s returned k a t notes hstands hinv
    exact hinv.leave
  move := by
    intro pool m notes hinv hok
    exact hinv.quieter (quieter_move pool.state m hinv.below)
  die := by
    intro pool notes hinv hok
    exact ⟨hinv.below, hinv.live, fun _ _ hmem => absurd hmem (notMem_zero _),
      fun _ _ hmem => absurd hmem (notMem_zero _), nodup_zero⟩

/-- **At most one live stream per room**: when no two `create_stream` for one room overlap, no
room ever has two active streams, whatever fails on the way. -/
theorem one_live_per_room (cfg : BroadcastConfig) (s₀ : BroadcastState) (hlive : OneLive s₀.content.streams) (hrooms : RoomsBelow s₀.content)
    (h : List BroadcastEvent) (pool : BroadcastPool)
    (run : Run (broadcastStep cfg) (fun _ pool e => CreatesApart pool e) ⟨s₀, [], []⟩ h pool) : OneLive pool.state.content.streams := by
  have hinit : (oneLiveOutline cfg).Sound ⟨s₀, [], []⟩ := Outline.sound_start
    ⟨hrooms, hlive, fun _ _ hmem => absurd hmem (notMem_zero _), fun _ _ hmem => absurd hmem (notMem_zero _),
      nodup_zero⟩
  obtain ⟨notes, -, -, hinv⟩ := hinit.run run
  exact hinv.live

end

/-- `@alice` and `@bob` each start a stream in `!room`. -/
def create (n : Nat) (user id : String) : BroadcastJob :=
  .createStream n user ⟨"!room", false, none, none⟩ id ("mm-" ++ id) ⟨"k", "b"⟩

/-- One after the other, with the first stream ended in between. -/
def createInTurn : List BroadcastEvent :=
  (.start (create 1 "@alice" "a") :: List.replicate 10 (.request 0 .served) : List BroadcastEvent) ++
  (.start (.endStream 2 "@alice" "a") :: List.replicate 9 (.request 0 .served) : List BroadcastEvent) ++
  (.start (create 3 "@bob" "b") :: List.replicate 10 (.request 0 .served) : List BroadcastEvent)

theorem one_live_empty : OneLive (BroadcastState.empty 0 ⟨∅, ∅⟩).content.streams ∧ RoomsBelow (BroadcastState.empty 0 ⟨∅, ∅⟩).content := by
  refine ⟨fun id id' x x' hx => ?_, fun id row hrow => ?_⟩
  · cases TreeMap.getElem?_emptyc.symm.trans hx
  · cases TreeMap.getElem?_emptyc.symm.trans hrow

theorem one_live_in_turn : ∃ h pool, Run (broadcastStep originConfig) (fun _ pool e => CreatesApart pool e) ⟨.empty 0 ⟨∅, ∅⟩, [], []⟩ h pool ∧
    ((pool.state.content.streams["b"]?).map Stream.status) = some .active ∧ OneLive pool.state.content.streams := by
  apply Run.exists_and_of_follows (P := fun pool => (pool.state.content.streams["b"]?).map Stream.status = some .active) createInTurn (by decide +kernel)
  intro h pool run hactive
  exact ⟨hactive, one_live_per_room originConfig _ one_live_empty.1 one_live_empty.2 _ _ run⟩

/-- Both look before either inserts. -/
def createTogether : List BroadcastEvent :=
  (.start (create 1 "@alice" "a") :: List.replicate 4 (.request 0 .served) : List BroadcastEvent) ++
  (.start (create 2 "@bob" "b") :: List.replicate 6 (.request 0 .served) : List BroadcastEvent) ++
  ([.request 1 .served, .request 0 .served] : List BroadcastEvent)

/-- Two overlapping `create_stream` leave two active streams in one room. -/
theorem two_live_in_room : ∃ s₀ h pool, OneLive s₀.content.streams ∧ RoomsBelow s₀.content ∧
    Run (broadcastStep originConfig) (fun _ _ e => e.Starts BroadcastJob.CreatesOrEnds) ⟨s₀, [], []⟩ h pool ∧
    ¬OneLive pool.state.content.streams := by
  obtain ⟨h, pool, run, ha, hb⟩ : ∃ h pool,
      Run (broadcastStep originConfig) (fun _ _ e => e.Starts BroadcastJob.CreatesOrEnds) ⟨.empty 0 ⟨∅, ∅⟩, [], []⟩ h pool ∧
      pool.state.content.streams["a"]? = some ⟨1, "@alice", .active, some "mm-a", 0, none⟩ ∧
      pool.state.content.streams["b"]? = some ⟨1, "@bob", .active, some "mm-b", 0, none⟩ :=
    Run.exists_of_follows createTogether (by decide +kernel)
  refine ⟨_, h, pool, one_live_empty.1, one_live_empty.2, run, fun hlive => ?_⟩
  exact absurd (hlive "a" "b" _ _ ha hb rfl rfl rfl) (by decide)

end MatrixMedia.Broadcast

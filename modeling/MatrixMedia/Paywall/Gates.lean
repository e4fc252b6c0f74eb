import MatrixMedia.Paywall.Handlers

/-!
# Who controls a gate

Rows of `mm_content_gates` are keyed by the content only. `create_gate` and `delete_gate` take
any content id from any user, an upsert keeps the creator of the row it changes, and
`join_stream` asks for a subscription to that creator. `only_the_host_controls` is what remains:
when everything about a stream's gate comes from its host, the gate in force is the one the
host last set. `stranger_sets_gate` is a run where it does not.
-/

namespace MatrixMedia.Paywall
open Lib Lib.Chrono Lib.Interaction Api ContentRequest
open Std (TreeMap)
open Streams (Stream)

variable {cfg : ContentConfig} {host : String → String} {s : ContentState}

/-! ## What each request writes -/

/-- It writes no stream, gate or recording row. -/
def ContentRequest.Plain : ContentRequest → Prop
  | .insertStream .. | .createContentGate .. | .deleteContentGate _ _ | .insertRecording .. => False
  | _ => True

/-- The requests a job makes, by what they write. -/
def ContentJob.May : ContentJob → ContentRequest → Prop
  | .createStream _ user body newId _, q => q.Plain ∨ (∃ room sfuRoom, q = .insertStream newId room user sfuRoom body.minTierLevel) ∨
      ∃ level : Fin 6, 0 < level.val ∧ q = .createContentGate user ("stream", newId) user level.val 120 true
  | .createGate _ user req, q => ∃ level preview, q = .createContentGate user (req.contentType, req.contentId) user level preview false
  | .deleteGate _ user contentType contentId, q => q = .deleteContentGate user (contentType, contentId)
  | .startRecording _ _ id _, q => q.Plain ∨ (∃ recordingId room host key egress min,
      q = .insertRecording recordingId id room host key egress min) ∨
      ∃ user recordingId, ∃ level : Fin 6, 0 < level.val ∧ q = .createContentGate user ("recording", recordingId) user level.val 120 true
  | .joinStream _ _ _, q | .proxyViewerOffer _ _ _ _, q | .getRecording _ _ _, q | .listRoomRecordings _ _ _ _ _, q => q.Plain

theorem uses_respondWith {α : Type} {P f} {p : Handler α} (h : p.Uses P) :
    (respondWith f p).Uses P :=
  h.bind fun _ => trivial

/-! ## The handlers, one by one -/

section
variable {P : ContentRequest → Prop} {user id newId sfuName egressId : String} {body : CreateStreamRequest}

theorem checkCanHost_plain (room user : String) : (checkCanHost cfg room user).Uses Plain := by
  unfold checkCanHost
  split
  · refine ⟨trivial, fun r => uses_orError fun allowed => ?_⟩
    cases allowed with
    | none => trivial
    | some users =>
      dsimp only
      split <;> trivial
  · trivial

theorem effectiveMinTier_plain (minTier : Option Int) : (effectiveMinTier cfg user minTier).Uses Plain := by
  unfold effectiveMinTier
  split
  · trivial
  · split
    · exact ⟨trivial, fun _ => trivial⟩
    · trivial

theorem addHost_plain (e2ee : Bool) : (addHost user id e2ee).Uses Plain := by
  have htoken : (hostToken user id).Uses Plain := ⟨trivial, fun r => uses_orError fun _ => trivial⟩
  refine ⟨trivial, fun r => uses_orError fun _ => ?_⟩
  split
  · exact ⟨trivial, fun r => uses_orError fun _ => htoken⟩
  · exact htoken

section
variable (plain : ∀ q : ContentRequest, q.Plain → P q)
include plain

theorem createStream_uses
    (insert : ∀ room sfuRoom, P (.insertStream newId room user sfuRoom body.minTierLevel))
    (gate : ∀ level : Fin 6, 0 < level.val → P (.createContentGate user ("stream", newId) user level.val 120 true)) :
    (createStream cfg user body newId sfuName).Uses P := by
  have hstart : ∀ level, (startStream user newId body.e2ee level).Uses P := by
    intro level
    unfold startStream
    split
    · rename_i hlevel
      exact ⟨gate level hlevel, fun _ => (addHost_plain _).mono plain⟩
    · exact (addHost_plain _).mono plain
  have hopen : ∀ room, (openStream cfg user body newId sfuName room).Uses P := by
    intro room
    unfold openStream
    split
    · trivial
    split
    · trivial
    · exact ⟨plain _ trivial, fun r => uses_orError fun _ => ⟨insert _ _, fun r => uses_orError fun _ =>
        ((effectiveMinTier_plain _).mono plain).bind hstart⟩⟩
  refine ⟨plain _ trivial, fun r => ?_⟩
  dsimp only
  split
  · trivial
  · refine ((checkCanHost_plain _ _).mono plain).andThen fun _ => ⟨plain _ trivial, fun r => uses_orError fun room =>
      ⟨plain _ trivial, fun r => uses_orError fun active => ?_⟩⟩
    cases active with
    | some id => trivial
    | none => exact hopen _

theorem storeSwitchRecording_uses {stream : Stream} {recordingId resumed}
    (insert : ∀ rid key egress, P (.insertRecording rid id stream.roomId stream.hostUserId key egress stream.minTierLevel)) :
    (storeSwitchRecording cfg id recordingId stream resumed).Uses P := by
  unfold storeSwitchRecording
  split
  · split
    · exact ⟨plain _ trivial, fun _ => trivial⟩
    · exact ⟨insert _ _ _, fun r => uses_orError fun _ => trivial⟩
  · trivial

theorem recordByEgress_uses {stream : Stream} {segment}
    (insert : ∀ rid key egress, P (.insertRecording rid id stream.roomId stream.hostUserId key egress stream.minTierLevel))
    (gate : ∀ rid, ∀ level : Fin 6, 0 < level.val →
      P (.createContentGate stream.hostUserId ("recording", rid) stream.hostUserId level.val 120 true)) :
    (recordByEgress cfg id egressId stream segment).Uses P := by
  refine ⟨plain _ trivial, fun r => uses_orError fun _ => ?_⟩
  split
  · refine ⟨insert _ _ _, fun r => uses_orError fun _ => ⟨plain _ trivial, fun r => ?_⟩⟩
    dsimp only
    split
    · rename_i hlevel
      exact ⟨gate _ _ hlevel, fun _ => trivial⟩
    · trivial
  · trivial

end

theorem recordWithRetry_plain (source recordingId : String) (retries : Nat) :
    (recordWithRetry source recordingId retries).Uses Plain := by
  induction retries with
  | zero => exact ⟨trivial, fun _ => trivial⟩
  | succ retries ih =>
    refine ⟨trivial, fun r => ?_⟩
    cases r with
    | ok a => trivial
    | error e =>
      dsimp only
      split
      · exact ih
      · trivial

/-- Both ways to record insert a row with the terms of the stream that was read. -/
theorem recordAs_uses {stream : Stream} (plain : ∀ q : ContentRequest, q.Plain → P q)
    (insert : ∀ rid key egress, P (.insertRecording rid id stream.roomId stream.hostUserId key egress stream.minTierLevel))
    (gate : ∀ rid, ∀ level : Fin 6, 0 < level.val →
      P (.createContentGate stream.hostUserId ("recording", rid) stream.hostUserId level.val 120 true)) :
    (recordAs cfg id egressId stream).Uses P := by
  have hegress : ∀ segment, (recordByEgress cfg id egressId stream segment).Uses P :=
    fun segment => recordByEgress_uses plain insert gate
  have hswitch : ∀ segment, (recordBySwitch cfg id egressId stream segment).Uses P := by
    intro segment
    refine Prog.Uses.andThen ?_ fun existing => ((recordWithRetry_plain _ _ _).mono plain).bind fun result => ?_
    · unfold existingRecording
      split
      · exact ⟨plain _ trivial, fun r => uses_orError fun _ => trivial⟩
      · trivial
    · cases result with
      | ok a => exact storeSwitchRecording_uses plain insert
      | error e =>
        dsimp only
        split
        · exact hegress segment
        · trivial
  refine Prog.Uses.bind ?_ fun refused => ?_
  · unfold recordingRefusal
    split
    · exact ⟨plain _ trivial, fun _ => trivial⟩
    · trivial
  split
  · trivial
  refine Prog.Uses.bind ?_ fun segment => ?_
  · unfold nextSegment
    split
    · exact ⟨plain _ trivial, fun _ => trivial⟩
    · trivial
  split
  · exact hswitch segment
  · exact hegress segment

theorem passColumn_plain {hostUser room what can min} :
    (passColumn user hostUser room can min what).Uses Plain := by
  refine ⟨trivial, fun p => ?_⟩
  dsimp only
  split
  · refine ⟨trivial, fun e => ?_⟩
    dsimp only
    split <;> trivial
  · trivial

theorem checkGate_plain : (checkGate cfg user id).Uses Plain := by
  unfold checkGate
  split
  · refine Prog.Uses.andThen ?_ fun gate => ?_
    · unfold getContentGate
      split
      · exact ⟨trivial, fun r => uses_orError fun _ => trivial⟩
      · trivial
    · cases gate with
      | none => trivial
      | some gate =>
        refine ⟨trivial, fun e => ?_⟩
        cases e with
        | none => trivial
        | some e =>
          dsimp only
          split <;> trivial
  · trivial

theorem joinStream_plain : (joinStream cfg user id).Uses Plain := by
  refine ⟨trivial, fun r => uses_orError fun stream => ?_⟩
  cases stream with
  | none => trivial
  | some stream =>
    dsimp only
    split
    · trivial
    refine checkGate_plain.andThen fun _ => ⟨trivial, fun r => uses_orError fun room => ?_⟩
    cases room with
    | none => trivial
    | some room =>
      refine Prog.Uses.andThen ?_ fun _ => ⟨trivial, fun r => uses_orError fun present => ?_⟩
      · unfold checkColumn
        split
        · split
          · exact passColumn_plain
          · trivial
        · trivial
      · split
        · trivial
        · exact ⟨trivial, fun r => uses_orError fun _ => ⟨trivial, fun r => uses_orError fun _ => trivial⟩⟩

theorem proxyViewerOffer_plain {sourceId} : (proxyViewerOffer cfg user id sourceId).Uses Plain := by
  refine ⟨trivial, fun r => uses_orError fun stream => ?_⟩
  cases stream with
  | none => trivial
  | some stream =>
    dsimp only
    split
    · trivial
    split
    · trivial
    · exact ⟨trivial, fun r => uses_orError fun _ => trivial⟩

theorem getRecording_plain : (getRecording cfg user id).Uses Plain := by
  refine ⟨trivial, fun r => uses_orError fun recording => ?_⟩
  cases recording with
  | none => trivial
  | some recording =>
    dsimp only
    split
    · trivial
    refine Prog.Uses.andThen ?_ fun _ => trivial
    unfold checkRecording
    split
    · split
      · refine ⟨trivial, fun r => uses_orError fun room => ?_⟩
        cases room with
        | none => trivial
        | some room => exact passColumn_plain
      · trivial
    · trivial

theorem respondAll_plain (room : String) (rows : List (String × Recording)) :
    (respondAll cfg user room rows).Uses Plain := by
  induction rows with
  | nil => trivial
  | cons row rows ih =>
    refine Prog.Uses.bind ?_ fun entitled => ih.bind fun _ => trivial
    unfold isEntitledToRecording
    split
    · trivial
    split
    · trivial
    split
    · trivial
    · refine ⟨trivial, fun p => ?_⟩
      dsimp only
      split
      · exact ⟨trivial, fun _ => trivial⟩
      · trivial

theorem listRoomRecordings_plain {limit before} :
    (listRoomRecordings cfg user id limit before).Uses Plain := by
  refine ⟨trivial, fun r => uses_orError fun room => ?_⟩
  cases room with
  | none => trivial
  | some room => exact ⟨trivial, fun r => uses_orError fun rows => (respondAll_plain _ _).bind fun _ => trivial⟩

end

/-- **The requests of every job.** -/
theorem program_may (k : ContentJob) : (k.program cfg).Uses k.May := by
  cases k with
  | createStream n user body newId sfuName =>
    exact uses_respondWith (createStream_uses (fun _ hq => .inl hq) (fun _ _ => .inr (.inl ⟨_, _, rfl⟩))
      fun level hlevel => .inr (.inr ⟨level, hlevel, rfl⟩))
  | createGate n user req =>
    exact uses_respondWith (uses_orRefuse (uses_orRefuse (uses_orRefuse ⟨⟨_, _, rfl⟩, fun r => uses_orError fun _ => trivial⟩)))
  | deleteGate n user contentType contentId =>
    exact uses_respondWith (uses_orRefuse ⟨rfl, fun r => uses_orError fun _ => trivial⟩)
  | startRecording n user id egressId =>
    refine uses_respondWith ⟨.inl trivial, fun r => uses_orError fun stream => ?_⟩
    cases stream with
    | none => trivial
    | some stream =>
      dsimp only
      split
      · trivial
      split
      · trivial
      · exact recordAs_uses (fun _ hq => .inl hq) (fun _ _ _ => .inr (.inl ⟨_, _, _, _, _, _, rfl⟩))
          fun _ level hlevel => .inr (.inr ⟨_, _, level, hlevel, rfl⟩)
  | joinStream n user id => exact uses_respondWith joinStream_plain
  | proxyViewerOffer n user id sourceId => exact uses_respondWith proxyViewerOffer_plain
  | getRecording n user id => exact uses_respondWith getRecording_plain
  | listRoomRecordings n user room limit before => exact uses_respondWith listRoomRecordings_plain

/-! ## The gate in force -/

/-- What the user last set on the stream, if it was not deleted since. -/
def lastSet (log : List GateEntry) (user id : String) : Option Int :=
  (log.find? fun e => e.user = user ∧ e.key = ("stream", id)).bind GateEntry.level

theorem lastSet_cons (e : GateEntry) (log : List GateEntry) (user id : String) :
    lastSet (e :: log) user id = if e.user = user ∧ e.key = ("stream", id) then e.level else lastSet log user id := by
  unfold lastSet
  rw [List.find?_cons]
  split <;> rename_i hmatch
  · rw [if_pos (of_decide_eq_true hmatch)]
    rfl
  · rw [if_neg (of_decide_eq_false hmatch)]

/-- The gate of every stream is the one its host last set. -/
structure Controlled (host : String → String) (s : ContentState) : Prop where
  streams : ∀ id row, s.streams[id]? = some row → row.hostUserId = host id
  gates : ∀ id, (s.gates ("stream", id)).map (fun g => (g.creatorUserId, g.minTierLevel)) =
    (lastSet s.gateLog (host id) id).map fun level => (host id, level)

/-- What is written about a stream is written by its host. -/
def FromHost (host : String → String) : ContentRequest → Prop
  | .insertStream id _ user _ _ => user = host id
  | .createContentGate user key creator level _ quiet => creator = user ∧ (key.1 = "stream" → user = host key.2) ∧
      (quiet = true → (key.1 = "stream" ∨ key.1 = "recording") ∧ 1 ≤ level ∧ level ≤ 5)
  | .deleteContentGate user key => key.1 = "stream" → user = host key.2
  | _ => True

/-- A gate that the handler does not report is stored. -/
def Stored : ContentRequest → CallFate → Prop
  | .createContentGate _ _ _ _ _ true, fate => fate.applied = true
  | _, _ => True

section
variable (h : Controlled host s)
include h

/-- The creator of the gate in force is the host. -/
theorem Controlled.creator {id} {g : ContentGate} (hg : s.gates ("stream", id) = some g) :
    g.creatorUserId = host id := by
  have hgates := h.gates id
  rw [hg, Option.map_some] at hgates
  obtain ⟨level, -, heq⟩ := Option.map_eq_some_iff.mp hgates.symm
  exact congrArg Prod.fst heq.symm

/-- A gate is set or deleted by someone who may. -/
theorem Controlled.write {user key} {gate : Option ContentGate}
    {level : Option Int} (huser : key.1 = "stream" → user = host key.2)
    (hgate : key.1 = "stream" → gate.map (fun g => (g.creatorUserId, g.minTierLevel)) = level.map fun n => (host key.2, n)) :
    Controlled host ({ s with gates := Function.update s.gates key gate }.logGate user key level) := by
  refine ⟨h.streams, fun id => ?_⟩
  dsimp only [ContentState.logGate]
  rw [lastSet_cons]
  by_cases hkey : ("stream", id) = key
  · subst hkey
    rw [Function.update_self, if_pos ⟨huser rfl, rfl⟩]
    exact hgate rfl
  · rw [Function.update_of_ne hkey, if_neg fun hmatch => hkey hmatch.2.symm]
    exact h.gates id

theorem Controlled.effect {q fate} (hq : FromHost host q) (hstored : Stored q fate) (heffect : s.Effect q fate s') :
    Controlled host s' := by
  cases heffect with
  | none | room row | participant | resumed | recording fresh => exact ⟨h.streams, h.gates⟩
  | stream fresh found =>
    refine ⟨fun id' row hrow => ?_, h.gates⟩
    rw [Table.getElem?_insert] at hrow
    split at hrow
    · rename_i heq
      cases hrow
      exact heq ▸ hq
    · exact h.streams id' row hrow
  | @gate user creator key level preview quiet fate g kept set =>
    obtain ⟨rfl, huser, -⟩ := hq
    refine h.write huser fun hkey => ?_
    -- an existing row keeps its creator, who is the host already
    have hcreator : g.creatorUserId = host key.2 := by
      rw [kept]
      cases hrow : s.gates key with
      | none => exact huser hkey
      | some old =>
        have hpair : key = ("stream", key.2) := Prod.ext hkey rfl
        exact h.creator (hpair ▸ hrow)
    rw [Option.map_some, Option.map_some, hcreator, set]
  | unstored why =>
    rcases why with hfailed | hcheck
    · cases hfailed.symm.trans hstored
    · exact absurd (hq.2.2 rfl) hcheck
  | ungate => exact h.write hq fun _ => rfl

theorem Controlled.move (m : ContentMove) : Controlled host (s.move m) := by
  cases m with
  | endStream id =>
    refine ⟨fun id' row hrow => ?_, h.gates⟩
    have hterms := s.move_terms (.endStream id) id'
    rw [hrow, Option.map_some] at hterms
    obtain ⟨old, hold, hsame⟩ := Option.map_eq_some_iff.mp hterms.symm
    have hhost : old.hostUserId = row.hostUserId := congrArg (fun x => x.2.1) hsame
    exact hhost ▸ h.streams id' old hold
  | _ => exact ⟨h.streams, h.gates⟩

end

/-- Only the host writes. -/
def hostOnly (host : String → String) : Discipline contentService where
  inv := Controlled host
  rely := fun _ _ => True
  allowed := fun _ q => FromHost host q
  admits := fun _ q fate => Stored q fate
  moves := fun _ _ => True
  rely_refl := fun _ => trivial
  rely_trans := fun _ _ => trivial
  request_keeps := fun {s _ _} h hq hstored => ⟨h.effect hq hstored (s.request_effect _ _), trivial⟩
  move_keeps := fun {_ m} h _ => ⟨h.move m, trivial⟩

/-- What a job asks for about a stream and its gate, it asks for the host. -/
def ByHost (host : String → String) : ContentJob → Prop
  | .createStream _ user _ newId _ => user = host newId
  | .createGate _ user req => req.contentType = "stream" → user = host req.contentId
  | .deleteGate _ user contentType contentId => contentType = "stream" → user = host contentId
  | .startRecording .. | .joinStream .. | .proxyViewerOffer .. | .getRecording ..
  | .listRoomRecordings .. => True

/-- Only hosts ask, and a gate that `create_stream` does not report is stored. -/
def HostOnly (host : String → String) (pool : ContentPool) : ContentEvent → Prop
  | .start k => ByHost host k
  | .request place fate => ∀ q ∈ pool.next? place, Stored q fate
  | .move _ | .die => True

theorem fromHost_of_plain {q : ContentRequest} (h : q.Plain) : FromHost host q := by
  cases q <;> trivial

theorem fromHost_of_may {k : ContentJob} (hk : ByHost host k) {q} (hq : k.May q) : FromHost host q := by
  have hlevel : ∀ level : Fin 6, 0 < level.val → 1 ≤ (level.val : Int) ∧ (level.val : Int) ≤ 5 := fun level h => by omega
  cases k with
  | createStream n user body newId sfuName =>
    rcases hq with hplain | ⟨room, sfuRoom, rfl⟩ | ⟨level, hpos, rfl⟩
    · exact fromHost_of_plain hplain
    · exact hk
    · exact ⟨rfl, fun _ => hk, fun _ => ⟨.inl rfl, hlevel level hpos⟩⟩
  | createGate n user req =>
    obtain ⟨level, preview, rfl⟩ := hq
    exact ⟨rfl, hk, fun hquiet => nomatch hquiet⟩
  | deleteGate n user contentType contentId =>
    subst hq
    exact hk
  | startRecording n user id egressId =>
    rcases hq with hplain | ⟨recordingId, room, host, key, egress, min, rfl⟩ | ⟨user, recordingId, level, hpos, rfl⟩
    · exact fromHost_of_plain hplain
    · trivial
    · exact ⟨rfl, fun hkey => absurd hkey (by decide : "recording" ≠ "stream"), fun _ => ⟨.inr rfl, hlevel level hpos⟩⟩
  | joinStream | proxyViewerOffer | getRecording | listRoomRecordings => exact fromHost_of_plain hq

/-- **The gate in force is the one the host last set**: it names the host as its creator, has
the host's level, and is there exactly when the host set one and has not deleted it since. -/
theorem only_the_host_controls (cfg : ContentConfig) (host : String → String) (now : DateTime) (tables : Tables)
    (h : List ContentEvent) (pool : ContentPool)
    (run : Run (contentStep cfg) (fun _ pool e => HostOnly host pool e) (.start now tables) h pool) :
    ∀ id stream, pool.state.streams[id]? = some stream →
      (pool.state.gates ("stream", id)).map (fun g => (g.creatorUserId, g.minTierLevel)) =
        (lastSet pool.state.gateLog stream.hostUserId id).map fun level => (stream.hostUserId, level) := by
  intro id stream hstream
  have run' : Run (contentStep cfg) (fun _ pool e => PoolOk (hostOnly host) (fun _ k => ByHost host k) pool e)
      (.start now tables) h pool := run.mono fun _ pool e hok => by cases e <;> exact hok
  have hcontrolled : Controlled host pool.state := by
    refine (Pool.sound (D := hostOnly host) (Q := fun _ _ _ => True) (fun k s _ hk => ?_) ?_ run').1
    · exact Safe.of_uses (fun _ q hq => fromHost_of_may hk hq) (program_may k)
    · exact ⟨fun id row hrow => by simp at hrow, fun id => rfl⟩
  rw [hcontrolled.streams id stream hstream]
  exact hcontrolled.gates id

instance ByHost.decidable (host : String → String) : (k : ContentJob) → Decidable (ByHost host k)
  | .createStream .. => inferInstanceAs (Decidable (_ = _))
  | .createGate .. => inferInstanceAs (Decidable (_ → _))
  | .deleteGate .. => inferInstanceAs (Decidable (_ → _))
  | .startRecording .. | .joinStream .. | .proxyViewerOffer .. | .getRecording ..
  | .listRoomRecordings .. => isTrue trivial

instance Stored.decidable (q : ContentRequest) (fate : CallFate) : Decidable (Stored q fate) := by
  unfold Stored
  split <;> infer_instance

instance HostOnly.decidable (host : String → String) (pool : ContentPool) : (e : ContentEvent) → Decidable (HostOnly host pool e)
  | .start k => inferInstanceAs (Decidable (ByHost host k))
  | .request place _ => inferInstanceAs (Decidable (∀ q ∈ pool.next? place, _))
  | .move _ | .die => isTrue trivial

/-- Everything is switched on. -/
def fullConfig : ContentConfig := ⟨⟨true, true, true⟩, true, true, false, true, true, false, false, "https://mm"⟩

/-- `@alice` starts a stream for subscribers of level 2. -/
def aliceStarts : List ContentEvent :=
  .start (.createStream 0 "@alice" ⟨"!room", false, some 2, none⟩ "s1" "mm-1") :: List.replicate 9 (.request 0 .served)

/-- She deletes the gate and sets another. -/
def aliceSets : List ContentEvent :=
  aliceStarts ++ ([.start (.deleteGate 1 "@alice" "stream" "s1"), .request 0 .served,
    .start (.createGate 2 "@alice" ⟨"stream", "s1", 4, none⟩), .request 0 .served] : List ContentEvent)

def noTables : Tables := ⟨∅, ∅⟩

theorem only_the_host_alice :
    ∃ h pool, Run (contentStep fullConfig) (fun _ pool e => HostOnly (fun _ => "@alice") pool e) (.start 0 noTables) h pool ∧
      (pool.state.gates ("stream", "s1")).map (fun g => (g.creatorUserId, g.minTierLevel)) = some ("@alice", 4) := by
  obtain ⟨h, pool, run, hstream, hset⟩ :
      ∃ h pool, Run (contentStep fullConfig) (fun _ pool e => HostOnly (fun _ => "@alice") pool e) (.start 0 noTables) h pool ∧
        (pool.state.streams["s1"]?).map Stream.hostUserId = some "@alice" ∧ lastSet pool.state.gateLog "@alice" "s1" = some 4 :=
    Run.exists_of_follows aliceSets (by decide +kernel)
  obtain ⟨stream, hstream, hhost⟩ := Option.map_eq_some_iff.mp hstream
  refine ⟨h, pool, run, ?_⟩
  rw [only_the_host_controls fullConfig _ 0 noTables _ _ run "s1" stream hstream, hhost, hset]
  rfl

/-- `@bob` deletes the gate. -/
def bobDeletes : List ContentEvent :=
  aliceStarts ++ ([.start (.deleteGate 1 "@bob" "stream" "s1"), .request 0 .served] : List ContentEvent)

/-- `@bob` sets a gate on a stream that has none. -/
def bobSets : List ContentEvent :=
  (.start (.createStream 0 "@alice" ⟨"!room", false, some 0, none⟩ "s1" "mm-1") :: List.replicate 8 (.request 0 .served) :
    List ContentEvent) ++ ([.start (.createGate 1 "@bob" ⟨"stream", "s1", 5, none⟩), .request 0 .served] : List ContentEvent)

/-- A stream whose host set a gate has none, and one without has the gate of a stranger. -/
theorem stranger_sets_gate :
    (∃ h pool, Run (contentStep fullConfig) (fun _ _ _ => True) (.start 0 noTables) h pool ∧
      (pool.state.streams["s1"]?).map Stream.hostUserId = some "@alice" ∧ lastSet pool.state.gateLog "@alice" "s1" = some 2 ∧
      pool.state.gates ("stream", "s1") = none) ∧
    ∃ h pool, Run (contentStep fullConfig) (fun _ _ _ => True) (.start 0 noTables) h pool ∧
      (pool.state.streams["s1"]?).map Stream.hostUserId = some "@alice" ∧
      (pool.state.gates ("stream", "s1")).map ContentGate.creatorUserId = some "@bob" :=
  ⟨Run.exists_of_follows bobDeletes (by decide +kernel), Run.exists_of_follows bobSets (by decide +kernel)⟩

end MatrixMedia.Paywall

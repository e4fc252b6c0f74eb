import MatrixMedia.Broadcast.Calls
import MatrixMedia.Paywall.Gates

/-!
# The keys of a stream

`rotate_stream_key` takes the next generation from the row that it read, and stores the key
under it in two statements; the history overwrites what it has for a generation. Two rotations
that read the same row hand out two keys under one number. `generation_names_key` needs that key
creations and rotations of a stream do not overlap, and that the counter does not wrap around;
`two_keys_one_generation` is a run of two rotations.
-/

namespace MatrixMedia.Broadcast
open Lib Lib.Interaction Api Paywall Multiset
open Std (TreeMap)
open Streams (Stream)
open Paywall (ContentRequest CreateStreamRequest)

/-- The stream whose key a job makes. -/
def BroadcastJob.keys : BroadcastJob → Option String
  | .createStream _ _ _ newId _ _ => some newId
  | .rotateStreamKey _ _ id _ => some id
  | _ => none

/-- The key in a response. -/
def BroadcastOutcome.key : BroadcastOutcome → Option StreamKey
  | .created _ key => key
  | .rotated key => some key
  | _ => none

/-- The keys handed out by successful calls, newest first. -/
def handedOut (returned : List (BroadcastJob × BroadcastOutcome)) : List StreamKey := returned.filterMap fun r => r.2.key

/-- The row, the history, an event or a response has this key for the stream. -/
def Records (id : String) (s : BroadcastState) (returned : List (BroadcastJob × BroadcastOutcome)) (key : StreamKey) : Prop :=
  s.e2ee[id]? = some key ∨ (∃ generation, s.keyHistory (id, generation) = some key) ∨ (∃ room, ⟨room, id, some key⟩ ∈ s.keyEvents) ∨
    key ∈ handedOut returned

/-! ## Stages of a creation and of a rotation -/

/-- The request touches no stream and no key. -/
def KeyFree : BroadcastRequest → Prop
  | .setStreamKey _ _ | .insertKeyHistory _ _ | .publishE2eeKey .. | .clearE2eeKey _ _ | .endStreamIfActive _
  | .content (.insertStream ..) => False
  | _ => True

/-- The same, or it records this key. -/
def KeyUse (id : String) (key : StreamKey) (q : BroadcastRequest) : Prop :=
  KeyFree q ∨ q = .insertKeyHistory id key ∨ ∃ room, q = .publishE2eeKey room id key

section
variable {α : Type} (given : α → Option StreamKey) (id : String) (key : StreamKey)

section
variable (p : Action α)

/-- No key from here on; `given` is the key in a result. -/
def Keyless : Prop := p.Ends KeyFree fun a => given a = none

/-- This key or none from here on. -/
def Recording : Prop := p.Ends (KeyUse id key) fun a => given a = none ∨ given a = some key

/-- The program stores this key in the row next. -/
def AtSet : Prop :=
  ∃ next, p = .call (.setStreamKey id key) next ∧ Recording given id key (next (.ok ())) ∧ ∀ e, Keyless given (next (.error e))

/-- A rotation reads the row next. -/
def AtKeyRead : Prop :=
  ∃ next, p = .call (.getStream id) next ∧ ∀ r, Keyless given (next r) ∨
    ∃ row old new, r = .ok (some row) ∧ row.e2ee = some old ∧ new.generation = (old.generation + 1) % 4294967296 ∧ AtSet given id new (next r)

/-- A creation inserts the row next. -/
def AtStreamInsert : Prop :=
  ∃ room host sfuRoom min next, p = .call (.content (.insertStream id room host sfuRoom min)) next ∧ (∀ e, Keyless given (next (.error e))) ∧
    (next (.ok ())).Leads KeyFree fun p => AtSet given id key p ∨ Keyless given p

end

end

inductive Keying where
  | inserting (key : StreamKey)
  | reading
  /-- No key has this one's generation yet. -/
  | fresh (key : StreamKey)
  /-- The row has this key. -/
  | placed (key : StreamKey)
  | done

def Keying.Stands (id : String) (p : Action BroadcastOutcome) : Keying → Prop
  | .inserting key => p.Leads KeyFree fun p => AtStreamInsert BroadcastOutcome.key id key p ∨ Keyless BroadcastOutcome.key p
  | .reading => AtKeyRead BroadcastOutcome.key id p
  | .fresh key => p.Leads KeyFree fun p => AtSet BroadcastOutcome.key id key p ∨ Keyless BroadcastOutcome.key p
  | .placed key => Recording BroadcastOutcome.key id key p
  | .done => Keyless BroadcastOutcome.key p

/-! ## What the stages mean for the keys -/

/-- Each generation has one key, and the row the latest. -/
structure KeysOk (id : String) (s : BroadcastState) (returned : List (BroadcastJob × BroadcastOutcome)) : Prop where
  indexed : ∀ generation key, s.keyHistory (id, generation) = some key → key.generation = generation
  one : ∀ a b, Records id s returned a → Records id s returned b → a.generation = b.generation → a = b
  latest : ∀ a, Records id s returned a → ∃ key, s.e2ee[id]? = some key ∧ a.generation ≤ key.generation
  absent : s.content.streams[id]? = none → ∀ key, ¬Records id s returned key
  increasing : (handedOut returned).Pairwise fun a b => b.generation < a.generation

def Keying.Ok (id : String) (s : BroadcastState) (returned : List (BroadcastJob × BroadcastOutcome)) : Keying → Prop
  | .reading => ∀ key, s.e2ee[id]? = some key → key.generation + 1 < 4294967296
  | .fresh key => (s.content.streams[id]?).isSome ∧ ∀ a, Records id s returned a → a.generation < key.generation
  | .placed key => s.e2ee[id]? = some key ∧ ∀ a ∈ handedOut returned, a.generation < key.generation
  | .inserting _ | .done => True

/-- At most one of them is in flight. -/
structure KeysInv (id : String) (s : BroadcastState) (returned : List (BroadcastJob × BroadcastOutcome))
    (notes : Multiset (BroadcastJob × Keying)) : Prop where
  ok : KeysOk id s returned
  alone : notes.card ≤ 1
  stages : ∀ n ∈ notes, n.2.Ok id s returned

/-! ## What keeps it -/

structure SameKeys (s s' : BroadcastState) : Prop where
  streams : s'.content.streams = s.content.streams
  e2ee : s'.e2ee = s.e2ee
  history : s'.keyHistory = s.keyHistory
  events : s'.keyEvents = s.keyEvents

theorem sameKeys_of_free {s s' : BroadcastState} {q} (heffect : s.Effect q s') (hq : KeyFree q) : SameKeys s s' := by
  cases heffect with
  | content effect =>
    cases effect with
    | stream fresh found => exact hq.elim
    | _ => exact ⟨rfl, rfl, rfl, rfl⟩
  | key | history | keyEvent | keyCleared | ended => exact hq.elim
  | _ => exact ⟨rfl, rfl, rfl, rfl⟩

section
variable {id : String} {s s' : BroadcastState} {returned : List (BroadcastJob × BroadcastOutcome)}
  {notes : Multiset (BroadcastJob × Keying)} {k : BroadcastJob} {t t' : Keying} {key : StreamKey}

theorem SameKeys.records (hs : SameKeys s s') {a} : Records id s' returned a ↔ Records id s returned a := by
  unfold Records
  rw [hs.e2ee, hs.history, hs.events]

theorem KeysOk.same (h : KeysOk id s returned) (hs : SameKeys s s') : KeysOk id s' returned where
  indexed := hs.history ▸ h.indexed
  one := fun a b ha hb => h.one a b (hs.records.mp ha) (hs.records.mp hb)
  latest := fun a ha => hs.e2ee ▸ h.latest a (hs.records.mp ha)
  absent := fun hnone a ha => h.absent (hs.streams ▸ hnone) a (hs.records.mp ha)
  increasing := h.increasing

theorem Keying.Ok.same (h : t.Ok id s returned) (hs : SameKeys s s') : t.Ok id s' returned := by
  cases t with
  | reading => exact fun key hkey => h key (hs.e2ee ▸ hkey)
  | fresh key => exact ⟨hs.streams ▸ h.1, fun a ha => h.2 a (hs.records.mp ha)⟩
  | placed key => exact ⟨hs.e2ee ▸ h.1, h.2⟩
  | inserting key | done => trivial

section
variable (h : KeysOk id s returned)
include h

/-- A key that only becomes one more record of the row's. -/
theorem KeysOk.recorded (hrow : s.e2ee[id]? = some key) (hstreams : s'.content.streams = s.content.streams)
    (he2ee : s'.e2ee = s.e2ee) (hindexed : ∀ generation a, s'.keyHistory (id, generation) = some a → a.generation = generation)
    (hrecords : ∀ a, Records id s' returned a → Records id s returned a) : KeysOk id s' returned where
  indexed := hindexed
  one := fun a b ha hb => h.one a b (hrecords a ha) (hrecords b hb)
  latest := fun a ha => he2ee ▸ h.latest a (hrecords a ha)
  absent := fun hnone => absurd (.inl hrow) (h.absent (hstreams ▸ hnone) key)
  increasing := h.increasing

theorem KeysOk.history (hrow : s.e2ee[id]? = some key) :
    KeysOk id { s with keyHistory := Function.update s.keyHistory (id, key.generation) (some key) } returned := by
  have hread : ∀ generation a, Function.update s.keyHistory (id, key.generation) (some key) (id, generation) = some a →
      (generation = key.generation ∧ a = key) ∨ s.keyHistory (id, generation) = some a := by
    intro generation a ha
    rw [Function.update_apply] at ha
    split at ha
    · rename_i heq
      exact .inl ⟨(Prod.mk.inj heq).2, (Option.some.inj ha).symm⟩
    · exact .inr ha
  refine h.recorded hrow rfl rfl (fun generation a ha => ?_) fun a ha => ?_
  · rcases hread generation a ha with ⟨rfl, rfl⟩ | ha
    · rfl
    · exact h.indexed generation a ha
  · rcases ha with ha | ⟨generation, ha⟩ | ha
    · exact .inl ha
    · rcases hread generation a ha with ⟨-, rfl⟩ | ha
      · exact .inl hrow
      · exact .inr (.inl ⟨generation, ha⟩)
    · exact .inr (.inr ha)

theorem KeysOk.event (hrow : s.e2ee[id]? = some key) (room : String) :
    KeysOk id { s with keyEvents := ⟨room, id, some key⟩ :: s.keyEvents } returned := by
  refine h.recorded hrow rfl rfl h.indexed fun a ha => ?_
  rcases ha with ha | ha | ⟨room', ha⟩ | ha
  · exact .inl ha
  · exact .inr (.inl ha)
  · rcases List.mem_cons.mp ha with heq | ha
    · cases heq
      exact .inl hrow
    · exact .inr (.inr (.inl ⟨room', ha⟩))
  · exact .inr (.inr (.inr ha))

/-- A key of a new generation is stored in the row. -/
theorem KeysOk.set (hfresh : (Keying.fresh key).Ok id s returned) : KeysOk id (s.setStreamKey id key) returned ∧
    (Keying.placed key).Ok id (s.setStreamKey id key) returned := by
  obtain ⟨hfound, hbelow⟩ := hfresh
  have hset : s.setStreamKey id key = { s with e2ee := s.e2ee.insert id key } := if_pos hfound
  have hrow : (s.e2ee.insert id key)[id]? = some key := by rw [Table.getElem?_insert, if_pos rfl]
  have hrecords : ∀ a, Records id { s with e2ee := s.e2ee.insert id key } returned a → a = key ∨ Records id s returned a := by
    intro a ha
    rcases ha with ha | ha
    · exact .inl (Option.some.inj (ha.symm.trans hrow))
    · exact .inr (.inr ha)
  rw [hset]
  refine ⟨⟨h.indexed, fun a b ha hb heq => ?_, fun a ha => ⟨key, hrow, ?_⟩, fun hnone => ?_, h.increasing⟩, hrow, fun a ha => ?_⟩
  · rcases hrecords a ha with rfl | hold <;> rcases hrecords b hb with rfl | hold'
    · rfl
    · exact absurd (hbelow b hold') (by omega)
    · exact absurd (hbelow a hold) (by omega)
    · exact h.one a b hold hold' heq
  · rcases hrecords a ha with rfl | ha
    · exact le_rfl
    · exact (hbelow a ha).le
  · rw [show s.content.streams[id]? = none from hnone] at hfound
    cases hfound
  · exact hbelow a (.inr (.inr (.inr ha)))

/-- The row of a new stream. -/
theorem KeysOk.inserted (hnone : s.content.streams[id]? = none) (key : StreamKey) (x : Stream) :
    KeysOk id { s with content := { s.content with streams := s.content.streams.insert id x } } returned ∧
    (Keying.fresh key).Ok id { s with content := { s.content with streams := s.content.streams.insert id x } } returned := by
  have hrow : (s.content.streams.insert id x)[id]? = some x := by rw [Table.getElem?_insert, if_pos rfl]
  refine ⟨⟨h.indexed, h.one, h.latest, fun habsent => ?_, h.increasing⟩, ?_, fun a ha => absurd ha (h.absent hnone a)⟩
  · cases hrow.symm.trans habsent
  · show ((s.content.streams.insert id x)[id]?).isSome
    rw [hrow]
    rfl

end

section
variable (h : KeysInv id s returned ((k, t) ::ₘ notes))
include h

/-- Nothing else is in flight. -/
theorem KeysInv.only : notes = 0 := eq_zero_of_card_cons h.alone

theorem KeysInv.restage (hok : KeysOk id s' returned) (hstage : t'.Ok id s' returned) :
    KeysInv id s' returned ((k, t') ::ₘ notes) := by
  obtain rfl := h.only
  exact ⟨hok, h.alone, forall_mem_cons.mpr ⟨hstage, fun _ hn => absurd hn (notMem_zero _)⟩⟩

theorem KeysInv.stage : t.Ok id s returned := h.stages _ (mem_cons_self _ _)

end

/-! ### Steps -/

variable {a : BroadcastOutcome} {fate : CallFate}

theorem insertStream_fresh {c : ContentState} {host room sfuRoom min}
    (h : (c.request (.insertStream id room host sfuRoom min) fate).2 = .ok ()) : c.streams[id]? = none ∧
      (c.request (.insertStream id room host sfuRoom min) fate).1 =
        { c with streams := c.streams.insert id ⟨room, host, .active, sfuRoom, c.utcNow, min⟩ } := by
  simp only [ContentState.request, ContentState.writeUnit, ContentState.write] at h ⊢
  cases hinsert : c.insertStream id ⟨room, host, .active, sfuRoom, c.utcNow, min⟩ with
  | error e =>
    rw [hinsert] at h
    exact absurd (CallFate.answer_eq_ok.mp h).2 (by simp)
  | ok stored =>
    rw [hinsert] at h
    obtain ⟨rfl, -⟩ := CallFate.answer_eq_ok.mp h
    unfold ContentState.insertStream at hinsert
    split at hinsert
    · cases hinsert
    rename_i hfresh
    split at hinsert
    · cases hinsert
    cases hinsert
    exact ⟨by simpa using hfresh, rfl⟩

/-- The insert of the row, whatever the caller sees of it. -/
theorem KeysInv.insert {room : Int} {host : String} {sfuRoom : Option String} {min : Option Int}
    (h : KeysInv id s returned ((k, .inserting key) ::ₘ notes)) {next : Except String Unit → Action BroadcastOutcome}
    (herror : ∀ e, Keyless BroadcastOutcome.key (next (.error e)))
    (hok : (next (.ok ())).Leads KeyFree fun p => AtSet BroadcastOutcome.key id key p ∨ Keyless BroadcastOutcome.key p) :
    ∃ t', t'.Stands id (next (s.request (.content (.insertStream id room host sfuRoom min)) fate).2) ∧
      KeysInv id (s.request (.content (.insertStream id room host sfuRoom min)) fate).1 returned ((k, t') ::ₘ notes) := by
  cases hreply : (s.request (.content (.insertStream id room host sfuRoom min)) fate).2 with
  | ok a =>
    obtain ⟨hnone, hcontent⟩ := insertStream_fresh hreply
    have hstate : (s.request (.content (.insertStream id room host sfuRoom min)) fate).1 =
        { s with content := { s.content with streams := s.content.streams.insert id ⟨room, host, .active, sfuRoom, s.content.utcNow, min⟩ } } :=
      congrArg (fun c => { s with content := c }) hcontent
    obtain ⟨hkeys, hfresh⟩ := h.ok.inserted hnone key ⟨room, host, .active, sfuRoom, s.content.utcNow, min⟩
    rw [hstate]
    exact ⟨.fresh key, hok, h.restage hkeys hfresh⟩
  | error e =>
    refine ⟨.done, herror e, h.restage ?_ trivial⟩
    have heffect := s.request_effect (.content (.insertStream id room host sfuRoom min)) fate
    generalize (s.request (.content (.insertStream id room host sfuRoom min)) fate).1 = s' at heffect
    cases heffect with
    | none => exact h.ok
    | content effect =>
      cases effect with
      | none => exact h.ok
      | stream fresh found => exact (h.ok.inserted fresh key _).1

/-- What a rotation read of the row. -/
theorem KeysInv.read (h : KeysInv id s returned ((k, .reading) ::ₘ notes))
    {next : Except String (Option StreamRow) → Action BroadcastOutcome}
    (hnext : ∀ r, Keyless BroadcastOutcome.key (next r) ∨ ∃ row old new, r = .ok (some row) ∧ row.e2ee = some old ∧
      new.generation = (old.generation + 1) % 4294967296 ∧ AtSet BroadcastOutcome.key id new (next r)) :
    ∃ t', t'.Stands id (next (s.request (.getStream id) fate).2) ∧
      KeysInv id (s.request (.getStream id) fate).1 returned ((k, t') ::ₘ notes) := by
  rcases hnext (s.request (.getStream id) fate).2 with hkeyless | ⟨row, old, new, hreply, hold, hnew, hset⟩
  · exact ⟨.done, hkeyless, h.restage h.ok trivial⟩
  · refine ⟨.fresh new, .here (.inl hset), h.restage h.ok ?_⟩
    have hrow : s.getStream id = some row := Except.ok.inj (CallFate.answer_eq_ok.mp hreply).2
    obtain ⟨x, hx, rfl⟩ := Option.map_eq_some_iff.mp hrow
    have hbound := h.stage old hold
    refine ⟨Option.isSome_iff_exists.mpr ⟨x, hx⟩, fun a ha => ?_⟩
    obtain ⟨latest, hlatest, hle⟩ := h.ok.latest a ha
    cases hold.symm.trans hlatest
    omega

/-- The row gets its key, whatever the caller sees of it. -/
theorem KeysInv.set (h : KeysInv id s returned ((k, .fresh key) ::ₘ notes)) {next : Except String Unit → Action BroadcastOutcome}
    (hok : Recording BroadcastOutcome.key id key (next (.ok ()))) (herror : ∀ e, Keyless BroadcastOutcome.key (next (.error e))) :
    ∃ t', t'.Stands id (next (s.request (.setStreamKey id key) fate).2) ∧
      KeysInv id (s.request (.setStreamKey id key) fate).1 returned ((k, t') ::ₘ notes) := by
  obtain ⟨hkeys, hplaced⟩ := h.ok.set h.stage
  cases hreply : (s.request (.setStreamKey id key) fate).2 with
  | ok a =>
    obtain ⟨-, s', hresult, hstate⟩ := CallFate.write_eq_ok hreply
    cases hresult
    rw [show (s.request (.setStreamKey id key) fate).1 = s.setStreamKey id key from hstate]
    exact ⟨.placed key, hok, h.restage hkeys hplaced⟩
  | error e =>
    refine ⟨.done, herror e, h.restage ?_ trivial⟩
    have heffect := s.request_effect (.setStreamKey id key) fate
    generalize (s.request (.setStreamKey id key) fate).1 = s' at heffect
    cases heffect with
    | none => exact h.ok
    | key => exact hkeys

/-- One more place gets the key of the row. -/
theorem KeysInv.use {q} (h : KeysInv id s returned ((k, .placed key) ::ₘ notes)) (hq : KeyUse id key q)
    (heffect : s.Effect q s') : KeysInv id s' returned ((k, .placed key) ::ₘ notes) := by
  rcases hq with hq | rfl | ⟨room, rfl⟩
  · have hs := sameKeys_of_free heffect hq
    exact h.restage (h.ok.same hs) (h.stage.same hs)
  · cases heffect with
    | none => exact h
    | history => exact h.restage (h.ok.history h.stage.1) h.stage
  · cases heffect with
    | none => exact h
    | keyEvent => exact h.restage (h.ok.event h.stage.1 room) h.stage

/-- **One step of a creation or a rotation.** -/
theorem KeysInv.request {q : BroadcastRequest} {next : q.Reply → Action BroadcastOutcome}
    (h : KeysInv id s returned ((k, t) ::ₘ notes)) (hstands : t.Stands id (.call q next)) :
    ∃ t', t'.Stands id (next (s.request q fate).2) ∧ KeysInv id (s.request q fate).1 returned ((k, t') ::ₘ notes) := by
  have hsame : KeyFree q → KeysInv id (s.request q fate).1 returned ((k, t) ::ₘ notes) := fun hq =>
    have hs := sameKeys_of_free (s.request_effect q fate) hq
    h.restage (h.ok.same hs) (h.stage.same hs)
  have hkeyless : Keyless BroadcastOutcome.key (.call q next) →
      ∃ t', t'.Stands id (next (s.request q fate).2) ∧ KeysInv id (s.request q fate).1 returned ((k, t') ::ₘ notes) := by
    intro hends
    cases hends with
    | call hq hnext => exact ⟨.done, hnext _, (hsame hq).restage (hsame hq).ok trivial⟩
    | here hret =>
      obtain ⟨a, heq, -⟩ := hret
      cases heq
  cases t with
  | inserting key =>
    cases hstands with
    | call hq hnext => exact ⟨.inserting key, hnext _, hsame hq⟩
    | here hat =>
      rcases hat with ⟨room, host, sfuRoom, min, next', heq, herror, hok⟩ | hends
      · cases heq
        exact h.insert herror hok
      · exact hkeyless hends
  | reading =>
    obtain ⟨next', heq, hnext⟩ := hstands
    cases heq
    exact h.read hnext
  | fresh key =>
    cases hstands with
    | call hq hnext => exact ⟨.fresh key, hnext _, hsame hq⟩
    | here hat =>
      rcases hat with ⟨next', heq, hok, herror⟩ | hends
      · cases heq
        exact h.set hok herror
      · exact hkeyless hends
  | placed key =>
    cases hstands with
    | call hq hnext => exact ⟨.placed key, hnext _, h.use hq (s.request_effect _ _)⟩
    | here hret =>
      obtain ⟨a, heq, -⟩ := hret
      cases heq
  | done => exact hkeyless hstands

/-! ### Coming and going -/

theorem handedOut_cons (a : BroadcastOutcome) : handedOut ((k, a) :: returned) =
    (match a.key with | some key => key :: handedOut returned | none => handedOut returned) := by
  unfold handedOut
  cases hkey : a.key with
  | none | some => simp [hkey]

/-- A response with the key of the row. -/
theorem KeysOk.respond (h : KeysOk id s returned) (hplaced : (Keying.placed key).Ok id s returned) (ha : a.key = some key) :
    KeysOk id s ((k, a) :: returned) := by
  have hhanded : handedOut ((k, a) :: returned) = key :: handedOut returned := by rw [handedOut_cons, ha]
  have hrecords : ∀ b, Records id s ((k, a) :: returned) b → Records id s returned b := by
    rintro b (hb | hb | hb | hb)
    · exact .inl hb
    · exact .inr (.inl hb)
    · exact .inr (.inr (.inl hb))
    · rw [hhanded] at hb
      rcases List.mem_cons.mp hb with rfl | hb
      · exact .inl hplaced.1
      · exact .inr (.inr (.inr hb))
  refine ⟨h.indexed, fun b c hb hc => h.one b c (hrecords b hb) (hrecords c hc), fun b hb => h.latest b (hrecords b hb),
    fun hnone b hb => h.absent hnone b (hrecords b hb), ?_⟩
  rw [hhanded]
  exact List.pairwise_cons.mpr ⟨hplaced.2, h.increasing⟩

/-- A response without one. -/
theorem KeysOk.ignore (h : KeysOk id s returned) (ha : a.key = none) : KeysOk id s ((k, a) :: returned) := by
  have hhanded : handedOut ((k, a) :: returned) = handedOut returned := by rw [handedOut_cons, ha]
  have hrecords : ∀ b, Records id s ((k, a) :: returned) b ↔ Records id s returned b := by
    intro b
    unfold Records
    rw [hhanded]
  exact ⟨h.indexed, fun b c hb hc => h.one b c ((hrecords b).mp hb) ((hrecords c).mp hc), fun b hb => h.latest b ((hrecords b).mp hb),
    fun hnone b hb => h.absent hnone b ((hrecords b).mp hb), hhanded ▸ h.increasing⟩

theorem KeysInv.finish (h : KeysInv id s returned ((k, t) ::ₘ notes)) (hstands : t.Stands id (.ret a)) :
    KeysInv id s ((k, a) :: returned) notes := by
  have hok : KeysOk id s ((k, a) :: returned) := by
    cases t with
    | inserting key =>
      cases hstands with
      | here hat =>
        rcases hat with ⟨room, host, sfuRoom, min, next, heq, -⟩ | hkeyless
        · cases heq
        · exact h.ok.ignore hkeyless.of_ret
    | reading =>
      obtain ⟨next, heq, -⟩ := hstands
      cases heq
    | fresh key =>
      cases hstands with
      | here hat =>
        rcases hat with ⟨next, heq, -⟩ | hkeyless
        · cases heq
        · exact h.ok.ignore hkeyless.of_ret
    | placed key =>
      rcases Prog.Ends.of_ret hstands with hnone | hsome
      · exact h.ok.ignore hnone
      · exact h.ok.respond h.stage hsome
    | done => exact h.ok.ignore (Prog.Ends.of_ret (Q := fun a : BroadcastOutcome => a.key = none) hstands)
  obtain rfl := h.only
  exact ⟨hok, Nat.zero_le _, fun _ hn => absurd hn (notMem_zero _)⟩

end

/-! ## The programs -/

section
variable {α β : Type} {given : α → Option StreamKey} {given' : β → Option StreamKey} {g : α → β} {id user : String} {key : StreamKey}
  {p : Action α}

/-! A result that is only put into a response. -/

theorem Keyless.map (h : Keyless given p) (hg : ∀ a, given' (g a) = given a) : Keyless given' (p.bind fun a => .ret (g a)) :=
  h.bind fun a ha => Prog.Ends.ret ((hg a).trans ha)

theorem Recording.map (h : Recording given id key p) (hg : ∀ a, given' (g a) = given a) :
    Recording given' id key (p.bind fun a => .ret (g a)) :=
  h.bind fun a ha => Prog.Ends.ret (by rw [hg]; exact ha)

theorem AtSet.map (h : AtSet given id key p) (hg : ∀ a, given' (g a) = given a) : AtSet given' id key (p.bind fun a => .ret (g a)) := by
  obtain ⟨next, rfl, hok, herror⟩ := h
  exact ⟨_, rfl, hok.map hg, fun e => (herror e).map hg⟩

theorem AtKeyRead.map (h : AtKeyRead given id p) (hg : ∀ a, given' (g a) = given a) : AtKeyRead given' id (p.bind fun a => .ret (g a)) := by
  obtain ⟨next, rfl, hnext⟩ := h
  refine ⟨_, rfl, fun r => ?_⟩
  rcases hnext r with hkeyless | ⟨row, old, new, hr, hold, hnew, hset⟩
  · exact .inl (hkeyless.map hg)
  · exact .inr ⟨row, old, new, hr, hold, hnew, hset.map hg⟩

theorem AtStreamInsert.map (h : AtStreamInsert given id key p) (hg : ∀ a, given' (g a) = given a) :
    AtStreamInsert given' id key (p.bind fun a => .ret (g a)) := by
  obtain ⟨room, host, sfuRoom, min, next, rfl, herror, hok⟩ := h
  refine ⟨room, host, sfuRoom, min, _, rfl, fun e => (herror e).map hg, Prog.Leads.followed hok fun p hp => .here ?_⟩
  rcases hp with hset | hkeyless
  · exact .inl (hset.map hg)
  · exact .inr (hkeyless.map hg)

/-! ### Rotations -/

theorem distributeKey_records {row} : Recording Except.toOption id key (distributeKey id row key) := by
  refine .call (.inl trivial) fun r => ?_
  match r with
  | .error e => exact Prog.Ends.ret (.inl rfl)
  | .ok none => exact Prog.Ends.ret (.inr rfl)
  | .ok (some room) => exact .call (.inr (.inr ⟨room.matrixRoomId, rfl⟩)) fun _ => Prog.Ends.ret (.inr rfl)

theorem rotateStreamKey_reads {key} : AtKeyRead Except.toOption id (rotateStreamKey user id key) := by
  refine ⟨_, rfl, fun r => ?_⟩
  match r with
  | .error e => exact .inl (Prog.Ends.ret rfl)
  | .ok none => exact .inl (Prog.Ends.ret rfl)
  | .ok (some row) =>
    dsimp only [orNotFound, orDatabase, orError]
    split
    · exact .inl (Prog.Ends.ret rfl)
    split
    · exact .inl (Prog.Ends.ret rfl)
    · rename_i old hold
      refine .inr ⟨row, old, ⟨(old.generation + 1) % 4294967296, key.keyId, key.keyB64, old.algorithm⟩, rfl, hold, rfl, _, rfl, ?_, ?_⟩
      · refine .call (.inr (.inl rfl)) fun r => ?_
        cases r with
        | error e => exact Prog.Ends.ret (.inl rfl)
        | ok a => exact distributeKey_records
      · exact fun e => Prog.Ends.ret rfl

/-! ### Creations -/

/-- A content call that `create_stream` carries out as it is. -/
def ContentKeyFree : ContentRequest → Prop
  | .setStreamE2eeKey _ | .generateToken _ | .insertStream .. => False
  | _ => True

theorem interp_keyFree {cfg body newId key} {p : ContentAction α}
    (h : p.Uses ContentKeyFree) : (p.interp (createCalls cfg body newId key)).Uses KeyFree := by
  refine h.interp fun q hq => ?_
  cases q with
  | setStreamE2eeKey | generateToken | insertStream => exact hq.elim
  | _ => exact ⟨trivial, fun _ => trivial⟩

/-- The key of a successful creation. -/
def createdKey (cfg : BroadcastConfig) (body : CreateStreamRequest) (key : E2eeKey) : Except MMError String → Option StreamKey
  | .ok _ => if body.e2ee then some (firstKey cfg key) else none
  | .error _ => none

section
variable {cfg : BroadcastConfig} {body : CreateStreamRequest} {newId sfuName : String} {key : E2eeKey}

/-- The events and the token, with the key in the row. -/
theorem hostToken_records (he2ee : body.e2ee = true) : Recording (createdKey cfg body key) newId (firstKey cfg key)
    ((hostToken user newId).interp (createCalls cfg body newId key)) := by
  refine .call (.inl trivial) fun _ => ?_
  rw [if_pos he2ee]
  refine .call (.inr (.inr ⟨body.roomId, rfl⟩)) fun _ => .call (.inl trivial) fun r => ?_
  cases r with
  | error e => exact Prog.Ends.ret (.inl rfl)
  | ok a => exact Prog.Ends.ret (.inr (if_pos he2ee))

/-- The same for a stream without a key. -/
theorem hostToken_keyless (he2ee : ¬body.e2ee = true) :
    Keyless (createdKey cfg body key) ((hostToken user newId).interp (createCalls cfg body newId key)) := by
  refine .call trivial fun _ => ?_
  rw [if_neg he2ee]
  refine .call trivial fun r => ?_
  cases r with
  | error e => exact Prog.Ends.ret rfl
  | ok a => exact Prog.Ends.ret (if_neg he2ee)

theorem addHost_leads : ((addHost user newId body.e2ee).interp (createCalls cfg body newId key)).Leads KeyFree
    fun p => AtSet (createdKey cfg body key) newId (firstKey cfg key) p ∨ Keyless (createdKey cfg body key) p := by
  refine .call trivial fun r => ?_
  cases r with
  | error e => exact .here (.inr (Prog.Ends.ret rfl))
  | ok a =>
    dsimp only [orDatabase, orError, Prog.bind]
    by_cases he2ee : body.e2ee = true
    · rw [if_pos he2ee]
      refine .here (.inl ⟨_, rfl, .call (.inr (.inl rfl)) fun r => ?_, fun e => Prog.Ends.ret rfl⟩)
      cases r with
      | error e => exact Prog.Ends.ret (.inl rfl)
      | ok a => exact hostToken_records he2ee
    · rw [if_neg he2ee]
      exact .here (.inr (hostToken_keyless he2ee))

theorem startStream_leads (level : Fin 6) :
    ((startStream user newId body.e2ee level).interp (createCalls cfg body newId key)).Leads KeyFree
      fun p => AtSet (createdKey cfg body key) newId (firstKey cfg key) p ∨ Keyless (createdKey cfg body key) p := by
  unfold startStream
  split
  · exact .call trivial fun _ => addHost_leads
  · exact addHost_leads

theorem effectiveMinTier_keyFree : (effectiveMinTier cfg.content user body.minTier).Uses ContentKeyFree := by
  unfold effectiveMinTier
  split
  · trivial
  · split
    · exact ⟨trivial, fun _ => trivial⟩
    · trivial

theorem checkCanHost_keyFree {room} : (checkCanHost cfg.content room user).Uses ContentKeyFree := by
  unfold checkCanHost
  split
  · refine ⟨trivial, fun r => uses_orError fun allowed => ?_⟩
    cases allowed with
    | none => trivial
    | some users =>
      dsimp only
      split <;> trivial
  · trivial

theorem openStream_inserts (room : Int) :
    ((openStream cfg.content user body newId sfuName room).interp (createCalls cfg body newId key)).Leads KeyFree
      fun p => AtStreamInsert (createdKey cfg body key) newId (firstKey cfg key) p ∨ Keyless (createdKey cfg body key) p := by
  unfold openStream
  split
  · exact .here (.inr (Prog.Ends.ret rfl))
  split
  · exact .here (.inr (Prog.Ends.ret rfl))
  refine .call trivial fun r => ?_
  cases r with
  | error e => exact .here (.inr (Prog.Ends.ret rfl))
  | ok a =>
    refine .here (.inl ⟨room, user, some sfuName, body.minTierLevel, _, rfl, fun e => Prog.Ends.ret rfl, ?_⟩)
    dsimp only [orDatabase, orError, Prog.bind]
    rw [Prog.interp_bind]
    exact .bind (interp_keyFree effectiveMinTier_keyFree) startStream_leads

theorem createStream_inserts : (createStream cfg user body newId sfuName key).Leads KeyFree
    fun p => AtStreamInsert (createdKey cfg body key) newId (firstKey cfg key) p ∨ Keyless (createdKey cfg body key) p := by
  refine .call trivial fun suspended => ?_
  dsimp only [Prog.bind]
  split
  · exact .here (.inr (Prog.Ends.ret rfl))
  rw [Prog.andThen, Prog.interp_bind]
  refine .bind (interp_keyFree checkCanHost_keyFree) fun allowed => ?_
  cases allowed with
  | error e => exact .here (.inr (Prog.Ends.ret rfl))
  | ok a =>
    refine .call trivial fun r => ?_
    cases r with
    | error e => exact .here (.inr (Prog.Ends.ret rfl))
    | ok room =>
      refine .call trivial fun r => ?_
      match r with
      | .error e => exact .here (.inr (Prog.Ends.ret rfl))
      | .ok (some active) => exact .here (.inr (Prog.Ends.ret rfl))
      | .ok none => exact openStream_inserts room.1

end

theorem keys_stands {cfg} {k : BroadcastJob} (hk : k.keys = some id) :
    ∃ t : Keying, t.Stands id (k.program cfg) ∧ (t = .reading ∨ ∃ key, t = .inserting key) := by
  cases k with
  | createStream n user body newId sfuName key =>
    cases hk
    refine ⟨.inserting (firstKey cfg key), Prog.Leads.followed createStream_inserts fun p hp => .here ?_, .inr ⟨_, rfl⟩⟩
    rcases hp with hinsert | hkeyless
    · exact .inl (hinsert.map fun r => by cases r <;> rfl)
    · exact .inr (hkeyless.map fun r => by cases r <;> rfl)
  | rotateStreamKey n user id' key =>
    cases hk
    refine ⟨.reading, rotateStreamKey_reads.map fun r => ?_, .inl rfl⟩
    cases r <;> rfl
  | _ => cases hk

/-! ## Runs -/

/-- Only keys of the stream are made and rotated. -/
def KeyRuns (id : String) : BroadcastEvent → Prop := Event.Starts fun k => k.keys = some id

/-- One at a time, with generations left. -/
def KeysApart (id : String) (pool : BroadcastPool) : BroadcastEvent → Prop :=
  Event.Starts fun _ => pool.running.isEmpty = true ∧ ∀ key ∈ pool.state.e2ee[id]?, key.generation + 1 < 4294967296

instance decidableKeyRuns (id : String) (e : BroadcastEvent) : Decidable (KeyRuns id e) := inferInstanceAs (Decidable (Event.Starts _ e))

instance decidableKeysApart (id : String) (pool : BroadcastPool) (e : BroadcastEvent) : Decidable (KeysApart id pool e) :=
  inferInstanceAs (Decidable (Event.Starts _ e))

/-- The stage of the creation or rotation in flight. -/
def keysOutline (cfg : BroadcastConfig) (id : String) :
    Outline broadcastService (BroadcastJob.program cfg) (fun pool e => KeyRuns id e ∧ KeysApart id pool e) Keying where
  stands := fun _ p t => t.Stands id p
  inv := fun s returned notes => KeysInv id s returned notes
  start := by
    intro pool k notes hinv hjobs hok
    obtain ⟨hk, hempty, hroom⟩ := hok
    obtain ⟨t, hstands, ht⟩ : ∃ t : Keying, t.Stands id (k.program cfg) ∧ (t = .reading ∨ ∃ key, t = .inserting key) := keys_stands hk
    rw [List.isEmpty_iff.mp hempty] at hjobs
    obtain rfl := map_eq_zero.mp hjobs
    refine ⟨t, hstands, hinv.ok, Nat.le_refl _, forall_mem_cons.mpr ⟨?_, hinv.stages⟩⟩
    rcases ht with rfl | ⟨key, rfl⟩
    · exact hroom
    · trivial
  request := by
    intro pool place k q next fate t notes hstands hinv hjobs hplace hok
    exact hinv.request hstands
  finish := by
    intro s returned k a t notes hstands hinv
    exact hinv.finish hstands
  move := by
    intro pool m notes hinv hok
    have hs : SameKeys pool.state (pool.state.move m) := by cases m <;> exact ⟨rfl, rfl, rfl, rfl⟩
    exact ⟨hinv.ok.same hs, hinv.alone, fun n hn => (hinv.stages n hn).same hs⟩
  die := by
    intro pool notes hinv hok
    exact ⟨hinv.ok, Nat.zero_le _, fun _ hn => absurd hn (notMem_zero _)⟩

/-- **A generation names one key**, when the creations and rotations of a stream do not overlap
and the counter does not wrap around, whatever fails on the way: the generations handed out
increase, every place that has a key of a generation has the same one, and the row has the key of
the greatest. -/
theorem generation_names_key (cfg : BroadcastConfig) (id : String) (s₀ : BroadcastState) (hstart : KeysOk id s₀ []) (h : List BroadcastEvent)
    (pool : BroadcastPool)
    (run : Run (broadcastStep cfg) (fun _ pool e => KeyRuns id e ∧ KeysApart id pool e) ⟨s₀, [], []⟩ h pool) :
    ((handedOut pool.returned).Pairwise fun a b => b.generation < a.generation) ∧
    (∀ generation key, pool.state.keyHistory (id, generation) = some key → key.generation = generation) ∧
    (∀ a b, Records id pool.state pool.returned a → Records id pool.state pool.returned b → a.generation = b.generation → a = b) ∧
    ∀ a, Records id pool.state pool.returned a → ∃ key, pool.state.e2ee[id]? = some key ∧ a.generation ≤ key.generation := by
  have hinit : KeysInv id s₀ [] 0 := ⟨hstart, Nat.zero_le _, fun _ hn => absurd hn (notMem_zero _)⟩
  obtain ⟨notes, -, -, hinv⟩ := (Outline.sound_start (O := keysOutline cfg id) hinit).run run
  exact ⟨hinv.ok.increasing, hinv.ok.indexed, hinv.ok.one, hinv.ok.latest⟩

end

/-- `@alice` starts an encrypted stream. -/
def createEncrypted : List BroadcastEvent :=
  .start (.createStream 1 "@alice" ⟨"!room", true, none, none⟩ "live" "mm-live" ⟨"k1", "b1"⟩) :: List.replicate 13 (.request 0 .served)

theorem keys_empty : KeysOk "live" (.empty 0 ⟨∅, ∅⟩) [] := by
  have hnone : ∀ key, ¬Records "live" (.empty 0 ⟨∅, ∅⟩) [] key := by
    rintro key (hkey | ⟨generation, hkey⟩ | ⟨room, hkey⟩ | hkey)
    · cases TreeMap.getElem?_emptyc.symm.trans hkey
    · cases hkey
    · cases hkey
    · cases hkey
  exact ⟨fun generation key hkey => (by cases hkey), fun a b ha => absurd ha (hnone a), fun a ha => absurd ha (hnone a), fun _ => hnone, .nil⟩

/-- And rotates the key. -/
def createThenRotate : List BroadcastEvent :=
  createEncrypted ++ (.start (.rotateStreamKey 2 "@alice" "live" ⟨"k2", "b2"⟩) :: List.replicate 5 (.request 0 .served) : List BroadcastEvent)

theorem generation_names_key_in_turn : ∃ h pool,
    Run (broadcastStep originConfig) (fun _ pool e => KeyRuns "live" e ∧ KeysApart "live" pool e) ⟨.empty 0 ⟨∅, ∅⟩, [], []⟩ h pool ∧
    (handedOut pool.returned).length = 2 ∧ (handedOut pool.returned).Pairwise fun a b => b.generation < a.generation := by
  apply Run.exists_and_of_follows (P := fun pool => (handedOut pool.returned).length = 2) createThenRotate (by decide +kernel)
  intro h pool run htwo
  exact ⟨htwo, (generation_names_key originConfig "live" _ keys_empty _ _ run).1⟩

/-- Two rotations read the row before either stores its key. -/
def rotateTogether : List BroadcastEvent :=
  createEncrypted ++
  ([.start (.rotateStreamKey 2 "@alice" "live" ⟨"k2", "b2"⟩), .request 0 .served] : List BroadcastEvent) ++
  (.start (.rotateStreamKey 3 "@alice" "live" ⟨"k3", "b3"⟩) :: List.replicate 9 (.request 0 .served) : List BroadcastEvent)

/-- Two keys are handed out under one generation. -/
theorem two_keys_one_generation : ∃ s₀ h pool a b, KeysOk "live" s₀ [] ∧
    Run (broadcastStep originConfig) (fun _ _ e => KeyRuns "live" e) ⟨s₀, [], []⟩ h pool ∧ a ∈ handedOut pool.returned ∧
    b ∈ handedOut pool.returned ∧ a.generation = b.generation ∧ a ≠ b := by
  obtain ⟨h, pool, run, hone, htwo⟩ : ∃ h pool, Run (broadcastStep originConfig) (fun _ _ e => KeyRuns "live" e) ⟨.empty 0 ⟨∅, ∅⟩, [], []⟩ h pool ∧
      ⟨2, "k2", "b2", "aes-gcm"⟩ ∈ handedOut pool.returned ∧ ⟨2, "k3", "b3", "aes-gcm"⟩ ∈ handedOut pool.returned :=
    Run.exists_of_follows rotateTogether (by decide +kernel)
  exact ⟨_, h, pool, _, _, keys_empty, run, hone, htwo, rfl, by decide⟩

end MatrixMedia.Broadcast

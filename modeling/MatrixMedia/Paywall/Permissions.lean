import MatrixMedia.Lib.Cache
import MatrixMedia.Paywall.Tables

/-!
# Cached permissions

`effective_permissions` of `mm-api/src/middleware/tier_gate.rs` as a read-through cache:
permissions depend on the subscriber, the creator and the room, and the cache is keyed by
the subscriber and the room. So an answer is one to the question asked when a user asks
about one creator per room (`permissions_answer_the_question`), and need not be when a room
has content of two creators (`permissions_mix_creators`).
-/

namespace MatrixMedia.Paywall
open Lib Lib.Chrono
open Std (TreeMap)

/-- The world at one moment: the clocks, the tables, and which queries would succeed. -/
structure Instant where
  /-- Nanoseconds of the monotonic clock. -/
  clock : Nat
  utcNow : DateTime
  tables : Tables
  activeAnswers : Bool
  spectatorAnswers : Bool

structure Question where
  subscriber : String
  creator : String
  room : String
deriving DecidableEq

/-- `resolve_effective_permissions`. -/
def resolveEffectivePermissions (pgPool : Bool) (i : Instant) (q : Question) : TierPermissions :=
  if pgPool then i.tables.resolveWithPool i.utcNow q.subscriber q.creator q.room i.activeAnswers i.spectatorAnswers
  else .spectatorDefault

/-- `AppState::permissions_cache`, with `effective_permissions` its `ask`. -/
def effectivePermissions (pgPool : Bool) : ReadThrough (String × String) TierPermissions Question Instant where
  ttl := 60 * 1000000000
  clock := Instant.clock
  key q := (q.subscriber, q.room)
  answer := resolveEffectivePermissions pgPool

abbrev PermissionsState : Type := ReadThrough.State (String × String) TierPermissions Question Instant

abbrev PermissionsStep : Type := ReadThrough.Step (String × String) Question Instant

/-- A user asks about one creator in each room. -/
def OneCreator (s : PermissionsState) : PermissionsStep → Prop
  | .ask q => ∀ a ∈ s.answered, a.question.subscriber = q.subscriber → a.question.room = q.room → a.question.creator = q.creator
  | _ => True

instance OneCreator.decidable (s : PermissionsState) : (e : PermissionsStep) → Decidable (OneCreator s e)
  | .ask _ => inferInstanceAs (Decidable (∀ a ∈ s.answered, _))
  | .pass _ | .drop _ => isTrue trivial

/-- **A cached permission is an answer to the same question**, when each user asks about one
creator per room: it is what `resolve_effective_permissions` would have returned for the same
subscriber, creator and room at an instant of the last 60 seconds. -/
theorem permissions_answer_the_question (pgPool : Bool) (i : Instant) (steps : List PermissionsStep) (s : PermissionsState)
    (run : Run (effectivePermissions pgPool).step (fun _ s e => OneCreator s e) (ReadThrough.start i) steps s) :
    ∀ a ∈ s.answered, ∃ past ∈ a.instants, (∀ now ∈ a.instants.head?, now.clock < past.clock + 60 * 1000000000) ∧
      a.value = resolveEffectivePermissions pgPool past a.question := by
  refine ReadThrough.fresh_of_run (R := effectivePermissions pgPool) (by decide : 0 < 60 * 1000000000) (run.mono fun _ s e hone => ?_)
  cases e with
  | ask q =>
    intro a ha hkey
    obtain ⟨hsubscriber, hroom⟩ := Prod.ext_iff.mp hkey
    have hcreator := hone a ha hsubscriber hroom
    obtain ⟨⟨subscriber, creator, room⟩, value, instants⟩ := a
    cases hsubscriber
    cases hroom
    cases hcreator
    rfl
  | pass | drop => trivial

/-- `@fan` has an active subscription to `@alice`, with a paid tier's permissions. -/
def fanOfAlice : Instant where
  clock := 0
  utcNow := 0
  tables :=
    let gold : Tier := ⟨some "@alice", "Gold", 2, true, none, .obj ((TierPermissions.fields.take 7).map (·, .bool true))⟩
    let fan : Subscription := ⟨"@fan", "@alice", "t1", .active, some "sub_1", 1000, none⟩
    ⟨TreeMap.ofList [("t1", gold)], TreeMap.ofList [("s1", fan)]⟩
  activeAnswers := true
  spectatorAnswers := true

/-- `@fan` asks about `@alice` in a room, and a second later again. -/
def oneHost : List PermissionsStep :=
  [.ask ⟨"@fan", "@alice", "!room"⟩, .pass { fanOfAlice with clock := 1000000000 }, .ask ⟨"@fan", "@alice", "!room"⟩]

theorem permissions_answer_oneHost :
    ∃ steps s, Run (effectivePermissions true).step (fun _ s e => OneCreator s e) (ReadThrough.start fanOfAlice) steps s ∧
      s.answered.length = 2 ∧ ∀ a ∈ s.answered, ∃ past ∈ a.instants,
        a.value = resolveEffectivePermissions true past a.question := by
  obtain ⟨steps, s, run, htwo⟩ :
      ∃ steps s, Run (effectivePermissions true).step (fun _ s e => OneCreator s e) (ReadThrough.start fanOfAlice) steps s ∧
        s.answered.length = 2 := Run.exists_of_follows oneHost (by decide +kernel)
  refine ⟨steps, s, run, htwo, fun a ha => ?_⟩
  obtain ⟨past, hpast, -, hvalue⟩ := permissions_answer_the_question true fanOfAlice _ _ run a ha
  exact ⟨past, hpast, hvalue⟩

/-- `@bob` hosts in the same room: the second answer is a subscriber's permissions, where `@fan` has
no subscription. -/
def twoHosts : List PermissionsStep := [.ask ⟨"@fan", "@alice", "!room"⟩, .ask ⟨"@fan", "@bob", "!room"⟩]

/-- The answer about one host is given for the other. -/
theorem permissions_mix_creators :
    ∃ steps s, Run (effectivePermissions true).step (fun _ _ _ => True) (ReadThrough.start fanOfAlice) steps s ∧
      ∃ a ∈ s.answered, ∀ past ∈ a.instants, a.value ≠ resolveEffectivePermissions true past a.question :=
  Run.exists_of_follows twoHosts (by decide +kernel)

end MatrixMedia.Paywall

import MatrixMedia.Paywall.Entitlement

/-!
# Cancelled means cancelled

What the caches hold about a pair comes from the table, but a check writes back what it read
earlier, and an entry is returned without looking at its own expiry. So an invalidation does
its work when no check of the pair runs beside it (`cancelled_means_cancelled`), and not
otherwise (`stale_after_invalidate`).

`holding`: values that are `Good` stay the only ones in the caches when the table gives no others, such
as `none` for a cancelled pair. `InTime`: nothing that is cached or in hand is over, as long as nothing
ends that is.
-/

namespace MatrixMedia.Paywall

open Lib Lib.Chrono Lib.Interaction EntitlementState

open Std (TreeMap)

variable {redis : Bool} {Good : String → String → Option Entitlement → Prop} {World : DateTime → Tables → Prop}
  {s s' : EntitlementState} {user creator : String}

/-! ## Good values -/

/-- The caches hold good values. -/
structure Held (redis : Bool) (Good : String → String → Option Entitlement → Prop) (s : EntitlementState) : Prop where
  l1 : ∀ user creator e, s.l1 (user, creator) = some e → Good user creator e.value
  redis : redis = true → ∀ user creator e x, s.redis (redisKey user creator) = some e → e.value = .entitlement x →
    Good user creator x

/-- Good values may be written. -/
def WritesGood (Good : String → String → Option Entitlement → Prop) : EntitlementRequest → Prop
  | .l1Insert user creator e => Good user creator e
  | .redisSet key e => ∀ user creator, redisKey user creator = key → Good user creator e
  | _ => True

section

variable (h : Held redis Good s)

include h

theorem Held.l1Insert {e} (he : Good user creator e) :
    Held redis Good { s with l1 := s.l1.insert (user, creator) e s.clock } := by
  refine ⟨fun user' creator' entry hentry => ?_, h.redis⟩
  dsimp only [Cache.insert] at hentry
  split at hentry
  · rename_i heq
    cases heq
    cases hentry
    exact he
  · exact h.l1 user' creator' entry hentry

theorem Held.l1Invalidate (k : String × String) :
    Held redis Good { s with l1 := s.l1.invalidate k } := by
  refine ⟨fun user creator entry hentry => ?_, h.redis⟩
  dsimp only [Cache.invalidate] at hentry
  split at hentry
  · cases hentry
  · exact h.l1 user creator entry hentry

theorem Held.redisInsert {key v}
    (hv : ∀ user creator x, redisKey user creator = key → v = .entitlement x → Good user creator x) :
    Held redis Good { s with redis := s.redis.insert key v s.clock } := by
  refine ⟨h.l1, fun hon user creator entry x hentry hx => ?_⟩
  dsimp only [Cache.insert] at hentry
  split at hentry
  · rename_i heq
    cases hentry
    exact hv user creator x heq hx
  · exact h.redis hon user creator entry x hentry hx

theorem Held.redisInvalidate (key : String) :
    Held redis Good { s with redis := s.redis.invalidate key } := by
  refine ⟨h.l1, fun hon user creator entry x hentry hx => ?_⟩
  dsimp only [Cache.invalidate] at hentry
  split at hentry
  · cases hentry
  · exact h.redis hon user creator entry x hentry hx

theorem Held.request {q} (hq : WritesGood Good q) (fate : CallFate) :
    Held redis Good (s.request q fate).1 := by
  cases q with
  | l1Get user creator => exact h
  | l1Insert user creator e => exact h.l1Insert hq
  | l1Invalidate user creator => exact h.l1Invalidate (user, creator)
  | redisGet key => exact h
  | redisSet key e =>
    dsimp only [EntitlementState.request]
    split
    · refine h.redisInsert fun user creator x hkey hx => ?_
      cases hx
      exact hq user creator hkey
    · exact h
  | redisDel key =>
    dsimp only [EntitlementState.request]
    split
    · exact h.redisInvalidate key
    · exact h
  | query user creator => exact h

theorem Held.move (m : EntitlementMove) : Held redis Good (s.move m) := by
  cases m with
  | pass | change => exact ⟨h.l1, h.redis⟩
  | evict user creator => exact h.l1Invalidate (user, creator)
  | redisDrop key => exact h.redisInvalidate key
  | redisCorrupt key => exact h.redisInsert fun _ _ _ _ hx => nomatch hx

end

/-- No request changes the table or the time. -/
theorem request_world (q : EntitlementRequest) (fate : CallFate) :
    (s.request q fate).1.utcNow = s.utcNow ∧ (s.request q fate).1.tables = s.tables := by
  cases q with
  | redisSet | redisDel =>
    dsimp only [request]
    split <;> exact ⟨rfl, rfl⟩
  | _ => exact ⟨rfl, rfl⟩

/-- Good values in the caches, while the table and the time are as `World` says. -/
def holding (redis : Bool) (Good : String → String → Option Entitlement → Prop) (World : DateTime → Tables → Prop) :
    Discipline entitlementService where
  inv := fun s => Held redis Good s ∧ World s.utcNow s.tables
  rely := fun _ _ => True
  allowed := fun _ q => WritesGood Good q
  admits := fun _ _ _ => True
  moves := fun s m => World (s.move m).utcNow (s.move m).tables
  rely_refl := fun _ => trivial
  rely_trans := fun _ _ => trivial
  request_keeps := by
    rintro s q fate ⟨hheld, hworld⟩ hq -
    obtain ⟨hnow, htables⟩ := request_world (s := s) q fate
    refine ⟨⟨hheld.request hq fate, ?_⟩, trivial⟩
    show World (s.request q fate).1.utcNow (s.request q fate).1.tables
    rw [hnow, htables]
    exact hworld
  move_keeps := by
    rintro s m ⟨hheld, -⟩ hm
    exact ⟨⟨hheld.move m, hm⟩, trivial⟩

/-- The table gives good values. -/
def GivesGood (Good : String → String → Option Entitlement → Prop) (World : DateTime → Tables → Prop) : Prop :=
  ∀ now t user creator, World now t → Good user creator (t.queryEntitlement now user creator)

theorem checkPg_safe (hgives : GivesGood Good World)
    (hshared : ∀ e, Good user creator e → WritesGood Good (.redisSet (redisKey user creator) e)) (hnone : Good user creator none) :
    Safe (holding redis Good World) (fun e _ => Good user creator e) (checkPg redis user creator) s := by
  refine Safe.call fun s₁ hinv _ => ⟨trivial, fun s₂ r hanswer _ _ => ?_⟩
  cases r with
  | error e => exact Safe.ret fun _ _ _ => hnone
  | ok e =>
    have hgood : Good user creator e := by
      obtain ⟨fate, -, hrequest⟩ := hanswer
      cases fate with
      | served =>
        cases hrequest
        exact hgives _ _ _ _ hinv.2
      | failed | unconfirmed => cases hrequest
    refine Safe.call fun _ _ _ => ⟨hgood, fun _ _ _ _ _ => ?_⟩
    split
    · exact Safe.call fun _ _ _ => ⟨hshared e hgood, fun _ _ _ _ _ => Safe.ret fun _ _ _ => hgood⟩
    · exact Safe.ret fun _ _ _ => hgood

/-- **A check returns a good value.** -/
theorem check_safe (hgives : GivesGood Good World)
    (hshared : ∀ e, Good user creator e → WritesGood Good (.redisSet (redisKey user creator) e)) (hnone : Good user creator none) :
    Safe (holding redis Good World) (fun e _ => Good user creator e) (check redis user creator) s := by
  refine Safe.call fun s₁ hinv _ => ⟨trivial, fun s₂ cached hanswer _ _ => ?_⟩
  cases cached with
  | some e =>
    obtain ⟨fate, -, hrequest⟩ := hanswer
    obtain ⟨entry, hentry, -, rfl⟩ := Cache.get_eq_some (Prod.ext_iff.mp hrequest).2
    exact Safe.ret fun _ _ _ => hinv.1.l1 user creator entry hentry
  | none =>
    dsimp only
    split
    · rename_i hon
      refine Safe.call fun s₃ hinv₃ _ => ⟨trivial, fun s₄ found hanswer _ _ => ?_⟩
      have hpg : Safe (holding redis Good World) (fun e _ => Good user creator e) (checkPg redis user creator) s₄ :=
        checkPg_safe hgives hshared hnone
      cases found with
      | none => exact hpg
      | some v =>
        cases v with
        | corrupt => exact hpg
        | entitlement e =>
          obtain ⟨fate, -, hrequest⟩ := hanswer
          have hget := (Prod.ext_iff.mp hrequest).2
          dsimp only [entitlementService, request] at hget
          split at hget
          · obtain ⟨entry, hentry, -, hvalue⟩ := Cache.get_eq_some hget
            have hgood := hinv₃.1.redis hon user creator entry e hentry hvalue
            exact Safe.call fun _ _ _ => ⟨hgood, fun _ _ _ _ _ => Safe.ret fun _ _ _ => hgood⟩
          · cases hget
    · exact checkPg_safe hgives hshared hnone

theorem invalidate_safe : Safe (holding redis Good World) (fun _ _ => True) (invalidate redis user creator) s := by
  refine Safe.call fun _ _ _ => ⟨trivial, fun _ _ _ _ _ => ?_⟩
  split
  · exact Safe.call fun _ _ _ => ⟨trivial, fun _ _ _ _ _ => Safe.ret fun _ _ _ => trivial⟩
  · exact Safe.ret fun _ _ _ => trivial

/-- What a job has returned is good. -/
def PostGood (Good : String → String → Option Entitlement → Prop) (k : EntitlementJob) (a : EntitlementOutcome) : Prop :=
  ∀ n user creator e, k = .check n user creator → a = .checked e → Good user creator e

theorem entitlementProgram_safe (hgives : GivesGood Good World) (k : EntitlementJob)
    (hshared : ∀ n user creator, k = .check n user creator →
      Good user creator none ∧ ∀ e, Good user creator e → WritesGood Good (.redisSet (redisKey user creator) e)) :
    Safe (holding redis Good World) (fun a _ => PostGood Good k a) (k.program redis) s := by
  cases k with
  | check n user creator =>
    obtain ⟨hnone, hwrites⟩ := hshared n user creator rfl
    apply (check_safe hgives hwrites hnone).bind
    intro e s₁ _ _ hgood
    refine Safe.ret fun _ _ _ n' user' creator' e' hk ha => ?_
    cases hk
    cases ha
    exact hgood
  | invalidate n user creator =>
    apply invalidate_safe.bind
    intro _ s₁ _ _ _
    exact Safe.ret fun _ _ _ _ _ _ _ hk => nomatch hk

/-! ## A cancelled pair -/

section

variable {u c : String}

/-- The user has no active subscription to the creator. -/
def Inactive (u c : String) (now : DateTime) (t : Tables) : Prop := t.queryEntitlement now u c = none

/-- No entitlement for the pair. -/
def NoneFor (u c : String) (user creator : String) (e : Option Entitlement) : Prop := (user, creator) = (u, c) → e = none

theorem givesGood_inactive : GivesGood (NoneFor u c) (Inactive u c) := by
  intro now t user creator hinactive heq
  cases heq
  exact hinactive

/-- The request writes nothing about the pair. -/
def Elsewhere (u c : String) : EntitlementRequest → Prop
  | .l1Insert user creator _ => (user, creator) ≠ (u, c)
  | .redisSet key _ => key ≠ redisKey u c
  | _ => True

variable {k : EntitlementJob} {q : EntitlementRequest}

theorem Elsewhere.writesGood (h : Elsewhere u c q) : WritesGood (NoneFor u c) q := by
  cases q with
  | l1Insert user creator e => exact fun heq => absurd heq h
  | redisSet key e =>
    intro user creator hkey heq
    cases heq
    exact absurd hkey.symm h
  | _ => trivial

/-- What a job writes: a check only about its own pair. -/
def JobWrites : EntitlementJob → EntitlementRequest → Prop
  | .check _ user creator, .l1Insert user' creator' _ => (user', creator') = (user, creator)
  | .check _ user creator, .redisSet key _ => key = redisKey user creator
  | .invalidate _ _ _, .l1Insert _ _ _ => False
  | .invalidate _ _ _, .redisSet _ _ => False
  | _, _ => True

theorem jobWrites_program (k : EntitlementJob) : (k.program redis).Uses (JobWrites k) := by
  cases k with
  | check n user creator =>
    have hpg : (checkPg redis user creator).Uses (JobWrites (.check n user creator)) := by
      refine ⟨trivial, fun r => ?_⟩
      cases r with
      | error e => trivial
      | ok e =>
        refine ⟨rfl, fun _ => ?_⟩
        split
        · exact ⟨rfl, fun _ => trivial⟩
        · trivial
    refine Prog.Uses.bind ⟨trivial, fun cached => ?_⟩ fun _ => trivial
    cases cached with
    | some e => trivial
    | none =>
      dsimp only
      split
      · refine ⟨trivial, fun found => ?_⟩
        cases found with
        | none => exact hpg
        | some v =>
          cases v with
          | corrupt => exact hpg
          | entitlement e => exact ⟨rfl, fun _ => trivial⟩
      · exact hpg
  | invalidate n user creator =>
    refine Prog.Uses.bind ⟨trivial, fun _ => ?_⟩ fun _ => trivial
    split
    · exact ⟨trivial, fun _ => trivial⟩
    · trivial

theorem elsewhere_of_jobWrites
    (hk : ∀ n user creator, k = .check n user creator → redisKey user creator ≠ redisKey u c)
    (hq : JobWrites k q) : Elsewhere u c q := by
  cases k with
  | check n user creator =>
    have hkey := hk n user creator rfl
    cases q with
    | l1Insert user' creator' e =>
      rintro heq
      cases hq
      cases heq
      exact hkey rfl
    | redisSet key e =>
      cases hq
      exact hkey
    | _ => trivial
  | invalidate n user creator =>
    cases q with
    | l1Insert | redisSet => exact hq.elim
    | _ => trivial

/-- What is left of an invalidation once the entry in the process is gone. -/
def dropRedis (u c : String) : EntitlementAction EntitlementOutcome :=
  .call (.redisDel (redisKey u c)) fun _ => .ret .invalidated

/-- A program in flight before invalidation `n` has returned: no check of the pair, and of
the invalidation itself all of it or the part after the entry in the process is gone. -/
structure Early (redis : Bool) (n : Nat) (u c : String) (s : EntitlementState) (k : EntitlementJob)
    (p : EntitlementAction EntitlementOutcome) : Prop where
  uses : p.Uses (Elsewhere u c)
  noCheck : ∀ m, k ≠ .check m u c
  progress : k = .invalidate n u c → p = k.program redis ∨ redis = true ∧ s.l1 (u, c) = none ∧ p = dropRedis u c

/-- Invalidation `n` has not returned. -/
structure Waiting (redis : Bool) (n : Nat) (u c : String) (pool : EntitlementPool) : Prop where
  inactive : Inactive u c pool.state.utcNow pool.state.tables
  running : ∀ k p, (k, p) ∈ pool.running → Early redis n u c pool.state k p
  returned : ∀ k a, (k, a) ∈ pool.returned → k ≠ .invalidate n u c ∧ ∀ m, k ≠ .check m u c

/-- It has: the caches hold no entitlement of the pair, and no check in flight does. -/
abbrev Done (redis : Bool) (u c : String) (pool : EntitlementPool) : Prop :=
  pool.Sound (holding redis (NoneFor u c) (Inactive u c)) fun k a _ => PostGood (NoneFor u c) k a

variable {n : Nat} {pool : EntitlementPool}

theorem Early.mono {p} (h : Early redis n u c s k p)
    (hl1 : s.l1 (u, c) = none → s'.l1 (u, c) = none) : Early redis n u c s' k p :=
  ⟨h.uses, h.noCheck, fun hk => (h.progress hk).imp_right fun ⟨hon, hnone, hp⟩ => ⟨hon, hl1 hnone, hp⟩⟩

/-- An entry of the process for the pair that is gone stays gone. -/
theorem l1_request (hq : Elsewhere u c q) (fate : CallFate) (h : s.l1 (u, c) = none) :
    (s.request q fate).1.l1 (u, c) = none := by
  cases q with
  | l1Insert user creator e =>
    dsimp only [request, Cache.insert]
    rw [if_neg (Ne.symm hq)]
    exact h
  | l1Invalidate user creator =>
    dsimp only [request, Cache.invalidate]
    split
    · rfl
    · exact h
  | redisSet | redisDel =>
    dsimp only [request]
    split <;> exact h
  | _ => exact h

/-- After the subscription stopped being active: it stays so, Redis works, and a check of the
pair starts once invalidation `n` has returned. (Other pairs have other Redis keys.) -/
def AfterInvalidate (n : Nat) (u c : String) (pool : EntitlementPool) : EntitlementEvent → Prop
  | .start (.check _ user creator) =>
    redisKey user creator = redisKey u c → (user, creator) = (u, c) ∧ (.invalidate n u c, .invalidated) ∈ pool.returned
  | .request place fate => ∀ q ∈ pool.next? place, q.isRedis = true → fate = .served
  | .move m => Inactive u c (pool.state.move m).utcNow (pool.state.move m).tables
  | _ => True

theorem early_program (hk : ∀ m user creator, k = .check m user creator → redisKey user creator ≠ redisKey u c) :
    Early redis n u c s k (k.program redis) :=
  ⟨(jobWrites_program k).mono fun _ hq => elsewhere_of_jobWrites hk hq, fun m heq => hk m u c heq rfl, fun _ => .inl rfl⟩

theorem program_call (k : EntitlementJob) : ∃ q next, k.program redis = .call q next := by
  cases k with
  | check | invalidate => exact ⟨_, _, rfl⟩

section
variable (h : Waiting redis n u c pool)
include h

theorem Waiting.put {p}
    (hp : Early redis n u c pool.state k p) (hk : k ≠ .invalidate n u c ∨ ∃ q next, p = .call q next) :
    Waiting redis n u c (pool.put k p) := by
  cases p with
  | ret a =>
    refine ⟨h.inactive, h.running, fun k' a' hmem => ?_⟩
    rcases List.mem_cons.mp hmem with heq | hmem
    · cases heq
      exact ⟨hk.resolve_right fun ⟨_, _, heq⟩ => (nomatch heq), hp.noCheck⟩
    · exact h.returned k' a' hmem
  | call q next =>
    refine ⟨h.inactive, fun k' p' hmem => ?_, h.returned⟩
    rcases List.mem_cons.mp hmem with heq | hmem
    · cases heq
      exact hp
    · exact h.running k' p' hmem

/-- The service has answered a request of a program other than invalidation `n`'s. -/
theorem Waiting.serve (hq : Elsewhere u c q) (fate : CallFate)
    (place : Nat) : Waiting redis n u c
      { pool with state := (pool.state.request q fate).1, running := pool.running.eraseIdx place } := by
  obtain ⟨hnow, htables⟩ := request_world (s := pool.state) q fate
  refine ⟨?_, fun k p hmem => ?_, h.returned⟩
  · dsimp only
    rw [hnow, htables]
    exact h.inactive
  · exact (h.running k p (List.eraseIdx_subset hmem)).mono (l1_request hq fate)

/-- The invalidation returns. -/
theorem Waiting.done (hl1 : pool.state.l1 (u, c) = none)
    (hredis : redis = true → pool.state.redis (redisKey u c) = none) : Done redis u c pool where
  inv := by
    refine ⟨⟨fun user creator e he heq => ?_, fun hon user creator e x he hx heq => ?_⟩, h.inactive⟩
    · cases heq
      rw [hl1] at he
      cases he
    · cases heq
      rw [hredis hon] at he
      cases he
  running k p hmem := by
    have hearly := h.running k p hmem
    refine (Safe.of_uses (fun _ _ hq => Elsewhere.writesGood hq) hearly.uses).weaken fun a _ _ _ _ => ?_
    intro m user creator e hk _ heq
    cases heq
    exact absurd hk (hearly.noCheck m)
  returned k a hmem := by
    refine Safe.ret fun _ _ _ m user creator e hk _ heq => ?_
    cases heq
    exact absurd hk ((h.returned k a hmem).2 m)

theorem Waiting.request {place fate}
    (hok : AfterInvalidate n u c pool (.request place fate)) :
    Waiting redis n u c (entitlementStep redis pool (.request place fate)) ∨
      Done redis u c (entitlementStep redis pool (.request place fate)) := by
  simp only [entitlementStep, poolStep]
  split
  · rename_i k q next hplace
    have hearly := h.running k _ (List.mem_of_getElem? hplace)
    have hserved := h.serve hearly.uses.1 fate place
    by_cases hk : k = .invalidate n u c
    · subst hk
      rcases hearly.progress rfl with hp | ⟨rfl, hl1, hp⟩
      · -- its first step: the entry in the process goes
        cases hp
        have hl1 : ((pool.state.request (.l1Invalidate u c) fate).1).l1 (u, c) = none := if_pos rfl
        cases redis with
        | true =>
          refine .inl (hserved.put ⟨⟨trivial, fun _ => trivial⟩, fun m => EntitlementJob.noConfusion, fun _ => ?_⟩ (.inr ⟨_, _, rfl⟩))
          exact .inr ⟨rfl, hl1, rfl⟩
        | false =>
          refine .inr (Pool.Sound.put (hserved.done hl1 Bool.noConfusion) (Safe.ret ?_))
          exact fun _ _ _ _ _ _ _ => EntitlementJob.noConfusion
      · -- its second: the entry in Redis
        cases hp
        have hfate : fate = .served := hok (.redisDel (redisKey u c)) (by simp [Pool.next?, hplace]) rfl
        subst hfate
        refine .inr (Pool.Sound.put (hserved.done ?_ fun _ => ?_) (Safe.ret ?_))
        · exact hl1
        · exact if_pos rfl
        · exact fun _ _ _ _ _ _ _ => EntitlementJob.noConfusion
    · exact .inl (hserved.put ⟨hearly.uses.2 _, hearly.noCheck, fun heq => absurd heq hk⟩ (.inl hk))
  · exact .inl h

theorem Waiting.step {e} (hok : AfterInvalidate n u c pool e) :
    Waiting redis n u c (entitlementStep redis pool e) ∨ Done redis u c (entitlementStep redis pool e) := by
  cases e with
  | start k =>
    refine .inl (h.put (early_program fun m user creator heq hkey => ?_) (.inr (program_call k)))
    subst heq
    obtain ⟨-, hreturned⟩ := hok hkey
    exact (h.returned _ _ hreturned).1 rfl
  | request place fate => exact h.request hok
  | move m =>
    refine .inl ⟨hok, fun k p hmem => (h.running k p hmem).mono fun hnone => ?_, h.returned⟩
    cases m with
    | evict user creator =>
      show (pool.state.l1.invalidate (user, creator)) (u, c) = none
      unfold Cache.invalidate
      split
      · rfl
      · exact hnone
    | _ => exact hnone
  | die => exact .inl ⟨h.inactive, nofun, h.returned⟩

end

/-- A check that has the Redis key of the pair is one of the pair. -/
def OwnKey (u c : String) (k : EntitlementJob) : Prop :=
  ∀ m user creator, k = .check m user creator → redisKey user creator = redisKey u c → (user, creator) = (u, c)

theorem Done.step (h : Done redis u c pool) {e} (hok : AfterInvalidate n u c pool e) :
    Done redis u c (entitlementStep redis pool e) := by
  have hpool : PoolOk (holding redis (NoneFor u c) (Inactive u c)) (fun _ k => OwnKey u c k) pool e := by
    cases e with
    | start k =>
      intro m user creator hk hkey
      subst hk
      exact (hok hkey).1
    | request place fate => exact fun _ _ => trivial
    | move m => exact hok
    | die => trivial
  refine Pool.Sound.step (fun k s _ hstart => ?_) h hpool
  refine entitlementProgram_safe givesGood_inactive k fun m user creator hk => ⟨fun _ => rfl, fun e he => ?_⟩
  intro user' creator' hkey heq
  cases heq
  exact he (hstart m user creator hk hkey.symm)

end

/-! ## Entitlements that end -/

section
variable {now : DateTime} {pool : EntitlementPool}

/-- An entitlement that is not over. -/
def Current (now : DateTime) (e : Option Entitlement) : Prop := ∀ x ∈ e, now < x.expiresAt

/-- What a request is about to write is not over. -/
def WritesCurrent (now : DateTime) : EntitlementRequest → Prop
  | .l1Insert _ _ e | .redisSet _ e => Current now e
  | _ => True

/-- What a reply brings is not over. -/
def BringsCurrent (now : DateTime) : (q : EntitlementRequest) → q.Reply → Prop
  | .l1Get _ _, r => ∀ e, r = some e → Current now e
  | .redisGet _, r => ∀ e, r = some (.entitlement e) → Current now e
  | .query _ _, r => ∀ e, r = .ok e → Current now e
  | _, _ => True

/-- What a program has in hand, to write or to return, is not over. -/
def InHand (now : DateTime) : EntitlementAction EntitlementOutcome → Prop
  | .ret a => ∀ e, a = .checked e → Current now e
  | .call q _ => WritesCurrent now q

/-- A program has in hand what it was brought or has written, whatever the time is. -/
def Carries : EntitlementAction EntitlementOutcome → Prop
  | .ret _ => True
  | .call q next => ∀ r, (∀ now, WritesCurrent now q → BringsCurrent now q r → InHand now (next r)) ∧ Carries (next r)

theorem inHand_checked {e} (h : Current now e) : InHand now (.ret (.checked e)) := by
  rintro _ ⟨⟩
  exact h

theorem carries_checkPg (user creator : String) : Carries ((checkPg redis user creator).bind fun e => .ret (.checked e)) := by
  intro r
  cases r with
  | error e => exact ⟨fun _ _ _ => inHand_checked nofun, trivial⟩
  | ok e =>
    refine ⟨fun _ _ hbrings => hbrings e rfl, fun _ => ?_⟩
    cases redis with
    | false => exact ⟨fun _ hwrites _ => inHand_checked hwrites, trivial⟩
    | true => exact ⟨fun _ hwrites _ => hwrites, fun _ => ⟨fun _ hwrites _ => inHand_checked hwrites, trivial⟩⟩

theorem carries_program (k : EntitlementJob) : Carries (k.program redis) := by
  cases k with
  | check n user creator =>
    have hpg := @carries_checkPg redis user creator
    intro cached
    cases cached with
    | some e => exact ⟨fun _ _ hbrings => inHand_checked (hbrings e rfl), trivial⟩
    | none =>
      cases redis with
      | false => exact ⟨fun _ _ _ => trivial, hpg⟩
      | true =>
        refine ⟨fun _ _ _ => trivial, fun found => ?_⟩
        rcases found with _ | e | _
        · exact ⟨fun _ _ _ => trivial, hpg⟩
        · exact ⟨fun _ _ hbrings => hbrings e rfl, fun _ => ⟨fun _ hwrites _ => inHand_checked hwrites, trivial⟩⟩
        · exact ⟨fun _ _ _ => trivial, hpg⟩
  | invalidate n user creator =>
    intro _
    cases redis with
    | false => exact ⟨fun _ _ _ => nofun, trivial⟩
    | true => exact ⟨fun _ _ _ => trivial, fun _ => ⟨fun _ _ _ => nofun, trivial⟩⟩

/-- What the caches give at this time is not over. -/
structure CachesCurrent (s : EntitlementState) (clock : Nat) (now : DateTime) : Prop where
  l1 : ∀ k e, s.l1.get l1Ttl clock k = some e → Current now e
  redis : ∀ key e, s.redis.get redisTtl clock key = some (.entitlement e) → Current now e

theorem CachesCurrent.request {clock} (h : CachesCurrent s clock now) {q} (hq : WritesCurrent now q) (fate : CallFate) :
    CachesCurrent (s.request q fate).1 clock now := by
  cases q with
  | l1Insert user creator e =>
    refine ⟨fun k e' hget => ?_, h.redis⟩
    rcases Cache.get_insert hget with rfl | hget
    · exact hq
    · exact h.l1 k e' hget
  | l1Invalidate user creator => exact ⟨fun k e hget => h.l1 k e (Cache.get_invalidate hget), h.redis⟩
  | redisSet key e =>
    dsimp only [EntitlementState.request]
    split
    · refine ⟨h.l1, fun k e' hget => ?_⟩
      rcases Cache.get_insert hget with heq | hget
      · cases heq
        exact hq
      · exact h.redis k e' hget
    · exact h
  | redisDel key =>
    dsimp only [EntitlementState.request]
    split
    · exact ⟨h.l1, fun k e hget => h.redis k e (Cache.get_invalidate hget)⟩
    · exact h
  | _ => exact h

/-- What is brought comes from the caches, or from the table at this time. -/
theorem CachesCurrent.brings (h : CachesCurrent s s.clock s.utcNow) (q : EntitlementRequest) (fate : CallFate) :
    BringsCurrent s.utcNow q (s.request q fate).2 := by
  cases q with
  | l1Get user creator => exact h.l1 _
  | redisGet key =>
    intro e he
    dsimp only [EntitlementState.request] at he
    split at he
    · exact h.redis _ e he
    · cases he
  | query user creator =>
    intro e he x hx
    cases Except.ok.inj (CallFate.answer_eq_ok.mp he).2
    obtain ⟨row, hrow, rfl⟩ := Tables.mem_of_queryEntitlement hx
    exact (Tables.mem_paid.mp hrow).2.2.2.2.2
  | _ => trivial

/-- Nothing that is cached or in hand is over. -/
structure InTime (pool : EntitlementPool) : Prop where
  caches : CachesCurrent pool.state pool.state.clock pool.state.utcNow
  running : ∀ k p, (k, p) ∈ pool.running → Carries p ∧ InHand pool.state.utcNow p

/-- When time passes, nothing ends that is still cached then or in the hands of a check. -/
def EndsUnheld (pool : EntitlementPool) : EntitlementEvent → Prop
  | .move (.pass clock now) => CachesCurrent pool.state clock now ∧ ∀ k p, (k, p) ∈ pool.running → InHand now p
  | _ => True

theorem InTime.put (h : InTime pool) {k p} (hcarries : Carries p) (hhand : InHand pool.state.utcNow p) : InTime (pool.put k p) := by
  cases p with
  | ret a => exact ⟨h.caches, h.running⟩
  | call q next =>
    refine ⟨h.caches, fun k' p' hmem => ?_⟩
    rcases List.mem_cons.mp hmem with heq | hmem
    · cases heq
      exact ⟨hcarries, hhand⟩
    · exact h.running k' p' hmem

/-- A request is answered: the caches are in time, and so is what the program has in hand then. -/
theorem InTime.answer (h : InTime pool) {place k q next} (hplace : pool.running[place]? = some (k, .call q next)) (fate : CallFate) :
    InTime { pool with state := (pool.state.request q fate).1, running := pool.running.eraseIdx place } ∧
      Carries (next (pool.state.request q fate).2) ∧ InHand (pool.state.request q fate).1.utcNow (next (pool.state.request q fate).2) := by
  obtain ⟨hcarries, hhand⟩ := h.running k _ (List.mem_of_getElem? hplace)
  have hnow := (request_world (s := pool.state) q fate).1
  have hclock : (pool.state.request q fate).1.clock = pool.state.clock := by
    cases q with
    | redisSet | redisDel =>
      dsimp only [EntitlementState.request]
      split <;> rfl
    | _ => rfl
  obtain ⟨hnext, hrest⟩ := hcarries (pool.state.request q fate).2
  refine ⟨⟨?_, fun k' p' hmem => ?_⟩, hrest, ?_⟩
  · dsimp only
    rw [hnow, hclock]
    exact h.caches.request hhand fate
  · dsimp only
    rw [hnow]
    exact h.running k' p' (List.eraseIdx_subset hmem)
  · rw [hnow]
    exact hnext _ hhand (h.caches.brings q fate)

theorem InTime.step (h : InTime pool) {e} (hok : EndsUnheld pool e) : InTime (entitlementStep redis pool e) := by
  cases e with
  | start k =>
    refine h.put (carries_program k) ?_
    cases k with
    | check | invalidate => trivial
  | request place fate =>
    simp only [entitlementStep, poolStep]
    split
    · rename_i k q next hplace
      obtain ⟨hserved, hcarries, hhand⟩ := h.answer hplace fate
      exact hserved.put hcarries hhand
    · exact h
  | move m =>
    cases m with
    | pass clock now => exact ⟨⟨hok.1.l1, hok.1.redis⟩, fun k p hmem => ⟨(h.running k p hmem).1, hok.2 k p hmem⟩⟩
    | change tables => exact ⟨⟨h.caches.l1, h.caches.redis⟩, h.running⟩
    | evict user creator => exact ⟨⟨fun k e hget => h.caches.l1 k e (Cache.get_invalidate hget), h.caches.redis⟩, h.running⟩
    | redisDrop key => exact ⟨⟨h.caches.l1, fun k e hget => h.caches.redis k e (Cache.get_invalidate hget)⟩, h.running⟩
    | redisCorrupt key =>
      refine ⟨⟨h.caches.l1, fun k e hget => ?_⟩, h.running⟩
      rcases Cache.get_insert hget with hcorrupt | hget
      · cases hcorrupt
      · exact h.caches.redis k e hget
  | die => exact ⟨h.caches, fun _ _ hmem => absurd hmem List.not_mem_nil⟩

/-- A check that returns now returns nothing that is over. -/
theorem InTime.returns (h : InTime pool) {place fate k e}
    (hreturns : (entitlementStep redis pool (.request place fate)).returned = (k, .checked (some e)) :: pool.returned) :
    pool.state.utcNow < e.expiresAt := by
  simp only [entitlementStep, poolStep] at hreturns
  split at hreturns
  · rename_i k' q next hplace
    obtain ⟨-, -, hhand⟩ := h.answer hplace fate
    rw [(request_world (s := pool.state) q fate).1] at hhand
    dsimp only [entitlementService] at hreturns
    cases hp : next (pool.state.request q fate).2 with
    | ret a =>
      rw [hp] at hreturns hhand
      cases (List.cons.inj hreturns).1
      exact hhand _ rfl e rfl
    | call q' next' =>
      rw [hp] at hreturns
      exact absurd hreturns.symm (List.cons_ne_self _ _)
  · exact absurd hreturns.symm (List.cons_ne_self _ _)

end

/-! ## Whole runs -/

/-- **Cancelled means cancelled**, in every run and from any point of it: when no check of the
pair is in flight and its subscription is not active, and then an invalidation runs without a
check of the pair beside it, the checks that start later return no entitlement. And no check returns an
entitlement that is over, if none ends that is still cached or in the hands of a check. -/
theorem cancelled_means_cancelled (redis : Bool) (clock : Nat) (utcNow : DateTime) (tables : Tables) :
    (∀ h₁ pool₁ n u c h₂ pool₂,
      Run (entitlementStep redis) (fun _ _ _ => True) (.start clock utcNow tables) h₁ pool₁ →
      (∀ m user creator p, (.check m user creator, p) ∈ pool₁.running → redisKey user creator ≠ redisKey u c) →
      (∀ p, (.invalidate n u c, p) ∉ pool₁.running) →
      pool₁.state.tables.queryEntitlement pool₁.state.utcNow u c = none →
      Run (entitlementStep redis) (fun _ pool e => AfterInvalidate n u c pool e) { pool₁ with returned := [] } h₂ pool₂ →
      ∀ m e, (.check m u c, .checked e) ∈ pool₂.returned → e = none) ∧
    ∀ h pool, Run (entitlementStep redis) (fun _ pool e => EndsUnheld pool e) (.start clock utcNow tables) h pool →
      ∀ place fate k e, (entitlementStep redis pool (.request place fate)).returned = (k, .checked (some e)) :: pool.returned →
        pool.state.utcNow < e.expiresAt := by
  constructor
  · intro h₁ pool₁ n u c h₂ pool₂ run₁ hchecks hinvalidate hinactive run₂ m e hreturned
    have hwaiting : Waiting redis n u c { pool₁ with returned := [] } := by
      refine ⟨hinactive, fun k p hmem => ?_, nofun⟩
      have hother : ∀ m user creator, k = .check m user creator → redisKey user creator ≠ redisKey u c :=
        fun m user creator hk => hchecks m user creator p (hk ▸ hmem)
      refine ⟨?_, fun m heq => hother m u c heq rfl, fun heq => absurd (heq ▸ hmem) (hinvalidate p)⟩
      exact (Pool.uses_of_run jobWrites_program run₁ k p hmem).mono fun _ hq => elsewhere_of_jobWrites hother hq
    have hinv := run₂.invariant (I := fun _ pool => Waiting redis n u c pool ∨ Done redis u c pool) (.inl hwaiting)
      fun _ _ _ _ hok hinv => hinv.elim (fun h => h.step hok) fun h => .inr (h.step hok)
    rcases hinv with hwaiting | hdone
    · exact absurd rfl ((hwaiting.returned _ _ hreturned).2 m)
    · exact hdone.returned _ _ hreturned pool₂.state hdone.inv trivial m u c e rfl rfl rfl
  · intro h pool run place fate k e hreturns
    have hinv : InTime pool := run.invariant (I := fun _ pool => InTime pool) ⟨⟨fun _ _ hget => (by cases hget), fun _ _ hget => (by cases hget)⟩, fun _ _ hmem => (by cases hmem)⟩
      fun _ _ _ _ hok h => h.step hok
    exact hinv.returns hreturns

/-- `@fan` has an active subscription to `@alice` that ends at 1000; then it is cancelled. -/
def fanTables (status : SubscriptionStatus) : Tables :=
  let gold : Tier := ⟨some "@alice", "Gold", 2, true, none, .obj []⟩
  let fan : Subscription := ⟨"@fan", "@alice", "t1", status, some "sub_1", 1000, none⟩
  ⟨TreeMap.ofList [("t1", gold)], TreeMap.ofList [("s1", fan)]⟩

def fanStart : EntitlementPool := .start 0 0 (fanTables .active)

/-- A check, and then the subscription is cancelled. -/
def checkedThenCancelled : List EntitlementEvent :=
  .start (.check 0 "@fan" "@alice") ::
    ((List.replicate 5 (.request 0 .served) : List EntitlementEvent) ++ ([.move (.change (fanTables .cancelled))] : List EntitlementEvent))

/-- An invalidation, and after it another check. -/
def invalidatedThenChecked : List EntitlementEvent :=
  ([.start (.invalidate 1 "@fan" "@alice"), .request 0 .served, .request 0 .served, .start (.check 2 "@fan" "@alice")] :
    List EntitlementEvent) ++ (List.replicate 5 (.request 0 .served) : List EntitlementEvent)

instance AfterInvalidate.decidable (n : Nat) (u c : String) (pool : EntitlementPool) :
    (e : EntitlementEvent) → Decidable (AfterInvalidate n u c pool e)
  | .start (.check ..) => inferInstanceAs (Decidable (_ → _))
  | .request place _ => inferInstanceAs (Decidable (∀ q ∈ pool.next? place, _))
  | .move _ => inferInstanceAs (Decidable (_ = _))
  | .start (.invalidate ..) | .die => isTrue trivial

/-- The run up to the cancellation. -/
def fanCancelled : EntitlementPool := checkedThenCancelled.foldl (entitlementStep true) fanStart

theorem fanCancelled_checked :
    fanCancelled.running.length = 0 ∧ fanCancelled.state.tables.queryEntitlement fanCancelled.state.utcNow "@fan" "@alice" = none ∧
    Follows (entitlementStep true) (fun _ pool e => AfterInvalidate 1 "@fan" "@alice" pool e) []
      { fanCancelled with returned := [] } invalidatedThenChecked ∧
    ∃ x ∈ (invalidatedThenChecked.foldl (entitlementStep true) { fanCancelled with returned := [] }).returned,
      x.1 = .check 2 "@fan" "@alice" := by
  decide +kernel

/-- A check fills the caches; they forget it, and the second check is one request from its end when
the subscription has a second left. -/
def fanLater : List EntitlementEvent :=
  (.start (.check 0 "@fan" "@alice") :: List.replicate 5 (.request 0 .served)) ++
    .move (.pass (2 * redisTtl) 999) :: .start (.check 1 "@fan" "@alice") :: List.replicate 4 (.request 0 .served)

theorem fanLater_returns : (entitlementStep true (fanLater.foldl (entitlementStep true) fanStart) (.request 0 .served)).returned =
    (.check 1 "@fan" "@alice", .checked (some ⟨2, "Gold", 1000⟩)) :: (fanLater.foldl (entitlementStep true) fanStart).returned := by
  decide +kernel

theorem fanLater_unheld : Follows (entitlementStep true) (fun _ pool e => EndsUnheld pool e) [] fanStart fanLater := by
  refine ⟨trivial, trivial, trivial, trivial, trivial, trivial, ⟨⟨fun k e hget => ?_, fun key e hget => ?_⟩, fun _ _ hmem => (by cases hmem)⟩,
    trivial, trivial, trivial, trivial, trivial, trivial⟩
  · obtain ⟨x, hx, hyoung, -⟩ := Cache.get_eq_some hget
    have hx : (Cache.empty.insert ("@fan", "@alice") (some ⟨2, "Gold", 1000⟩) 0) k = some x := hx
    dsimp only [Cache.insert, Cache.empty] at hx
    split at hx <;> cases hx
    exact absurd hyoung (by decide)
  · obtain ⟨x, hx, hyoung, -⟩ := Cache.get_eq_some hget
    have hx : (Cache.empty.insert (redisKey "@fan" "@alice") (.entitlement (some ⟨2, "Gold", 1000⟩)) 0) key = some x := hx
    dsimp only [Cache.insert, Cache.empty] at hx
    split at hx <;> cases hx
    exact absurd hyoung (by decide)

theorem cancelled_means_cancelled_fan :
    (∃ h₂ pool₂ a, Run (entitlementStep true) (fun _ pool e => AfterInvalidate 1 "@fan" "@alice" pool e)
        { fanCancelled with returned := [] } h₂ pool₂ ∧
      (.check 2 "@fan" "@alice", a) ∈ pool₂.returned ∧ a ≠ .checked (some ⟨2, "Gold", 1000⟩)) ∧
    (fanLater.foldl (entitlementStep true) fanStart).state.utcNow < 1000 := by
  obtain ⟨hrunning, hinactive, hfollows, ⟨⟨k, a⟩, hreturned, rfl⟩⟩ := fanCancelled_checked
  have hempty : fanCancelled.running = [] := List.length_eq_zero_iff.mp hrunning
  obtain ⟨hcancelled, hends⟩ := cancelled_means_cancelled true 0 0 (fanTables .active)
  refine ⟨⟨_, _, a, Run.start.follow hfollows, hreturned, ?_⟩, hends _ _ (Run.start.follow fanLater_unheld) 0 .served _ _ fanLater_returns⟩
  rintro rfl
  have hnone := hcancelled _ _ 1 "@fan" "@alice" _ _ (Run.free checkedThenCancelled) (fun _ _ _ _ hmem => ?_) (fun _ hmem => ?_)
    hinactive (Run.start.follow hfollows) 2 _ hreturned
  · cases hnone
  · exact absurd (hempty ▸ hmem) List.not_mem_nil
  · exact absurd (hempty ▸ hmem) List.not_mem_nil

/-! ## A check beside the invalidation -/

/-- The pair stays cancelled and Redis works. -/
def StillCancelled (u c : String) (pool : EntitlementPool) : EntitlementEvent → Prop
  | .request place fate => ∀ q ∈ pool.next? place, q.isRedis = true → fate = .served
  | .move m => Inactive u c (pool.state.move m).utcNow (pool.state.move m).tables
  | _ => True

instance StillCancelled.decidable (u c : String) (pool : EntitlementPool) :
    (e : EntitlementEvent) → Decidable (StillCancelled u c pool e)
  | .request place _ => inferInstanceAs (Decidable (∀ q ∈ pool.next? place, _))
  | .move _ => inferInstanceAs (Decidable (_ = _))
  | .start _ | .die => isTrue trivial

/-- The check has read the table when the subscription is cancelled. -/
def fanReading : EntitlementPool :=
  [.start (.check 0 "@fan" "@alice"), .request 0 .served, .request 0 .served, .request 0 .served,
    .move (.change (fanTables .cancelled))].foldl (entitlementStep true) fanStart

/-- The invalidation runs and returns, and then the check writes back what it read. -/
def invalidatedBeside : List EntitlementEvent :=
  .start (.invalidate 1 "@fan" "@alice") :: List.replicate 4 (.request 0 .served)

def fanStale : EntitlementPool := invalidatedBeside.foldl (entitlementStep true) { fanReading with returned := [] }

theorem fanStale_follows :
    fanReading.state.tables.queryEntitlement fanReading.state.utcNow "@fan" "@alice" = none ∧
    (∀ x ∈ fanReading.running, x.1 = .check 0 "@fan" "@alice") ∧
    Follows (entitlementStep true) (fun _ pool e => StillCancelled "@fan" "@alice" pool e) [] { fanReading with returned := [] }
      invalidatedBeside ∧ (.invalidate 1 "@fan" "@alice", .invalidated) ∈ fanStale.returned ∧ fanStale.running.length = 0 ∧
    Follows (entitlementStep true) (fun _ pool e => StillCancelled "@fan" "@alice" pool e) [] { fanStale with returned := [] }
      [.start (.check 2 "@fan" "@alice"), .request 0 .served] ∧
    (.check 2 "@fan" "@alice", .checked (some ⟨2, "Gold", 1000⟩)) ∈
      ([.start (.check 2 "@fan" "@alice"), .request 0 .served].foldl (entitlementStep true)
        { fanStale with returned := [] }).returned := by
  decide +kernel

/-- A check fills the caches, and the subscription ends. -/
def fanOver : EntitlementPool :=
  (.start (.check 0 "@fan" "@alice") :: (List.replicate 5 (.request 0 .served) ++ [.move (.pass 1000000000 2000)])).foldl
    (entitlementStep true) fanStart

theorem fanOver_checked : fanOver.state.utcNow = 2000 ∧
    (.check 1 "@fan" "@alice", .checked (some ⟨2, "Gold", 1000⟩)) ∈
      ([.start (.check 1 "@fan" "@alice"), .request 0 .served].foldl (entitlementStep true)
        { fanOver with returned := [] }).returned := by
  decide +kernel

/-- An invalidation returns after the cancellation, and a check that starts later still gets
the entitlement; and a check gets one that ended a thousand units of time ago. -/
theorem stale_after_invalidate :
    (∃ h₁ pool₁ h₂ pool₂ h₃ pool₃ e, Run (entitlementStep true) (fun _ _ _ => True) fanStart h₁ pool₁ ∧
      Inactive "@fan" "@alice" pool₁.state.utcNow pool₁.state.tables ∧
      (∀ x ∈ pool₁.running, x.1 = .check 0 "@fan" "@alice") ∧
      Run (entitlementStep true) (fun _ pool e => StillCancelled "@fan" "@alice" pool e) { pool₁ with returned := [] } h₂ pool₂ ∧
      (.invalidate 1 "@fan" "@alice", .invalidated) ∈ pool₂.returned ∧ pool₂.running.length = 0 ∧
      Run (entitlementStep true) (fun _ pool e => StillCancelled "@fan" "@alice" pool e) { pool₂ with returned := [] } h₃ pool₃ ∧
      (.check 2 "@fan" "@alice", .checked (some e)) ∈ pool₃.returned) ∧
    ∃ h₁ pool₁ h₂ pool₂ e, Run (entitlementStep true) (fun _ _ _ => True) fanStart h₁ pool₁ ∧
      Run (entitlementStep true) (fun _ _ e => ∀ m, e ≠ .move m) { pool₁ with returned := [] } h₂ pool₂ ∧
      (.check 1 "@fan" "@alice", .checked (some e)) ∈ pool₂.returned ∧ e.expiresAt ≤ pool₁.state.utcNow := by
  obtain ⟨hinactive, hrunning, hfollows₂, hinvalidated, hquiet, hfollows₃, hchecked⟩ := fanStale_follows
  have hfollows₅ : Follows (entitlementStep true) (fun _ _ e => ∀ m, e ≠ .move m) [] { fanOver with returned := [] }
      [.start (.check 1 "@fan" "@alice"), .request 0 .served] := ⟨nofun, nofun, trivial⟩
  obtain ⟨hnow, hover⟩ := fanOver_checked
  refine ⟨⟨_, fanReading, _, fanStale, _, _, _, Run.free _, hinactive, hrunning, Run.start.follow hfollows₂,
    hinvalidated, hquiet, Run.start.follow hfollows₃, hchecked⟩, _, fanOver, _, _, _, Run.free _,
    Run.start.follow hfollows₅, hover, ?_⟩
  rw [hnow]
  decide

end MatrixMedia.Paywall

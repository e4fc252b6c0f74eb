import MatrixMedia.Lib.Cache
import MatrixMedia.Lib.Interaction
import MatrixMedia.Paywall.Tables

/-!
# The entitlement service

`EntitlementService` of `mm-payment/src/entitlement.rs`: the level of a subscription, read
through a cache in the process and one in Redis. Each cache operation, each Redis call and
the SQL query is one request, so that other checks, invalidations and changes to the tables
come in between. Redis keeps the JSON of an entitlement; text that does not parse is
`corrupt`.
-/

namespace MatrixMedia.Paywall
open Lib Lib.Chrono Lib.Interaction
open Std (TreeMap)

/-- What Redis holds under a key. -/
inductive RedisValue where
  | entitlement (e : Option Entitlement)
  | corrupt
deriving DecidableEq

/-- One instance with its Redis and its database. -/
structure EntitlementState where
  /-- Nanoseconds of the monotonic clock. -/
  clock : Nat
  utcNow : DateTime
  tables : Tables
  l1 : Cache (String × String) (Option Entitlement)
  redis : Cache String RedisValue

def l1Ttl : Nat := 15 * 1000000000

/-- `REDIS_TTL_SECS`. -/
def redisTtl : Nat := 60 * 1000000000

def redisKey (user creator : String) : String := "entitlement:" ++ user ++ ":" ++ creator

inductive EntitlementRequest where
  | l1Get (user creator : String)
  | l1Insert (user creator : String) (e : Option Entitlement)
  | l1Invalidate (user creator : String)
  | redisGet (key : String)
  | redisSet (key : String) (e : Option Entitlement)
  | redisDel (key : String)
  | query (user creator : String)

abbrev EntitlementRequest.Reply : EntitlementRequest → Type
  | .l1Get _ _ => Option (Option Entitlement)
  | .l1Insert .. | .l1Invalidate _ _ => Unit
  | .redisGet _ => Option RedisValue
  | .redisSet _ _ | .redisDel _ => Except String Unit
  | .query _ _ => Except String (Option Entitlement)

/-- The call goes to Redis. -/
def EntitlementRequest.isRedis : EntitlementRequest → Bool
  | .redisGet _ | .redisSet _ _ | .redisDel _ => true
  | _ => false

/-- What changes by itself: time, the tables, and entries that are dropped or overwritten. -/
inductive EntitlementMove where
  | pass (clock : Nat) (utcNow : DateTime)
  | change (tables : Tables)
  | evict (user creator : String)
  | redisDrop (key : String)
  | redisCorrupt (key : String)

def EntitlementState.request (s : EntitlementState) : (q : EntitlementRequest) → CallFate → EntitlementState × q.Reply
  | .l1Get user creator, _ => (s, s.l1.get l1Ttl s.clock (user, creator))
  | .l1Insert user creator e, _ => ({ s with l1 := s.l1.insert (user, creator) e s.clock }, ())
  | .l1Invalidate user creator, _ => ({ s with l1 := s.l1.invalidate (user, creator) }, ())
  -- a failed read is answered as a miss
  | .redisGet key, fate => (s, if fate = .served then s.redis.get redisTtl s.clock key else none)
  | .redisSet key e, fate =>
    (if fate.applied then { s with redis := s.redis.insert key (.entitlement e) s.clock } else s, fate.answer (.ok ()))
  | .redisDel key, fate => (if fate.applied then { s with redis := s.redis.invalidate key } else s, fate.answer (.ok ()))
  | .query user creator, fate => (s, fate.answer (.ok (s.tables.queryEntitlement s.utcNow user creator)))

def EntitlementState.move (s : EntitlementState) : EntitlementMove → EntitlementState
  | .pass clock utcNow => { s with clock := clock, utcNow := utcNow }
  | .change tables => { s with tables := tables }
  | .evict user creator => { s with l1 := s.l1.invalidate (user, creator) }
  | .redisDrop key => { s with redis := s.redis.invalidate key }
  | .redisCorrupt key => { s with redis := s.redis.insert key .corrupt s.clock }

def entitlementService : Service EntitlementState CallFate EntitlementMove EntitlementRequest EntitlementRequest.Reply where
  request := EntitlementState.request
  move := EntitlementState.move

abbrev EntitlementAction (α : Type) : Type := Prog EntitlementRequest EntitlementRequest.Reply α

section
variable (redis : Bool)

/-- The end of `check`: ask the database and write the answer back. -/
def checkPg (user creator : String) : EntitlementAction (Option Entitlement) :=
  .call (.query user creator) fun r =>
    match r with
    -- a failed query is treated as no entitlement
    | .error _ => .ret none
    | .ok e =>
      .call (.l1Insert user creator e) fun _ =>
        if redis then .call (.redisSet (redisKey user creator) e) fun _ => .ret e else .ret e

/-- `EntitlementService::check`; `redis` says whether one is configured. -/
def check (user creator : String) : EntitlementAction (Option Entitlement) :=
  .call (.l1Get user creator) fun cached =>
    match cached with
    | some e => .ret e
    | none =>
      if redis then
        .call (.redisGet (redisKey user creator)) fun found =>
          match found with
          | some (.entitlement e) => .call (.l1Insert user creator e) fun _ => .ret e
          | some .corrupt | none => checkPg redis user creator
      else checkPg redis user creator

/-- `EntitlementService::invalidate`. -/
def invalidate (user creator : String) : EntitlementAction Unit :=
  .call (.l1Invalidate user creator) fun _ =>
    if redis then .call (.redisDel (redisKey user creator)) fun _ => .ret () else .ret ()

/-- The calls, numbered so that two of them can be told apart. -/
inductive EntitlementJob where
  | check (n : Nat) (user creator : String)
  | invalidate (n : Nat) (user creator : String)
deriving DecidableEq

inductive EntitlementOutcome where
  | checked (e : Option Entitlement)
  | invalidated
deriving DecidableEq

def EntitlementJob.program : EntitlementJob → EntitlementAction EntitlementOutcome
  | .check _ user creator => (Paywall.check redis user creator).bind fun e => .ret (.checked e)
  | .invalidate _ user creator => (Paywall.invalidate redis user creator).bind fun _ => .ret .invalidated

abbrev EntitlementPool : Type :=
  Pool EntitlementState EntitlementRequest EntitlementRequest.Reply EntitlementJob EntitlementOutcome

abbrev EntitlementEvent : Type := Event EntitlementJob CallFate EntitlementMove

/-- Empty caches and nothing in flight. -/
def EntitlementPool.start (clock : Nat) (utcNow : DateTime) (tables : Tables) : EntitlementPool :=
  ⟨⟨clock, utcNow, tables, .empty, .empty⟩, [], []⟩

def entitlementStep : EntitlementPool → EntitlementEvent → EntitlementPool :=
  poolStep entitlementService (EntitlementJob.program redis)

end

end MatrixMedia.Paywall

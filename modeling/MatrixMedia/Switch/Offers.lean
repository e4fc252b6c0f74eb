import MatrixMedia.Lib.Base64
import MatrixMedia.Lib.JsonText
import MatrixMedia.Switch.ViewerIds

/-!
# Tokens and offers

mm-core mints tokens (`mm-core/src/switch_auth.rs`), and the switch checks them before it takes an
offer (`auth.go`, `handlePublishOffer` and `handleViewerOffer` in `main.go`). The payload is JSON in
base64, signed together with the time of issue; HMAC is a parameter, and what a caller may present is
`Unforged`. Invalid UTF-8 is refused here where Go replaces it, and field names are compared as ASCII;
neither is in a payload that mm-core has signed.

`tokens_open_own_stream` has the hypothesis that a token expires before 2 ^ 63: mm-core counts in
`u64` and the switch reads an `int64` (`token_rejected`).
-/

namespace MatrixMedia.Switch
open Lib Lib.Interaction Lib.Text List
open Paywall (switchViewerId)
open Streams (switchSourceId)

/-! ## Tokens -/

/-- The secret of the switch, and HMAC-SHA256 in hexadecimal as both services compute it. -/
structure SwitchAuth where
  hmac : String → String → String
  secret : String

def utf8 (text : String) : List UInt8 := text.toUTF8.data.toList

def fromUtf8 (bytes : List UInt8) : Option String := String.fromUTF8? ⟨⟨bytes⟩⟩

/-- `tokenPayload`. -/
structure TokenPayload where
  role : String
  subject : String
  exp : Int

/-- The payload of `generate_switch_token`, with its members in the order of `serde_json`. -/
def tokenClaims (role subject : String) (exp : Nat) : Json := .obj [("exp", .int exp), ("role", .str role), ("sub", .str subject)]

def signingInput (role subject : String) (exp now : Nat) : String :=
  String.ofList (Base64.encode (utf8 (String.ofList ((tokenClaims role subject exp).render fun _ => "")))) ++ "." ++ now.repr

/-- `u64` addition. -/
def expiry (now ttlSecs : Nat) : Nat := (now + ttlSecs) % 2 ^ 64

section
variable (auth : SwitchAuth)

/-- `generate_switch_token`. -/
def generateSwitchToken (role subject : String) (ttlSecs now : Nat) : String :=
  let message := signingInput role subject (expiry now ttlSecs) now
  message ++ "." ++ auth.hmac auth.secret message

/-- Why a token is rejected. -/
inductive TokenError where
  | malformed (parts : Nat)
  | invalidSignature
  | invalidEncoding
  | invalidJson
  | expired
  | wrongRole (role : String) (allowed : List String)
deriving DecidableEq

/-- What the caller is told, without the text of a decoder. -/
def TokenError.text : TokenError → String
  | .malformed parts => "malformed token: expected 3 parts, got " ++ toString parts
  | .invalidSignature => "invalid signature"
  | .invalidEncoding => "invalid payload encoding"
  | .invalidJson => "invalid payload JSON"
  | .expired => "token expired"
  | .wrongRole role allowed => "role " ++ role.quote ++ " not allowed (need one of [" ++ " ".intercalate allowed ++ "])"

def sameKey (a b : String) : Bool := a.toList.map Char.toLower = b.toList.map Char.toLower

/-- A value into a field of its type; `null` leaves the field alone. -/
def decodeField {α : Type} (v : Json) (as : Json → Option α) (p : TokenPayload) (set : α → TokenPayload) : Option TokenPayload :=
  if v = .null then some p else (as v).map set

/-- One member of the object, into the field of its name. -/
def TokenPayload.setField (p : TokenPayload) (key : String) (v : Json) : Option TokenPayload :=
  if sameKey key "role" then decodeField v Json.asStr p fun role => { p with role := role }
  else if sameKey key "sub" then decodeField v Json.asStr p fun subject => { p with subject := subject }
  else if sameKey key "exp" then decodeField v Json.asI64 p fun exp => { p with exp := exp }
  else some p

/-- `json.Unmarshal`. -/
def unmarshal (text : String) : Option TokenPayload :=
  (Json.parse text).bind fun v =>
    match v with
    | .obj members => members.foldlM (fun p member => p.setField member.1 member.2) ⟨"", "", 0⟩
    | .null => some ⟨"", "", 0⟩
    | _ => none

/-- `validateToken`: the role and the subject. -/
def validateToken (token : String) (allowedRoles : List String) (now : Int) : Except TokenError (String × String) :=
  match splitOnce '.' token with
  | none => .error (.malformed 1)
  | some (payload, rest) =>
    match splitOnce '.' rest with
    | none => .error (.malformed 2)
    | some (timestamp, signature) =>
      if signature ≠ auth.hmac auth.secret (payload ++ "." ++ timestamp) then .error .invalidSignature
      else
        match Base64.decode payload.toList with
        | none => .error .invalidEncoding
        | some bytes =>
          match (fromUtf8 bytes).bind unmarshal with
          | none => .error .invalidJson
          | some p =>
            if now > p.exp then .error .expired
            else if p.role ∈ allowedRoles then .ok (p.role, p.subject)
            else .error (.wrongRole p.role allowedRoles)

/-! ## Admission -/

/-- `switchIdentity`. -/
structure SwitchIdentity where
  role : String
  subject : String
  authenticated : Bool
deriving DecidableEq

/-- A status and what is sent with it. -/
structure Refusal where
  status : Nat
  error : String
deriving DecidableEq

/-- `authMiddleware`; a header that is absent is empty. -/
def authMiddleware (allowedRoles : List String) (authorization : String) (now : Int) : Except Refusal SwitchIdentity :=
  if auth.secret = "" then .ok ⟨"", "", false⟩
  else if authorization = "" then .error ⟨401, "missing Authorization header"⟩
  else
    match stripPrefix "Bearer " authorization with
    | none => .error ⟨401, "Authorization header must use Bearer scheme"⟩
    | some token =>
      match validateToken auth token allowedRoles now with
      | .error e => .error ⟨401, e.text⟩
      | .ok (role, subject) => .ok ⟨role, subject, true⟩

/-- `bindSubject`. -/
def bindSubject (id : SwitchIdentity) (requested : String) : Except String String :=
  if ¬id.authenticated ∨ id.role = "server" then .ok requested
  else if id.subject = "" then .error ("token for role " ++ id.role.quote ++ " carries no subject, so it cannot be bound to a resource id")
  else if requested = "" then .ok id.subject
  else if requested ≠ id.subject then .error ("id " ++ requested.quote ++ " does not match the authenticated subject")
  else .ok requested

/-- `pinViewerSource`. -/
def pinViewerSource (id : SwitchIdentity) (sourceId : String) : Except String Unit :=
  if ¬id.authenticated ∨ id.role = "server" ∨ sourceId = "" then .ok ()
  else
    match stripPrefix "stream-" sourceId with
    | none => .error ("a viewer token may only open a stream source, not " ++ sourceId.quote)
    | some stream =>
      if stream = "" then .error ("a viewer token may only open a stream source, not " ++ sourceId.quote)
      else if startsWith ("viewer-" ++ stream ++ "-") id.subject then .ok ()
      else .error ("source " ++ sourceId.quote ++ " is not the stream this viewer token was issued for")

structure OfferRequest where
  authorization : String
  id : String
  /-- Of a viewer offer. -/
  sourceId : String

/-- `handlePublishOffer` behind its route; `negotiation` is what the peer connection makes of the offer. -/
def handlePublishOffer (now : Int) (r : OfferRequest) (negotiation : Except String Unit) : Task (Except Refusal String) :=
  match authMiddleware auth ["server", "publisher"] r.authorization now with
  | .error e => .ret (.error e)
  | .ok identity =>
    match bindSubject identity r.id with
    | .error _ => .ret (.error ⟨403, "publish id does not match the authenticated subject"⟩)
    | .ok id =>
      match negotiation with
      | .error e => .ret (.error ⟨500, e⟩)
      | .ok () => .call (.addSource id) fun _ => .ret (.ok id)

/-- What `handleViewerOffer` does once the offer is negotiated; the activation of the switch is its own task. -/
def attachViewer (id sourceId : String) : Task (Except Refusal String) :=
  (addViewer id).bind fun _ =>
    if sourceId = "" then .ret (.ok id) else .call (.switchViewer id sourceId) fun _ => .ret (.ok id)

/-- `handleViewerOffer` behind its route; `count` is the next number of a viewer without an id. -/
def handleViewerOffer (now : Int) (r : OfferRequest) (negotiation : Except String Unit) (count : Nat) : Task (Except Refusal String) :=
  match authMiddleware auth ["server", "viewer"] r.authorization now with
  | .error e => .ret (.error e)
  | .ok identity =>
    match bindSubject identity r.id with
    | .error _ => .ret (.error ⟨403, "viewer id does not match the authenticated subject"⟩)
    | .ok id =>
      match pinViewerSource identity r.sourceId with
      | .error _ => .ret (.error ⟨403, "source_id is not the stream this viewer token was issued for"⟩)
      | .ok () =>
        match negotiation with
        | .error e => .ret (.error ⟨500, e⟩)
        | .ok () => attachViewer (if id = "" then "viewer-" ++ toString count else id) r.sourceId

end

/-! ## Round trip -/

theorem fromUtf8_utf8 (text : String) : fromUtf8 (utf8 text) = some text := by
  show (if h : text.toByteArray.IsValidUTF8 then some (String.fromUTF8 text.toByteArray h) else none) = some text
  rw [dif_pos text.isValidUTF8]
  rfl

theorem splitOnce_append {sep} {a : String} (b : String) (ha : sep ∉ a.toList) : splitOnce sep (a ++ String.singleton sep ++ b) = some (a, b) := by
  have htext : (a ++ String.singleton sep ++ b).toList = a.toList ++ sep :: b.toList := by simp [String.toList_append]
  have hkeep : ∀ c ∈ a.toList, (c != sep) = true := by
    intro c hc
    rw [bne_iff_ne]
    rintro rfl
    exact ha hc
  unfold splitOnce
  rw [htext, dropWhile_append_of_pos hkeep, takeWhile_append_of_pos hkeep]
  simp

theorem setField_exp (p : TokenPayload) (exp : Nat) : p.setField "exp" (.int exp) = if exp < 2 ^ 63 then some { p with exp := exp } else none := by
  rw [TokenPayload.setField, if_neg (by decide), if_neg (by decide), if_pos (by decide), decodeField, if_neg Json.noConfusion]
  unfold Json.asI64
  by_cases hlt : exp < 2 ^ 63
  · simp only [if_pos hlt, if_pos (show -2 ^ 63 ≤ (exp : Int) ∧ (exp : Int) < 2 ^ 63 by omega), Option.map_some]
  · simp only [if_neg hlt, if_neg (show ¬(-2 ^ 63 ≤ (exp : Int) ∧ (exp : Int) < 2 ^ 63) by omega), Option.map_none]

theorem setField_role (p : TokenPayload) (role : String) : p.setField "role" (.str role) = some { p with role := role } := by
  rw [TokenPayload.setField, if_pos (by decide), decodeField, if_neg Json.noConfusion]
  rfl

theorem setField_sub (p : TokenPayload) (subject : String) : p.setField "sub" (.str subject) = some { p with subject := subject } := by
  rw [TokenPayload.setField, if_neg (by decide), if_pos (by decide), decodeField, if_neg Json.noConfusion]
  rfl

/-- What mm-core writes is read, if its time of expiry is an `int64`. -/
theorem unmarshal_claims (role subject : String) (exp : Nat) :
    unmarshal (String.ofList ((tokenClaims role subject exp).render fun _ => "")) =
      if exp < 2 ^ 63 then some ⟨role, subject, exp⟩ else none := by
  have hparse : Json.parse (String.ofList ((tokenClaims role subject exp).render fun _ => "")) = some (tokenClaims role subject exp) :=
    Json.parse_render _ (cons_ne_nil _ _) (by simp [Json.flat])
  rw [unmarshal, hparse, Option.bind_some]
  simp only [tokenClaims, foldlM_cons, foldlM_nil, setField_exp, setField_role, setField_sub]
  split <;> rfl

theorem dot_notMem_repr (n : Nat) : '.' ∉ n.repr.toList := notMem_repr_of_not_isDigit (by decide) n

/-- What becomes of a token of mm-core. -/
theorem validateToken_generated (auth : SwitchAuth) (role subject : String) (ttlSecs issued : Nat) (allowedRoles : List String) (now : Int) :
    validateToken auth (generateSwitchToken auth role subject ttlSecs issued) allowedRoles now =
      if expiry issued ttlSecs < 2 ^ 63 then
        if now > expiry issued ttlSecs then .error .expired
        else if role ∈ allowedRoles then .ok (role, subject) else .error (.wrongRole role allowedRoles)
      else .error .invalidJson := by
  have hpayload : ∀ bytes, '.' ∉ (String.ofList (Base64.encode bytes)).toList := by
    intro bytes
    rw [String.toList_ofList]
    exact Base64.dot_notMem_encode bytes
  have hsplit : ∀ payload signature, '.' ∉ payload.toList →
      splitOnce '.' (payload ++ "." ++ issued.repr ++ "." ++ signature) = some (payload, issued.repr ++ "." ++ signature) := by
    intro payload signature hdot
    have htext : payload ++ "." ++ issued.repr ++ "." ++ signature = payload ++ String.singleton '.' ++ (issued.repr ++ "." ++ signature) := by
      simp only [String.append_assoc]
      rfl
    rw [htext]
    exact splitOnce_append _ hdot
  have hrest : ∀ signature, splitOnce '.' (issued.repr ++ "." ++ signature) = some (issued.repr, signature) :=
    fun signature => splitOnce_append signature (dot_notMem_repr issued)
  have hdecode : ∀ text, Base64.decode (String.ofList (Base64.encode (utf8 text))).toList = some (utf8 text) := by
    intro text
    rw [String.toList_ofList, Base64.decode_encode]
  unfold validateToken generateSwitchToken signingInput
  simp only [hsplit _ _ (hpayload _), hrest, hdecode, ne_eq, not_true_eq_false, if_false, fromUtf8_utf8, Option.bind_some, unmarshal_claims]
  by_cases hexp : expiry issued ttlSecs < 2 ^ 63
  · simp only [if_pos hexp]
  · simp only [if_neg hexp]

/-! ## What a caller may do -/

/-- Whom mm-core gives a token to. -/
inductive Grant where
  | viewer (stream user : String)
  | publisher (stream : String)
  /-- mm-core itself. -/
  | server
deriving DecidableEq

def Grant.role : Grant → String
  | .viewer _ _ => "viewer"
  | .publisher _ => "publisher"
  | .server => "server"

def Grant.subject : Grant → String
  | .viewer stream user => switchViewerId stream user
  | .publisher stream => switchSourceId stream
  | .server => "mm-core"

/-- The stream is named by a UUID. -/
def Grant.Proper : Grant → Prop
  | .viewer stream _ | .publisher stream => isUuid stream = true
  | .server => True

/-- A token of mm-core. -/
structure Minted where
  grant : Grant
  ttlSecs : Nat
  issued : Nat

def Minted.message (m : Minted) : String := signingInput m.grant.role m.grant.subject (expiry m.issued m.ttlSecs) m.issued

def Minted.token (auth : SwitchAuth) (m : Minted) : String := generateSwitchToken auth m.grant.role m.grant.subject m.ttlSecs m.issued

/-- A signature that fits was made by mm-core, for one of these tokens. -/
def Unforged (auth : SwitchAuth) (minted : List Minted) (authorization : String) : Prop :=
  ∀ message, authorization = "Bearer " ++ (message ++ "." ++ auth.hmac auth.secret message) → ∃ m ∈ minted, message = m.message

/-- The caller presents the token, and it has not expired. -/
def Presents (auth : SwitchAuth) (now : Int) (r : OfferRequest) (m : Minted) : Prop :=
  r.authorization = "Bearer " ++ m.token auth ∧ now ≤ expiry m.issued m.ttlSecs

/-- The sources of streams are named after streams. -/
def StreamSources (s : SwitchState) : Prop :=
  ∀ id src, s.sources[id]? = some src → startsWith "stream-" id = true → ∃ stream, isUuid stream = true ∧ id = switchSourceId stream

/-- A request of a viewer offer with this token. -/
def OpensOwn (m : Minted) : SwitchRequest → Prop
  | .addViewer id => id = m.grant.subject
  | .switchViewer id sourceId => id = m.grant.subject ∧ ∃ stream user, m.grant = .viewer stream user ∧
      ∀ s src, StreamSources s → s.sources[sourceId]? = some src → sourceId = switchSourceId stream
  | .closeViewer _ | .unsubscribe _ => True
  | _ => False

section
variable {auth : SwitchAuth} {minted : List Minted} {now : Int} {r : OfferRequest} {identity : SwitchIdentity} {roles : List String}

/-- The parts of a token that is accepted. -/
theorem validateToken_signed {token role subject} (h : validateToken auth token roles now = .ok (role, subject)) :
    ∃ message, token = message ++ "." ++ auth.hmac auth.secret message := by
  unfold validateToken at h
  split at h
  · cases h
  · rename_i payload rest hfirst
    split at h
    · cases h
    · rename_i timestamp signature hsecond
      split at h
      · cases h
      · rename_i hsignature
        rw [not_ne_iff] at hsignature
        refine ⟨payload ++ "." ++ timestamp, String.toList_inj.mp ?_⟩
        rw [splitOnce_eq_some hfirst, splitOnce_eq_some hsecond, hsignature]
        simp [String.toList_append]

/-- Whoever passes the middleware presents a token of mm-core. -/
theorem authMiddleware_presents (hsecret : auth.secret ≠ "") (hunforged : Unforged auth minted r.authorization)
    (h : authMiddleware auth roles r.authorization now = .ok identity) :
    ∃ m ∈ minted, Presents auth now r m ∧ m.grant.role ∈ roles ∧ identity = ⟨m.grant.role, m.grant.subject, true⟩ := by
  unfold authMiddleware at h
  rw [if_neg hsecret] at h
  split at h
  · cases h
  split at h
  · cases h
  rename_i token hbearer
  rw [stripPrefix_eq_some] at hbearer
  split at h
  · cases h
  rename_i role subject hvalid
  cases h
  obtain ⟨message, hsigned⟩ := validateToken_signed hvalid
  obtain ⟨m, hm, rfl⟩ := hunforged message (by rw [hbearer, hsigned])
  have htoken : token = m.token auth := hsigned
  have hgenerated := validateToken_generated auth m.grant.role m.grant.subject m.ttlSecs m.issued roles now
  rw [show generateSwitchToken auth m.grant.role m.grant.subject m.ttlSecs m.issued = token from htoken.symm, hvalid] at hgenerated
  split at hgenerated
  · split at hgenerated
    · cases hgenerated
    · rename_i hlate
      split at hgenerated
      · rename_i hrole
        cases hgenerated
        exact ⟨m, hm, ⟨by rw [hbearer, htoken], Int.not_lt.mp hlate⟩, hrole, rfl⟩
      · cases hgenerated
  · cases hgenerated

theorem bindSubject_bound {id role subject requested} (hrole : role ≠ "server") (h : bindSubject ⟨role, subject, true⟩ requested = .ok id) :
    id = subject ∧ id ≠ "" := by
  unfold bindSubject at h
  rw [if_neg (by simp [hrole])] at h
  split at h
  · cases h
  · rename_i hsubject
    split at h
    · cases h
      exact ⟨rfl, hsubject⟩
    · rename_i hrequested
      split at h
      · cases h
      · rename_i hsame
        cases h
        exact ⟨not_ne_iff.mp hsame, hrequested⟩

/-- A source that a viewer may open is that of its stream. -/
theorem pinViewerSource_own {stream user sourceId} (hstream : isUuid stream = true) (hsource : sourceId ≠ "")
    (h : pinViewerSource ⟨"viewer", switchViewerId stream user, true⟩ sourceId = .ok ()) {s src} (hsources : StreamSources s)
    (hregistered : s.sources[sourceId]? = some src) : sourceId = switchSourceId stream := by
  unfold pinViewerSource at h
  rw [if_neg (by simp [hsource])] at h
  split at h
  · cases h
  rename_i named hnamed
  rw [stripPrefix_eq_some] at hnamed
  split at h
  · cases h
  split at h
  · rename_i hstarts
    obtain ⟨stream', hstream', hown⟩ := hsources sourceId src hregistered (by rw [hnamed]; exact startsWith_append _ _)
    -- both are UUIDs, which have one length
    have hsame : named.toList = stream'.toList := by
      have htext : ("stream-" ++ named).toList = ("stream-" ++ stream').toList := by rw [← hnamed, hown]; rfl
      rw [String.toList_append, String.toList_append] at htext
      exact append_cancel_left htext
    obtain ⟨rest, hsubject⟩ := startsWith_iff.mp hstarts
    have htext : ("viewer-" ++ stream ++ "-" ++ String.ofList (user.toList.map dashed)).toList = ("viewer-" ++ named ++ "-" ++ rest).toList :=
      congrArg String.toList hsubject
    simp only [String.toList_append, append_assoc] at htext
    have hafter := append_cancel_left htext
    have hlength : stream.toList.length = named.toList.length := by rw [hsame, uuid_length hstream, uuid_length hstream']
    have hequal : stream = named := String.toList_inj.mp (append_inj hafter hlength).1
    rw [hnamed, hequal]
    rfl
  · cases h

theorem Grant.role_ne_server {grant : Grant} (h : grant ≠ .server) : grant.role ≠ "server" := by
  cases grant with
  | server => exact absurd rfl h
  | viewer stream user => exact (by decide : "viewer" ≠ "server")
  | publisher stream => exact (by decide : "publisher" ≠ "server")

theorem addViewer_uses {P id} (hadd : P (.addViewer id)) (hclose : ∀ ref, P (.closeViewer ref))
    (hunsubscribe : ∀ sub, P (.unsubscribe sub)) : (addViewer id).Uses P := by
  refine ⟨hadd, fun displaced => ?_⟩
  cases displaced with
  | none => trivial
  | some old =>
    refine ⟨hclose old, fun sub => ?_⟩
    cases sub with
    | none => trivial
    | some sub => exact ⟨hunsubscribe sub, fun _ => trivial⟩

variable (hsecret : auth.secret ≠ "") (hunforged : Unforged auth minted r.authorization)
  (hserver : ∀ m ∈ minted, r.authorization = "Bearer " ++ m.token auth → m.grant ≠ .server)
include hsecret hunforged hserver

theorem handlePublishOffer_uses (negotiation : Except String Unit) :
    (handlePublishOffer auth now r negotiation).Uses fun q => ∃ m ∈ minted, Presents auth now r m ∧ q = .addSource m.grant.subject := by
  unfold handlePublishOffer
  split
  · trivial
  rename_i identity hmiddleware
  obtain ⟨m, hm, hpresents, hrole, rfl⟩ := authMiddleware_presents hsecret hunforged hmiddleware
  split
  · trivial
  rename_i id hbound
  obtain ⟨rfl, -⟩ := bindSubject_bound (Grant.role_ne_server (hserver m hm hpresents.1)) hbound
  split
  · trivial
  · exact ⟨⟨m, hm, hpresents, rfl⟩, fun _ => trivial⟩

theorem handleViewerOffer_uses (hproper : ∀ m ∈ minted, m.grant.Proper) (negotiation : Except String Unit) (count : Nat) :
    (handleViewerOffer auth now r negotiation count).Uses fun q => ∃ m ∈ minted, Presents auth now r m ∧ OpensOwn m q := by
  unfold handleViewerOffer
  split
  · trivial
  rename_i identity hmiddleware
  obtain ⟨m, hm, hpresents, hrole, rfl⟩ := authMiddleware_presents hsecret hunforged hmiddleware
  split
  · trivial
  rename_i id hbound
  obtain ⟨rfl, hid⟩ := bindSubject_bound (Grant.role_ne_server (hserver m hm hpresents.1)) hbound
  split
  · trivial
  rename_i hpinned
  split
  · trivial
  rw [if_neg hid]
  refine (addViewer_uses ⟨m, hm, hpresents, rfl⟩ (fun _ => ⟨m, hm, hpresents, trivial⟩) fun _ => ⟨m, hm, hpresents, trivial⟩).bind fun _ => ?_
  split
  · trivial
  rename_i hsource
  refine ⟨⟨m, hm, hpresents, rfl, ?_⟩, fun _ => trivial⟩
  cases hgrant : m.grant with
  | server =>
    exact absurd hgrant (hserver m hm hpresents.1)
  | publisher stream =>
    rw [hgrant] at hrole
    exact absurd hrole (by decide : "publisher" ∉ ["server", "viewer"])
  | viewer stream user =>
    have hstream : isUuid stream = true := by
      have hproper := hproper m hm
      rw [hgrant] at hproper
      exact hproper
    rw [hgrant] at hpinned
    exact ⟨stream, user, rfl, fun s src hsources hregistered => pinViewerSource_own hstream hsource hpinned hsources hregistered⟩

end

/-- **A token opens only its own stream**: an offer without the server role registers the subject of an
unexpired token that the caller presents, a viewer offer attaches to no source of another stream, and
a token of mm-core is accepted with its role and its subject until it expires. -/
theorem tokens_open_own_stream (auth : SwitchAuth) (hsecret : auth.secret ≠ "") (minted : List Minted) (hproper : ∀ m ∈ minted, m.grant.Proper)
    (now : Int) (r : OfferRequest) (hunforged : Unforged auth minted r.authorization)
    (hserver : ∀ m ∈ minted, r.authorization = "Bearer " ++ m.token auth → m.grant ≠ .server) :
    (∀ negotiation, (handlePublishOffer auth now r negotiation).Uses fun q =>
      ∃ m ∈ minted, Presents auth now r m ∧ q = .addSource m.grant.subject) ∧
    (∀ negotiation count, (handleViewerOffer auth now r negotiation count).Uses fun q => ∃ m ∈ minted, Presents auth now r m ∧ OpensOwn m q) ∧
    ∀ role subject ttlSecs issued roles, expiry issued ttlSecs < 2 ^ 63 → now ≤ expiry issued ttlSecs → role ∈ roles →
      validateToken auth (generateSwitchToken auth role subject ttlSecs issued) roles now = .ok (role, subject) := by
  refine ⟨handlePublishOffer_uses hsecret hunforged hserver, handleViewerOffer_uses hsecret hunforged hserver hproper,
    fun role subject ttlSecs issued roles hexp hnow hrole => ?_⟩
  rw [validateToken_generated, if_pos hexp, if_neg (Int.not_lt.mpr hnow), if_pos hrole]

/-- For the examples, a signature that tells its message. -/
def sampleAuth : SwitchAuth := ⟨fun secret message => secret ++ message, "secret"⟩

def bobsToken : Minted := ⟨.viewer streamOne "@bob:hs", 300, 1000⟩

def bobsOffer : OfferRequest := ⟨"Bearer " ++ bobsToken.token sampleAuth, "", switchSourceId streamOne⟩

theorem bobsOffer_unforged : Unforged sampleAuth [bobsToken] bobsOffer.authorization := by
  intro message heq
  refine ⟨bobsToken, mem_singleton_self _, ?_⟩
  have htext : ("Bearer " ++ (bobsToken.message ++ "." ++ ("secret" ++ bobsToken.message))).toList =
      ("Bearer " ++ (message ++ "." ++ ("secret" ++ message))).toList := congrArg String.toList heq
  simp only [String.toList_append] at htext
  have hlength := congrArg length htext
  simp only [length_append] at hlength
  exact String.toList_inj.mp (append_inj_right (append_inj_right (append_cancel_left htext) (by simp only [length_append]; omega)) rfl).symm

theorem tokens_open_own_stream_bob :
    (∀ negotiation count, (handleViewerOffer sampleAuth 1200 bobsOffer negotiation count).Uses fun q =>
      ∃ m ∈ [bobsToken], Presents sampleAuth 1200 bobsOffer m ∧ OpensOwn m q) ∧
    validateToken sampleAuth (bobsToken.token sampleAuth) ["server", "viewer"] 1200 = .ok ("viewer", switchViewerId streamOne "@bob:hs") := by
  obtain ⟨-, hviewer, haccepted⟩ := tokens_open_own_stream sampleAuth (by decide) [bobsToken]
    (fun m hm => by rw [mem_singleton.mp hm]; exact (by decide : isUuid streamOne = true)) 1200 bobsOffer bobsOffer_unforged
    (fun m hm _ => by rw [mem_singleton.mp hm]; decide)
  constructor
  · assumption
  · exact haccepted "viewer" (switchViewerId streamOne "@bob:hs") 300 1000 ["server", "viewer"] (by decide) (by decide) (by decide)

/-- A token that has not expired is rejected. -/
theorem token_rejected : ∃ (auth : SwitchAuth) (ttlSecs issued : Nat) (now : Int), auth.secret ≠ "" ∧ now ≤ expiry issued ttlSecs ∧
    validateToken auth (generateSwitchToken auth "viewer" "viewer-bob" ttlSecs issued) ["server", "viewer"] now = .error .invalidJson := by
  refine ⟨sampleAuth, 2 ^ 63, 1000, 1000, by decide, by decide, ?_⟩
  rw [validateToken_generated, if_neg (by decide)]

end MatrixMedia.Switch

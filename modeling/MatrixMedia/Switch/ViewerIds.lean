import MatrixMedia.Paywall.Handlers
import MatrixMedia.Switch.Subscriptions

/-!
# Viewer ids (`mm-core/src/switch_client.rs`)

A viewer is registered under `viewer-<stream>-<user>`, where the separators of the user id are
written as dashes. Stream ids are UUIDs and have one length, so the stream can be read off. The user
cannot: a dash may also be in a localpart or in a server name, and what separates a port is written
as a dash too. `viewer_slots_distinct` says which users can be told apart; `viewer_slot_shared` has
two users of one id.
-/

namespace MatrixMedia.Switch
open Lib SwitchState List
open Std (TreeMap)
open Paywall (switchViewerId)

/-! ## Ids -/

/-- The text of a UUID, as `Uuid` prints it. -/
def isUuid (id : String) : Bool :=
  id.toList.length = 36 &&
    id.toList.zipIdx.all fun (c, i) => if i = 8 || i = 13 || i = 18 || i = 23 then c = '-' else c.isDigit || ('a' ≤ c && c ≤ 'f')

def isLocalChar (c : Char) : Bool := c.isLower || c.isDigit || c ∈ ['.', '_', '=', '-', '/', '+']

def isHostChar (c : Char) : Bool := c.isAlphanum || c = '.' || c = '-'

/-- Of an IPv6 literal. -/
def isAddressChar (c : Char) : Bool := c.isDigit || ('a' ≤ c && c ≤ 'f') || ('A' ≤ c && c ≤ 'F') || c = ':' || c = '.'

/-- A server name with an optional port. -/
structure ServerName where
  host : String
  port : Option String
  host_ok : (∀ c ∈ host.toList, isHostChar c = true) ∨ ∃ address, host = "[" ++ address ++ "]" ∧ ∀ c ∈ address.toList, isAddressChar c = true
  port_ok : ∀ p ∈ port, p.toList ≠ [] ∧ ∀ c ∈ p.toList, c.isDigit = true

def ServerName.text (server : ServerName) : String :=
  match server.port with
  | some port => server.host ++ ":" ++ port
  | none => server.host

/-- A Matrix user id. -/
structure UserId where
  localpart : String
  server : ServerName
  localpart_ok : ∀ c ∈ localpart.toList, isLocalChar c = true

def UserId.text (user : UserId) : String := "@" ++ user.localpart ++ ":" ++ user.server.text

/-- A viewer id writes the two alike. -/
def Alike (c d : Char) : Prop := c = d ∨ c ∈ [':', '@', '!', '-'] ∧ d ∈ [':', '@', '!', '-']

instance (c d : Char) : Decidable (Alike c d) := inferInstanceAs (Decidable (_ ∨ _))

/-- Their ids differ at most in which separator stands where. -/
def Confusable (user user' : UserId) : Prop := Forall₂ Alike user.text.toList user'.text.toList

instance (user user' : UserId) : Decidable (Confusable user user') := inferInstanceAs (Decidable (Forall₂ ..))

/-! ## What an id is made of -/

def dashed (c : Char) : Char := if c ∈ [':', '@', '!'] then '-' else c

theorem dashed_eq_iff {c d : Char} : dashed c = dashed d ↔ Alike c d := by
  unfold dashed Alike
  by_cases hc : c ∈ [':', '@', '!'] <;> by_cases hd : d ∈ [':', '@', '!'] <;>
    simp only [hc, hd, if_true, if_false] <;> grind

theorem map_dashed_iff {cs ds : List Char} : cs.map dashed = ds.map dashed ↔ Forall₂ Alike cs ds := by
  rw [← forall₂_eq_eq_eq, forall₂_map_left_iff, forall₂_map_right_iff]
  simp only [dashed_eq_iff]

theorem uuid_length {id} (h : isUuid id = true) : id.toList.length = 36 := of_decide_eq_true (Bool.and_eq_true_iff.mp h).1

/-- The stream can be read off a viewer id, and the user up to the separators. -/
theorem switchViewerId_eq_iff {stream stream'} {user user' : UserId} (hstream : isUuid stream = true) (hstream' : isUuid stream' = true) :
    switchViewerId stream user.text = switchViewerId stream' user'.text ↔ stream = stream' ∧ Confusable user user' := by
  have chars (stream) (user : UserId) : (switchViewerId stream user.text).toList =
      "viewer-".toList ++ (stream.toList ++ '-' :: user.text.toList.map dashed) := by
    show ("viewer-" ++ stream ++ "-" ++ String.ofList (user.text.toList.map dashed)).toList = _
    simp [String.toList_append]
  rw [← String.toList_inj, chars, chars, append_cancel_left_eq, Confusable, ← map_dashed_iff, ← String.toList_inj]
  constructor
  · intro h
    obtain ⟨hsame, htail⟩ := append_inj h ((uuid_length hstream).trans (uuid_length hstream').symm)
    exact ⟨hsame, (List.cons.inj htail).2⟩
  · rintro ⟨hsame, hrest⟩
    rw [hsame, hrest]

/-! ## Slots -/

section
variable {s : SwitchState} {id id' : String} {ref : Nat}

/-- A switch is about the object of its viewer id. -/
theorem viewerObjects_switchViewer (htables : TablesOk s) (hne : id ≠ id') (href : s.viewers[id']? = some ref) (source : String) :
    (s.switchViewer id source).1.viewerObjects ref = s.viewerObjects ref := by
  unfold SwitchState.switchViewer
  cases hviewer : s.viewers[id]? with
  | none => rfl
  | some old =>
    have hold : ref ≠ old := by
      rintro rfl
      exact hne ((htables.viewers id ref hviewer).2.symm.trans (htables.viewers id' ref href).2)
    cases hsource : s.sources[source]? with
    | none => rfl
    | some src =>
      simp only [switchTo]
      split
      · rfl
      · show Function.update (s.release old).viewerObjects old _ ref = _
        rw [Function.update_of_ne hold, viewerObjects_release, Function.update_of_ne hold]

end

/-- **Two people never share a viewer slot** exactly if they are on different streams or their ids differ in
more than the separators; then an offer displaces no one else's viewer and a switch moves no one else. -/
theorem viewer_slots_distinct (stream stream' : String) (user user' : UserId) (hstream : isUuid stream = true) (hstream' : isUuid stream' = true) :
    ((switchViewerId stream user.text = switchViewerId stream' user'.text → stream = stream' ∧ user.text = user'.text) ↔
      (stream = stream' → Confusable user user' → user.text = user'.text)) ∧
    ((stream = stream' → ¬Confusable user user') → ∀ s : SwitchState, TablesOk s → ∀ ref, s.viewers[switchViewerId stream' user'.text]? = some ref →
      (s.addViewer (switchViewerId stream user.text)).2 ≠ some ref ∧
      (s.addViewer (switchViewerId stream user.text)).1.viewers[switchViewerId stream' user'.text]? = some ref ∧
      ∀ source, (s.switchViewer (switchViewerId stream user.text) source).1.viewerObjects ref = s.viewerObjects ref) := by
  rw [switchViewerId_eq_iff hstream hstream']
  refine ⟨⟨fun h hsame hconfused => (h ⟨hsame, hconfused⟩).2, fun h hboth => ⟨hboth.1, h hboth.1 hboth.2⟩⟩, fun hclear s htables ref href => ?_⟩
  have hne : switchViewerId stream user.text ≠ switchViewerId stream' user'.text := fun heq =>
    have hboth := (switchViewerId_eq_iff hstream hstream').mp heq
    hclear hboth.1 hboth.2
  refine ⟨fun hdisplaced => hne ?_, ?_, fun source => viewerObjects_switchViewer htables hne href source⟩
  · have hold := (htables.viewers _ ref hdisplaced).2
    exact hold.symm.trans (htables.viewers _ ref href).2
  · show (s.viewers.insert (switchViewerId stream user.text) s.nextViewer)[switchViewerId stream' user'.text]? = some ref
    rw [Table.getElem?_insert, if_neg hne, href]

def streamOne : String := "3f2a1c9e-0000-4000-8000-00000000000a"

def userOf (localpart host : String) (hlocal : localpart.toList.all isLocalChar = true) (hhost : host.toList.all isHostChar = true) : UserId :=
  ⟨localpart, ⟨host, none, .inl (all_eq_true.mp hhost), fun _ hp => (by cases hp)⟩, all_eq_true.mp hlocal⟩

/-- One viewer is registered. -/
theorem tables_single (id : String) : TablesOk (empty.addViewer id).1 := by
  refine ⟨fun src key ref hkey => (by cases hkey), fun id' ref hviewer => ?_, fun id' src hsource => ?_⟩
  · have hview : (empty.viewers.insert id 0)[id']? = some ref := hviewer
    rw [Table.getElem?_insert] at hview
    split at hview
    · rename_i heq
      cases hview
      exact ⟨Nat.zero_lt_one, heq⟩
    · cases TreeMap.getElem?_emptyc.symm.trans hview
  · cases TreeMap.getElem?_emptyc.symm.trans hsource

theorem viewer_slots_distinct_ann : ∃ ann bob : UserId, ann.text = "@ann-lee:c.org" ∧ bob.text = "@ann:lee.c.org" ∧
    ((SwitchState.empty.addViewer (switchViewerId streamOne bob.text)).1.addViewer (switchViewerId streamOne ann.text)).2 ≠ some 0 := by
  refine ⟨userOf "ann-lee" "c.org" (by decide) (by decide), userOf "ann" "lee.c.org" (by decide) (by decide), rfl, rfl, ?_⟩
  have hslots := (viewer_slots_distinct streamOne streamOne (userOf "ann-lee" "c.org" (by decide) (by decide))
    (userOf "ann" "lee.c.org" (by decide) (by decide)) (by decide) (by decide)).2 fun _ => by decide
  refine (hslots _ (tables_single _) 0 ?_).1
  show (empty.viewers.insert _ 0)[_]? = some 0
  rw [Table.getElem?_insert, if_pos rfl]

/-- The offer of one user displaces the viewer of another. -/
theorem viewer_slot_shared : ∃ (user user' : UserId) (s : SwitchState) (ref : Nat), user.text = "@a-b:c.org" ∧ user'.text = "@a:b-c.org" ∧ TablesOk s ∧
    switchViewerId streamOne user.text = switchViewerId streamOne user'.text ∧
    s.viewers[switchViewerId streamOne user'.text]? = some ref ∧ (s.addViewer (switchViewerId streamOne user.text)).2 = some ref := by
  have hsame : switchViewerId streamOne "@a-b:c.org" = switchViewerId streamOne "@a:b-c.org" := by decide
  have hviewer : ∀ id, (empty.addViewer id).1.viewers[id]? = some 0 := by
    intro id
    show (empty.viewers.insert id 0)[id]? = some 0
    rw [Table.getElem?_insert, if_pos rfl]
  refine ⟨userOf "a-b" "c.org" (by decide) (by decide), userOf "a" "b-c.org" (by decide) (by decide),
    (empty.addViewer (switchViewerId streamOne "@a:b-c.org")).1, 0, rfl, rfl, tables_single _, hsame, hviewer _, ?_⟩
  show (empty.addViewer (switchViewerId streamOne "@a:b-c.org")).1.viewers[switchViewerId streamOne "@a-b:c.org"]? = some 0
  rw [hsame]
  exact hviewer _

end MatrixMedia.Switch

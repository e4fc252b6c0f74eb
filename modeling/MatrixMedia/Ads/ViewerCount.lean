import Mathlib.Algebra.BigOperators.Ring.Finset
import MatrixMedia.Ads.Routing
import MatrixMedia.Switch.ViewerIds

/-!
# The viewer count of a stream (`proxy_viewer_count`)

A viewer in an ad break is on a source that names a user and no stream. Such a viewer is counted for
every stream, so the count is that of the stream exactly when no one else's viewer is in a break or on
the stream's source.
-/

namespace MatrixMedia.Ads
open Lib.Text Streams Switch List

structure SwitchViewer where
  id : String
  currentSource : String
  connected : Bool

namespace SwitchViewer
variable (stream : String) (v : SwitchViewer)

def counted : Bool := v.connected && (v.currentSource == switchSourceId stream || startsWith "ad-" v.currentSource)

/-- The viewer id is one of the stream's. -/
def belongs : Bool := startsWith ("viewer-" ++ stream ++ "-") v.id

variable {v}

/-- UUIDs have one length, so a viewer is of one stream. -/
theorem belongs_unique {s t} (hs : isUuid s = true) (ht : isUuid t = true) (h : v.belongs s = true) (h' : v.belongs t = true) : s = t := by
  obtain ⟨r, hr⟩ := startsWith_iff.mp h
  obtain ⟨r', hr'⟩ := startsWith_iff.mp h'
  have hlist := congrArg String.toList (hr.symm.trans hr')
  simp only [String.toList_append, append_assoc, append_cancel_left_eq] at hlist
  exact String.toList_inj.mp (append_inj_left hlist ((uuid_length hs).trans (uuid_length ht).symm))

end SwitchViewer

open SwitchViewer

/-- What `list_viewers` answers. -/
abbrev Listing := SwitchClient → Except String (List SwitchViewer)

/-- The origin, and the nodes that are still there. -/
def SwitchPool.clients (pool : SwitchPool) : List SwitchClient :=
  pool.origin :: pool.nodes.toList.filterMap fun x => pool.clientForNode (some x.1)

/-- One switch's answer, in `u32` arithmetic; a switch that does not answer counts as zero. -/
def addViewers (listViewers : Listing) (id : String) (viewers : Nat) (client : SwitchClient) : Nat :=
  match listViewers client with
  | .ok list => (viewers + (list.filter (counted id)).length) % 2 ^ 32
  | .error _ => viewers

def proxyViewerCount (pool : Option SwitchPool) (listViewers : Listing) (id : String) : Nat :=
  match pool with
  | none => 0
  | some pool => pool.clients.foldl (addViewers listViewers id) 0

/-- While the sum stays in range. -/
theorem foldl_addViewers (viewers stream) (clients : List SwitchClient) (n : Nat) (few : n + (clients.flatMap viewers).length < 2 ^ 32) :
    clients.foldl (addViewers (fun c => .ok (viewers c)) stream) n = n + ((clients.flatMap viewers).filter (counted stream)).length := by
  induction clients generalizing n with
  | nil => rfl
  | cons client clients ih =>
    have here := length_filter_le (counted stream) (viewers client)
    rw [flatMap_cons, length_append] at few
    have step : addViewers (fun c => .ok (viewers c)) stream n client = n + ((viewers client).filter (counted stream)).length :=
      Nat.mod_eq_of_lt (by omega)
    rw [foldl_cons, step, ih _ (by omega), flatMap_cons, filter_append, length_append, Nat.add_assoc]

/-- Everyone is in at most one of the groups. -/
theorem sum_length_filter_le {α β : Type} (S : Finset α) (p : α → β → Bool) (l : List β)
    (apart : ∀ s ∈ S, ∀ t ∈ S, ∀ v, p s v = true → p t v = true → s = t) : ∑ s ∈ S, (l.filter (p s)).length ≤ l.length := by
  induction l with
  | nil => simp
  | cons v l ih =>
    have one : (S.filter fun s => p s v = true).card ≤ 1 := by
      refine Finset.card_le_one.mpr fun s hs t ht => ?_
      rw [Finset.mem_filter] at hs ht
      exact apart s hs.1 t ht.1 v hs.2 ht.2
    have here s : ((v :: l).filter (p s)).length = (l.filter (p s)).length + if p s v = true then 1 else 0 := by
      rw [filter_cons]
      split <;> rfl
    rw [Finset.sum_congr rfl fun s _ => here s, Finset.sum_add_distrib, ← Finset.card_filter, length_cons]
    omega

/-- **The count is that of the stream** exactly when only its own viewers are in an ad break or on its
source; where that is so for each of some streams, their counts add up to no more than the viewers. -/
theorem viewer_count_per_stream (pool : SwitchPool) (viewers : SwitchClient → List SwitchViewer) {all : List SwitchViewer}
    (everyone : pool.clients.flatMap viewers = all) (few : all.length < 2 ^ 32) :
    (∀ stream, proxyViewerCount (some pool) (fun c => .ok (viewers c)) stream = (all.filter fun v => v.counted stream && v.belongs stream).length ↔
      ∀ v ∈ all, v.counted stream = true → v.belongs stream = true) ∧
    ∀ streams, (∀ s ∈ streams, isUuid s = true ∧ ∀ v ∈ all, v.counted s = true → v.belongs s = true) →
      ∑ s ∈ streams, proxyViewerCount (some pool) (fun c => .ok (viewers c)) s ≤ (all.filter connected).length := by
  have count stream : proxyViewerCount (some pool) (fun c => .ok (viewers c)) stream = (all.filter (counted stream)).length := by
    subst everyone
    exact (foldl_addViewers viewers stream pool.clients 0 (by omega)).trans (Nat.zero_add _)
  have own stream : (all.filter (counted stream)).length = (all.filter fun v => v.counted stream && v.belongs stream).length ↔
      ∀ v ∈ all, v.counted stream = true → v.belongs stream = true := by
    rw [eq_comm, ← filter_filter, filter_comm, length_filter_eq_length_iff]
    simp only [mem_filter, and_imp]
  refine ⟨fun stream => by rw [count, own], fun streams hown => ?_⟩
  have mine s (hs : s ∈ streams) : proxyViewerCount (some pool) (fun c => .ok (viewers c)) s =
      ((all.filter connected).filter fun v => v.counted s && v.belongs s).length := by
    rw [count, (own s).mpr (hown s hs).2, filter_filter]
    refine congrArg List.length (filter_congr fun v _ => ?_)
    cases hconnected : v.connected <;> simp [counted, hconnected]
  rw [Finset.sum_congr rfl mine]
  refine sum_length_filter_le streams _ _ fun s hs t ht v hv hv' => ?_
  exact belongs_unique (hown s hs).1 (hown t ht).1 (Bool.and_eq_true_iff.mp hv).2 (Bool.and_eq_true_iff.mp hv').2

/-- One viewer on the origin, of the first stream. -/
def alone (source : String) (_ : SwitchClient) : List SwitchViewer := [⟨"viewer-" ++ streamOne ++ "--alice-hs", source, true⟩]

def streamTwo : String := "3f2a1c9e-0000-4000-8000-00000000000b"

/-- A viewer of each. -/
def oneEach (c : SwitchClient) : List SwitchViewer :=
  ⟨"viewer-" ++ streamTwo ++ "--bob-hs", switchSourceId streamTwo, true⟩ :: alone (switchSourceId streamOne) c

/-- In a break alone, and with a viewer of another stream. -/
theorem viewer_count_per_stream_alone :
    proxyViewerCount (some (.new "http://origin")) (fun c => .ok (alone "ad--alice-hs-1000" c)) streamOne = 1 ∧
    ∑ s ∈ {streamOne, streamTwo}, proxyViewerCount (some (.new "http://origin")) (fun c => .ok (oneEach c)) s ≤ 2 :=
  ⟨((viewer_count_per_stream (.new "http://origin") (alone "ad--alice-hs-1000") rfl (by decide +kernel)).1 streamOne).mpr (by decide +kernel),
    (viewer_count_per_stream (.new "http://origin") oneEach rfl (by decide +kernel)).2 {streamOne, streamTwo} (by decide +kernel)⟩

/-- In a break the viewer is counted for another stream as well. -/
theorem counted_for_both : proxyViewerCount (some (.new "http://origin")) (fun c => .ok (alone "ad--alice-hs-1000" c)) streamOne = 1 ∧
    proxyViewerCount (some (.new "http://origin")) (fun c => .ok (alone "ad--alice-hs-1000" c)) streamTwo = 1 := by
  decide +kernel

end MatrixMedia.Ads

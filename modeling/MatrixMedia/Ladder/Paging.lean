import MatrixMedia.Lib.Pages
import Mathlib.Data.Finset.Sort

/-!
# The pages of a tick (`ladder_tick` in `mm-fleet/src/ladder_loop.rs`)

A tick asks for the live broadcasts behind the last one it has seen, evaluates the page, and goes on
until a page is empty. Ids are in the order of the database. What an evaluation leaves, with all that
happens meanwhile, is `evaluate`; it may end broadcasts, the page's own and others.
-/

namespace MatrixMedia.Ladder
open Lib List

section
variable {Id World : Type} [LinearOrder Id] (live : World → Finset Id) (fault : World → Option String) (evaluate : World → Id → World)
  (pageSize : Int)

def liveAfter (streams : Finset Id) (after : Option Id) : Finset Id := streams.filter fun id => ∀ a ∈ after, a < id

/-- `live_broadcasts_after`. -/
def liveBroadcastsAfter (streams : Finset Id) (after : Option Id) (limit : Nat) : List Id := (liveAfter streams after).sort.take limit

/-- The loop of `ladder_tick`, with the broadcasts evaluated so far; the text is that of a failed listing. -/
def ladderTick : Nat → Option Id → World → List Id → Option (World × List Id × Option String)
  | 0, _, _, _ => none
  | n + 1, after, w, evaluated =>
    match fault w with
    | some e => some (w, evaluated, some ("listing live broadcasts failed: " ++ e))
    | none =>
      let page := liveBroadcastsAfter (live w) after (max pageSize 1).toNat
      match page.getLast? with
      | none => some (w, evaluated, none)
      | some last => ladderTick n (some last) (page.foldl evaluate w) (evaluated ++ page)

/-- Between two pages: what was evaluated, once, is not behind the cursor, and all else that is live is. -/
structure Walked (streams : Finset Id) (after : Option Id) (now : Finset Id) (evaluated : List Id) : Prop where
  nodup : evaluated.Nodup
  listed : ∀ id ∈ evaluated, id ∈ streams
  shrunk : now ⊆ streams
  passed : ∀ id ∈ evaluated, ¬∀ a ∈ after, a < id
  covered : ∀ id ∈ now, id ∈ evaluated ∨ ∀ a ∈ after, a < id

variable {live fault evaluate pageSize} {streams now now' : Finset Id} {after : Option Id} {evaluated : List Id} {limit : Nat} {last : Id}

theorem mem_liveAfter {id : Id} : id ∈ liveAfter now after ↔ id ∈ now ∧ ∀ a ∈ after, a < id := Finset.mem_filter

/-- One page. -/
theorem Walked.page (h : Walked streams after now evaluated) (hlast : (liveBroadcastsAfter now after limit).getLast? = some last)
    (shrinks : now' ⊆ now) : Walked streams (some last) now' (evaluated ++ liveBroadcastsAfter now after limit) ∧
      (liveAfter now' (some last)).card < (liveAfter now after).card := by
  have sorted := (Finset.sortedLT_sort (liveAfter now after)).pairwise
  have mem {id} (hid : id ∈ liveBroadcastsAfter now after limit) : id ∈ liveAfter now after :=
    (Finset.mem_sort _).mp (mem_of_mem_take hid)
  have behind := Pages.filter_after_last sorted (fun _ _ => lt_asymm) hlast
  -- the cursor moves on: whatever is behind a page's last row was behind the cursor
  have further {id} (hid : last < id) : ∀ a ∈ after, a < id := fun a ha =>
    ((mem_liveAfter.mp (mem (mem_of_getLast? hlast))).2 a ha).trans hid
  refine ⟨⟨?_, ?_, shrinks.trans h.shrunk, ?_, ?_⟩, ?_⟩
  · refine nodup_append.mpr ⟨h.nodup, (Finset.sort_nodup _ _).sublist (take_sublist ..), ?_⟩
    rintro id hid _ hpage rfl
    exact h.passed id hid (mem_liveAfter.mp (mem hpage)).2
  · intro id hid
    rcases mem_append.mp hid with hid | hid
    · exact h.listed id hid
    · exact h.shrunk (mem_liveAfter.mp (mem hid)).1
  · intro id hid hafter
    rcases mem_append.mp hid with hid | hid
    · exact h.passed id hid (further (hafter last rfl))
    · exact Pages.not_after_last sorted (fun _ _ => lt_asymm) hlast hid (hafter last rfl)
  · intro id hid
    rcases h.covered id (shrinks hid) with hdone | hafter
    · exact .inl (mem_append_left _ hdone)
    · have hrow : id ∈ liveBroadcastsAfter now after limit ++ (liveAfter now after).sort.drop limit := by
        rw [liveBroadcastsAfter, take_append_drop]
        exact (Finset.mem_sort _).mpr (mem_liveAfter.mpr ⟨shrinks hid, hafter⟩)
      rw [← behind, mem_append, mem_filter] at hrow
      rcases hrow with hpage | ⟨-, hbehind⟩
      · exact .inl (mem_append_right _ hpage)
      · refine .inr fun a ha => ?_
        cases ha
        exact of_decide_eq_true hbehind
  · refine Finset.card_lt_card (Finset.ssubset_iff_of_subset ?_ |>.mpr ?_)
    · intro id hid
      obtain ⟨hnow, hafter⟩ := mem_liveAfter.mp hid
      exact mem_liveAfter.mpr ⟨shrinks hnow, further (hafter last rfl)⟩
    · exact ⟨last, mem (mem_of_getLast? hlast), fun hid => lt_irrefl _ ((mem_liveAfter.mp hid).2 last rfl)⟩

/-- An empty page: everything that is live was evaluated. -/
theorem Walked.done (h : Walked streams after now evaluated) (hpage : (liveBroadcastsAfter now after (max pageSize 1).toNat).getLast? = none) :
    ∀ id ∈ now, id ∈ evaluated := by
  intro id hid
  refine (h.covered id hid).resolve_right fun hafter => ?_
  have hrow := (Finset.mem_sort (· ≤ ·)).mpr (mem_liveAfter.mpr ⟨hid, hafter⟩)
  rw [getLast?_eq_none_iff, liveBroadcastsAfter, take_eq_nil_iff] at hpage
  rcases hpage with hlimit | hnone
  · omega
  · rw [hnone] at hrow
    cases hrow

omit [LinearOrder Id] in
theorem foldl_evaluate (shrinks : ∀ w id, live (evaluate w id) ⊆ live w) (page : List Id) (w : World) : live (page.foldl evaluate w) ⊆ live w := by
  induction page generalizing w with
  | nil => exact subset_rfl
  | cons id page ih => exact (ih (evaluate w id)).trans (shrinks w id)

/-- The walk, by induction on the broadcasts behind the cursor. -/
theorem Walked.tick (shrinks : ∀ w id, live (evaluate w id) ⊆ live w) {n : Nat} {w₀ w : World} (h : Walked streams after (live w) evaluated)
    (hworld : evaluated.foldl evaluate w₀ = w) (enough : (liveAfter (live w) after).card < n) :
    ∃ w' all failure, ladderTick live fault evaluate pageSize n after w evaluated = some (w', all, failure) ∧ w' = all.foldl evaluate w₀ ∧
      all.Nodup ∧ (∀ id ∈ all, id ∈ streams) ∧ (failure = none → ∀ id ∈ live w', id ∈ all) ∧ ((∀ w, fault w = none) → failure = none) := by
  induction n generalizing after w evaluated with
  | zero => exact absurd enough (Nat.not_lt_zero _)
  | succ n ih =>
    rw [ladderTick]
    split
    case h_1 e hfault => exact ⟨_, _, _, rfl, hworld.symm, h.nodup, h.listed, nofun, fun healthy => nomatch (healthy w).symm.trans hfault⟩
    case h_2 =>
      dsimp only
      split
      case h_1 hpage => exact ⟨_, _, _, rfl, hworld.symm, h.nodup, h.listed, fun _ => h.done hpage, fun _ => rfl⟩
      case h_2 last hlast =>
        obtain ⟨next, less⟩ := h.page hlast (foldl_evaluate shrinks _ w)
        exact ih next (by rw [foldl_append, hworld]) (by omega)

end

/-- **Every live broadcast once**: a tick ends, and its world is that after the evaluations of some
broadcasts in turn: none twice, none that was not live and, when the listings are answered, every one
that is live to the end. -/
theorem tick_evaluates_each_once {Id World : Type} [LinearOrder Id] (live : World → Finset Id) (fault : World → Option String)
    (evaluate : World → Id → World) (pageSize : Int) (shrinks : ∀ w id, live (evaluate w id) ⊆ live w) (w : World) (n : Nat)
    (enough : (live w).card < n) : ∃ w' all failure, ladderTick live fault evaluate pageSize n none w [] = some (w', all, failure) ∧
      w' = all.foldl evaluate w ∧ all.Nodup ∧ (∀ id ∈ all, id ∈ live w) ∧ (failure = none → ∀ id ∈ live w', id ∈ all) ∧ ((∀ w, fault w = none) → failure = none) :=
  Walked.tick shrinks ⟨nodup_nil, nofun, subset_rfl, nofun, fun _ _ => .inr nofun⟩ rfl
    ((Finset.card_le_card (Finset.filter_subset ..)).trans_lt enough)

/-- Evaluations are counted, the first ends the second broadcast, and pages are of one. -/
def counted (w : Finset Nat × List Nat) (b : Nat) : Finset Nat × List Nat := (if b = 1 then w.1.erase 2 else w.1, b :: w.2)

theorem tick_evaluates_each_once_ending : ∃ w' all failure,
    ladderTick Prod.fst (fun _ => none) counted 0 4 none ({1, 2, 3}, []) [] = some (w', all, failure) ∧
      w' = all.foldl counted ({1, 2, 3}, []) ∧ all.Nodup ∧ (∀ b ∈ all, b ∈ ({1, 2, 3} : Finset Nat)) ∧
      (failure = none → ∀ b ∈ w'.1, b ∈ all) ∧ ((∀ _ : Finset Nat × List Nat, (none : Option String) = none) → failure = none) :=
  tick_evaluates_each_once Prod.fst _ counted 0 (by intro w b; dsimp only [counted]; split; exacts [Finset.erase_subset .., subset_rfl]) _ 4 (by decide)

end MatrixMedia.Ladder

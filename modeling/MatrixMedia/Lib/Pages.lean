import Mathlib.Data.List.Sort

/-!
# Pages of a sorted list

A list is read page by page, each from behind the last row of the one before. `filter_after_last` is
for an order in which no two rows are alike, `filter_eq_drop` for one in which some may be.
-/

namespace Lib.Pages
open List

variable {α : Type} {r : α → α → Prop} {rows : List α} {limit : Nat} {x last : α}

/-- A page has nothing behind its last row. -/
theorem not_after_last (sorted : rows.Pairwise r) (asymm : ∀ a b, r a b → ¬r b a) (hlast : (rows.take limit).getLast? = some last)
    (hx : x ∈ rows.take limit) : ¬r last x := by
  obtain ⟨init, heq⟩ := getLast?_eq_some_iff.mp hlast
  have hpage := sorted.sublist (take_sublist limit rows)
  rw [heq, pairwise_append] at hpage
  rw [heq, mem_append, mem_singleton] at hx
  rcases hx with hx | rfl
  · exact asymm x last (hpage.2.2 x hx last mem_cons_self)
  · exact fun h => asymm x x h h

/-- The rows behind the last one of a page are those that the page leaves. -/
theorem filter_after_last [DecidableRel r] (sorted : rows.Pairwise r) (asymm : ∀ a b, r a b → ¬r b a)
    (hlast : (rows.take limit).getLast? = some last) : rows.filter (r last ·) = rows.drop limit := by
  have hparts := take_append_drop limit rows
  have hsorted := sorted
  rw [← hparts, pairwise_append] at hsorted
  nth_rewrite 1 [← hparts]
  rw [filter_append, filter_eq_nil_iff.mpr, nil_append, filter_eq_self.mpr]
  · exact fun x hx => decide_eq_true (hsorted.2.2 last (mem_of_getLast? hlast) x hx)
  · exact fun x hx h => not_after_last sorted asymm hlast hx (of_decide_eq_true h)

/-- What is behind a row of a sorted list is its end from some place on. -/
theorem filter_eq_drop {p : α → Bool} (sorted : rows.Pairwise fun a b => p a = true → p b = true) :
    ∃ j, rows.filter p = rows.drop j ∧ ∀ i a, rows[i]? = some a → (p a = true ↔ j ≤ i) := by
  induction rows with
  | nil => exact ⟨0, rfl, nofun⟩
  | cons a rows ih =>
    obtain ⟨hhead, hrest⟩ := pairwise_cons.mp sorted
    by_cases ha : p a = true
    · have hall : ∀ b ∈ a :: rows, p b = true := forall_mem_cons.mpr ⟨ha, fun b hb => hhead b hb ha⟩
      exact ⟨0, filter_eq_self.mpr hall, fun i b hb => iff_of_true (hall b (mem_of_getElem? hb)) (Nat.zero_le _)⟩
    · obtain ⟨j, heq, hplaces⟩ := ih hrest
      refine ⟨j + 1, by rw [filter_cons_of_neg ha, heq, drop_succ_cons], fun i b hb => ?_⟩
      cases i with
      | zero =>
        obtain rfl := Option.some.inj hb
        exact iff_of_false ha (Nat.not_succ_le_zero _)
      | succ i => exact (hplaces i b hb).trans Nat.succ_le_succ_iff.symm

section
variable [DecidableRel r] [IsTrans α r] (p : α → Bool)

theorem filter_orderedInsert (a : α) (sorted : rows.Pairwise r) :
    (rows.orderedInsert r a).filter p = if p a = true then (rows.filter p).orderedInsert r a else rows.filter p := by
  induction rows with
  | nil => cases h : p a <;> simp [h]
  | cons b rows ih =>
    obtain ⟨hhead, hrest⟩ := pairwise_cons.mp sorted
    by_cases hab : r a b
    · rw [orderedInsert_cons, if_pos hab, filter_cons]
      refine if_congr Iff.rfl ?_ rfl
      -- `a` comes before all that is left, whether or not `b` is left
      cases hkept : (b :: rows).filter p with
      | nil => rfl
      | cons c kept =>
        have hc : c ∈ b :: rows := mem_of_mem_filter (hkept ▸ mem_cons_self)
        rw [orderedInsert_cons, if_pos]
        rcases mem_cons.mp hc with rfl | hc
        · exact hab
        · exact Trans.trans hab (hhead c hc)
    · rw [orderedInsert_cons, if_neg hab, filter_cons, filter_cons, ih hrest]
      by_cases hb : p b = true
      · rw [if_pos hb, if_pos hb, orderedInsert_cons, if_neg hab]
        split <;> rfl
      · rw [if_neg hb, if_neg hb]

/-- The rows that pass are in the order of all. -/
theorem insertionSort_filter [Std.Total r] (rows : List α) : (rows.filter p).insertionSort r = (rows.insertionSort r).filter p := by
  induction rows with
  | nil => rfl
  | cons a rows ih =>
    rw [insertionSort_cons, filter_orderedInsert p a (pairwise_insertionSort r rows), ← ih, filter_cons]
    split <;> rfl

end

end Lib.Pages

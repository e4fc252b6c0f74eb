import MatrixMedia.Lib.Run

/-!
# Audit trails and journals

A trail records the changes of one value: each entry starts where the one before it
ended, and no entry is idle. `Trail.concat` is how a trail grows.

A journal keeps its entries newest first, and each entry was in order over the older ones
when it was written. `Journal.split` reads that off at any entry, `Journal.pairwise` turns it
into a relation between any two.
-/

namespace Lib

/-- The entries, oldest first, lead from `a` to `b`. -/
def Trail {β : Type} : β → List (β × β) → β → Prop
  | a, [], b => a = b
  | a, (x, y) :: entries, b => x = a ∧ x ≠ y ∧ Trail y entries b

/-- The entry of a change, none if there was no change. -/
def changeOf {β : Type} [DecidableEq β] (old new : β) : List (β × β) := if old = new then [] else [(old, new)]

theorem Trail.append {β : Type} {a b c : β} {entries more : List (β × β)} (h : Trail a entries b)
    (h' : Trail b more c) : Trail a (entries ++ more) c := by
  induction entries generalizing a with
  | nil =>
    cases h
    exact h'
  | cons entry entries ih => exact ⟨h.1, h.2.1, ih h.2.2⟩

theorem trail_changeOf {β : Type} [DecidableEq β] (old new : β) : Trail old (changeOf old new) new := by
  unfold changeOf
  split
  · assumption
  · rename_i hne
    exact ⟨rfl, hne, rfl⟩

/-- A trail goes on with the entry of the next change. -/
theorem Trail.concat {β : Type} [DecidableEq β] {a b : β} {entries : List (β × β)} (h : Trail a entries b) (c : β) :
    Trail a (entries ++ changeOf b c) c :=
  h.append (trail_changeOf b c)

/-- Newest first; `Ok e older` says that `e` may be written over `older`. -/
def Journal {α : Type} (Ok : α → List α → Prop) : List α → Prop
  | [] => True
  | e :: older => Ok e older ∧ Journal Ok older

section
variable {α : Type} {Ok : α → List α → Prop}

theorem Journal.older {newer older} (h : Journal Ok (newer ++ older)) : Journal Ok older := by
  induction newer with
  | nil => exact h
  | cons _ newer ih => exact ih h.2

theorem Journal.split {newer older e} (h : Journal Ok (newer ++ e :: older)) : Ok e older := h.older.1

theorem Journal.of_mem {log e} (h : Journal Ok log) (he : e ∈ log) : ∃ older, older ⊆ log ∧ Ok e older := by
  obtain ⟨newer, older, rfl⟩ := List.append_of_mem he
  exact ⟨older, fun x hx => List.mem_append_right newer (List.mem_cons_of_mem e hx), h.split⟩

theorem Journal.pairwise {R} {log : List α} (h : Journal Ok log)
    (hR : ∀ e older e', Ok e older → e' ∈ older → R e e') : log.Pairwise R := by
  induction log with
  | nil => exact List.Pairwise.nil
  | cons e older ih => exact List.pairwise_cons.mpr ⟨fun e' he' => hR e older e' h.1 he', ih h.2⟩

end

/-- At most one entry of a kind, when of two entries they are never both of it. -/
theorem length_filter_le_one {α : Type} {P} {l : List α} (h : l.Pairwise fun a b => P a = true → P b = false) :
    (l.filter P).length ≤ 1 := by
  induction l with
  | nil => exact Nat.zero_le 1
  | cons a l ih =>
    obtain ⟨hhead, hrest⟩ := List.pairwise_cons.mp h
    rw [List.filter_cons]
    split
    · rename_i ha
      have hnone : l.filter P = [] := List.filter_eq_nil_iff.mpr fun b hb => by simp [hhead b hb ha]
      rw [hnone]
      exact Nat.le_refl 1
    · exact ih hrest

end Lib

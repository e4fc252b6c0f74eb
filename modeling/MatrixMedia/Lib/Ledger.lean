import Mathlib.Algebra.BigOperators.Group.List.Basic
import Mathlib.Algebra.Order.Ring.Int
import Mathlib.Data.List.Nodup

/-!
# Append-only ledgers with idempotency keys

A table whose rows are only ever added, under a key that a second row may not repeat
(`INSERT … ON CONFLICT (key) DO NOTHING`). Uniqueness of the keys is a field of the
table, so a ledger that holds two rows of one key cannot be built. `total` sums a weight
over the rows a predicate selects; the two results about a batch are `total_postAll_le`
(whatever was already there, a batch adds at most its own weight) and
`total_postAll_of_fresh` (a batch of fresh keys adds exactly its own weight).
-/

namespace Lib
open List

/-- Rows in the order they were added, no two under one key. -/
structure Ledger {α κ : Type} (key : α → κ) where
  rows : List α
  unique : (rows.map key).Nodup

namespace Ledger

variable {α κ : Type} {key : α → κ}

def empty : Ledger key := ⟨[], nodup_nil⟩

/-- Change the rows in place, their keys apart. -/
def modify (l : Ledger key) (f : α → α) (keeps : ∀ a, key (f a) = key a) : Ledger key :=
  ⟨l.rows.map f, by
    rw [map_map, show key ∘ f = key from funext keeps]
    exact l.unique⟩

theorem eq_of_key_eq {l : Ledger key} {a b} (ha : a ∈ l.rows) (hb : b ∈ l.rows) (h : key a = key b) : a = b :=
  inj_on_of_nodup_map l.unique ha hb h

variable [DecidableEq κ]

/-- Add a row unless its key is taken. -/
def post (l : Ledger key) (a : α) : Ledger key :=
  if h : key a ∈ l.rows.map key then l
  else ⟨l.rows ++ [a], by
    rw [map_append, nodup_append]
    refine ⟨l.unique, by simp, ?_⟩
    intro x hx y hy
    rw [map_singleton, mem_singleton] at hy
    rintro rfl
    exact h (hy ▸ hx)⟩

/-- Add the rows of a batch in order. -/
def postAll (l : Ledger key) (batch : List α) : Ledger key := batch.foldl post l

@[simp] theorem postAll_nil (l : Ledger key) : l.postAll [] = l := rfl

@[simp] theorem postAll_cons (l : Ledger key) (a : α) (batch : List α) :
    l.postAll (a :: batch) = (l.post a).postAll batch := rfl

theorem rows_post_of_mem {l : Ledger key} {a} (h : key a ∈ l.rows.map key) : (l.post a).rows = l.rows := by
  simp [post, h]

theorem rows_post_of_notMem {l : Ledger key} {a} (h : key a ∉ l.rows.map key) :
    (l.post a).rows = l.rows ++ [a] := by
  simp only [post, dif_neg h]

theorem mem_post_of_mem {l : Ledger key} {a b} (h : b ∈ l.rows) : b ∈ (l.post a).rows := by
  by_cases hk : key a ∈ l.rows.map key
  · rw [rows_post_of_mem hk]
    exact h
  · rw [rows_post_of_notMem hk]
    exact mem_append_left _ h

theorem mem_post {l : Ledger key} {a b} (h : b ∈ (l.post a).rows) : b ∈ l.rows ∨ b = a := by
  by_cases hk : key a ∈ l.rows.map key
  · rw [rows_post_of_mem hk] at h
    exact .inl h
  · rw [rows_post_of_notMem hk] at h
    simpa using h

/-- A row that takes the next number of a sequence: the numbers stay below the next one and
still tell the rows apart. -/
theorem post_numbered {β : Type} (id : α → Int) (what : α → β) {l : Ledger key} {a next} (ha : id a = next)
    (below : ∀ x ∈ l.rows, id x < next) (apart : ∀ x ∈ l.rows, ∀ y ∈ l.rows, id x = id y → what x = what y) :
    (∀ x ∈ (l.post a).rows, id x < next + 1) ∧
      ∀ x ∈ (l.post a).rows, ∀ y ∈ (l.post a).rows, id x = id y → what x = what y := by
  constructor
  · intro x hx
    rcases mem_post hx with hold | rfl
    · have := below x hold
      omega
    · omega
  · intro x hx y hy heq
    rcases mem_post hx with hold | rfl
    · rcases mem_post hy with hold' | rfl
      · exact apart x hold y hold' heq
      · have := below x hold
        omega
    · rcases mem_post hy with hold' | rfl
      · have := below y hold'
        omega
      · rfl

theorem mem_postAll {l : Ledger key} {batch b} (h : b ∈ (l.postAll batch).rows) :
    b ∈ l.rows ∨ b ∈ batch := by
  induction batch generalizing l with
  | nil => exact .inl h
  | cons a batch ih =>
    rcases ih h with hpost | hbatch
    · rcases mem_post hpost with hold | rfl
      · exact .inl hold
      · exact .inr mem_cons_self
    · exact .inr (mem_cons_of_mem _ hbatch)

section Total

variable (weight : α → Int) (select : α → Bool)

/-- The weight of the selected rows. -/
def total {key : α → κ} (weight : α → Int) (select : α → Bool) (l : Ledger key) : Int :=
  ((l.rows.filter select).map weight).sum

/-- The weight of the selected rows of a batch. -/
def batchTotal (batch : List α) : Int := ((batch.filter select).map weight).sum

variable {weight select}

@[simp] theorem batchTotal_nil : batchTotal weight select [] = 0 := rfl

theorem batchTotal_cons (a : α) (batch : List α) : batchTotal weight select (a :: batch) =
    (if select a = true then weight a else 0) + batchTotal weight select batch := by
  unfold batchTotal
  by_cases h : select a = true <;> simp [h]

theorem total_post_of_notMem {l : Ledger key} {a} (h : key a ∉ l.rows.map key) :
    (l.post a).total weight select = l.total weight select + if select a = true then weight a else 0 := by
  unfold total
  rw [rows_post_of_notMem h]
  by_cases hs : select a = true <;> simp [filter_append, hs]

theorem total_post_of_mem {l : Ledger key} {a} (h : key a ∈ l.rows.map key) :
    (l.post a).total weight select = l.total weight select := by
  unfold total
  rw [rows_post_of_mem h]

/-- A batch adds at most its own weight. -/
theorem total_postAll_le {l : Ledger key} {batch} (nonneg : ∀ a ∈ batch, 0 ≤ weight a) :
    (l.postAll batch).total weight select ≤ l.total weight select + batchTotal weight select batch := by
  induction batch generalizing l with
  | nil => simp
  | cons a batch ih =>
    have tail := ih (l := l.post a) fun b hb => nonneg b (mem_cons_of_mem _ hb)
    have ha := nonneg a mem_cons_self
    rw [postAll_cons, batchTotal_cons]
    by_cases hk : key a ∈ l.rows.map key
    · rw [total_post_of_mem hk] at tail
      split <;> omega
    · rw [total_post_of_notMem hk] at tail
      omega

/-- A batch of distinct fresh keys adds exactly its own weight. -/
theorem total_postAll_of_fresh {l : Ledger key} {batch : List α} (distinct : (batch.map key).Nodup)
    (fresh : ∀ a ∈ batch, key a ∉ l.rows.map key) :
    (l.postAll batch).total weight select = l.total weight select + batchTotal weight select batch := by
  induction batch generalizing l with
  | nil => simp
  | cons a batch ih =>
    obtain ⟨hnew, hrest⟩ := nodup_cons.mp distinct
    have ha : key a ∉ l.rows.map key := fresh a mem_cons_self
    have hfresh : ∀ b ∈ batch, key b ∉ (l.post a).rows.map key := by
      intro b hb hmem
      rw [rows_post_of_notMem ha, map_append, mem_append] at hmem
      rcases hmem with hold | heq
      · exact fresh b (mem_cons_of_mem _ hb) hold
      · rw [map_singleton, mem_singleton] at heq
        exact hnew (heq ▸ mem_map_of_mem hb)
    rw [postAll_cons, ih hrest hfresh, total_post_of_notMem ha, batchTotal_cons]
    omega

/-- Rows the batch does not touch keep the total. -/
theorem batchTotal_eq_zero {batch} (h : ∀ a ∈ batch, select a = false) :
    batchTotal weight select batch = 0 := by
  have hnone : batch.filter select = [] := filter_eq_nil_iff.mpr fun a ha => by simp [h a ha]
  simp [batchTotal, hnone]

omit [DecidableEq κ] in
/-- A total over no row is zero. -/
theorem total_eq_zero {l : Ledger key} (h : ∀ a ∈ l.rows, select a = false) : l.total weight select = 0 :=
  batchTotal_eq_zero h

/-- A batch with one selected row weighs what that row does. -/
theorem batchTotal_eq_of_unique {batch : List α} {a} (mem : a ∈ batch) (sel : select a = true)
    (nodup : batch.Nodup) (only : ∀ b ∈ batch, select b = true → b = a) :
    batchTotal weight select batch = weight a := by
  induction batch with
  | nil => cases mem
  | cons b batch ih =>
    obtain ⟨hb, hnodup⟩ := nodup_cons.mp nodup
    rw [batchTotal_cons]
    rcases mem_cons.mp mem with rfl | hmem
    · have hrest : ∀ c ∈ batch, select c = false := by
        intro c hc
        by_contra hsel
        have := only c (mem_cons_of_mem _ hc) (by simpa using hsel)
        exact hb (this ▸ hc)
      rw [batchTotal_eq_zero hrest, if_pos sel]
      omega
    · have hbsel : ¬ select b = true := by
        intro hsel
        exact hb (only b mem_cons_self hsel ▸ hmem)
      rw [if_neg hbsel, ih hmem hnodup fun c hc => only c (mem_cons_of_mem _ hc)]
      omega

end Total

end Ledger

end Lib

import Mathlib.Data.List.Nodup

/-!
# Tables with a primary key

A table is a `Std.TreeMap` from its primary key to the other columns: a key names one
row, and the rows come back in key order. Here are the facts the models use about
reading a table as a list and about writing a list of rows into it, for any key type
whose order decides equality.
-/

namespace Lib.Table
open List
open Std

variable {κ ν ρ : Type} [Ord κ] [TransOrd κ] [LawfulEqOrd κ]

theorem getElem?_insert (t : TreeMap κ ν) (k a : κ) (v : ν) [DecidableEq κ] :
    (t.insert k v)[a]? = if k = a then some v else t[a]? := by
  rw [TreeMap.getElem?_insert]
  simp only [Std.compare_eq_iff_eq]

/-- A write never removes a key. -/
theorem isSome_insert {t : TreeMap κ ν} (k : κ) (v : ν) {a : κ} (h : (t[a]?).isSome) : ((t.insert k v)[a]?).isSome := by
  classical
  rw [getElem?_insert]
  split
  · rfl
  · exact h

theorem getElem?_erase (t : TreeMap κ ν) (k a : κ) [DecidableEq κ] :
    (t.erase k)[a]? = if k = a then none else t[a]? := by
  rw [TreeMap.getElem?_erase]
  simp only [Std.compare_eq_iff_eq]

theorem getElem?_modify (t : TreeMap κ ν) (k a : κ) (f : ν → ν) [DecidableEq κ] :
    (t.modify k f)[a]? = if k = a then (t[a]?).map f else t[a]? := by
  rw [TreeMap.getElem?_modify]
  simp only [Std.compare_eq_iff_eq]
  split
  · rename_i heq
    rw [heq]
  · rfl

omit [LawfulEqOrd κ] in
/-- Only the rows whose columns satisfy `p` are kept. -/
theorem getElem?_filter (t : TreeMap κ ν) (p : ν → Bool) (a : κ) : (t.filter fun _ v => p v)[a]? = (t[a]?).filter p := by
  rw [TreeMap.getElem?_filter, Option.pfilter_eq_filter]

theorem mem_toList {t : TreeMap κ ν} {k : κ} {v : ν} : (k, v) ∈ t.toList ↔ t[k]? = some v :=
  TreeMap.mem_toList_iff_getElem?_eq_some

theorem nodup_keys (t : TreeMap κ ν) : (t.toList.map Prod.fst).Nodup := by
  rw [TreeMap.map_fst_toList_eq_keys]
  refine List.Pairwise.imp ?_ (TreeMap.distinct_keys (t := t))
  intro a b hne heq
  exact hne (Std.compare_eq_iff_eq.mpr heq)

/-- A list with distinct keys finds each of its members. -/
theorem find?_of_mem {κ ρ : Type} [DecidableEq κ] (key : ρ → κ) {rows : List ρ} (distinct : (rows.map key).Nodup) {r : ρ}
    (h : r ∈ rows) : (rows.find? fun x => key x = key r) = some r := by
  cases hfind : rows.find? fun x => key x = key r with
  | none => simpa using find?_eq_none.mp hfind r h
  | some x =>
    have hkey : key x = key r := by simpa using find?_some hfind
    rw [inj_on_of_nodup_map distinct (mem_of_find?_eq_some hfind) h hkey]

/-- Writing rows one after the other leaves a key none of them has as it was. -/
theorem getElem?_foldl_insert_of_notMem (key : ρ → κ) (val : ρ → ν) {rows : List ρ} {a : κ}
    (h : a ∉ rows.map key) (t : TreeMap κ ν) :
    (rows.foldl (fun m r => m.insert (key r) (val r)) t)[a]? = t[a]? := by
  classical
  induction rows generalizing t with
  | nil => rfl
  | cons r rows ih =>
    rw [map_cons, mem_cons, not_or] at h
    rw [foldl_cons, ih h.2, getElem?_insert, if_neg (fun e => h.1 e.symm)]

/-- Writing rows of distinct keys stores each of them. -/
theorem getElem?_foldl_insert_of_mem (key : ρ → κ) (val : ρ → ν) {rows : List ρ}
    (distinct : (rows.map key).Nodup) {r : ρ} (h : r ∈ rows) (t : TreeMap κ ν) :
    (rows.foldl (fun m r => m.insert (key r) (val r)) t)[key r]? = some (val r) := by
  classical
  induction rows generalizing t with
  | nil => cases h
  | cons s rows ih =>
    obtain ⟨hs, hrest⟩ := nodup_cons.mp distinct
    rw [foldl_cons]
    rcases mem_cons.mp h with rfl | h
    · rw [getElem?_foldl_insert_of_notMem key val hs, getElem?_insert, if_pos rfl]
    · exact ih hrest h _

theorem nodup_toList (t : TreeMap κ ν) : t.toList.Nodup := List.Nodup.of_map _ (nodup_keys t)

/-- The rows of a table, one of them first. -/
theorem toList_perm_cons_erase {t : TreeMap κ ν} {k : κ} {v : ν} (h : t[k]? = some v) : t.toList.Perm ((k, v) :: (t.erase k).toList) := by
  classical
  refine (perm_ext_iff_of_nodup (nodup_toList t) (nodup_cons.mpr ⟨fun hmem => ?_, nodup_toList _⟩)).mpr fun x => ?_
  · rw [mem_toList, getElem?_erase, if_pos rfl] at hmem
    cases hmem
  · obtain ⟨a, b⟩ := x
    rw [mem_cons, mem_toList, mem_toList, getElem?_erase]
    by_cases ha : k = a
    · subst ha
      simp [h, eq_comm]
    · simp [ha, Ne.symm ha]

/-- A new row. -/
theorem toList_insert_perm {t : TreeMap κ ν} {k : κ} (v : ν) (h : t[k]? = none) : (t.insert k v).toList.Perm ((k, v) :: t.toList) := by
  classical
  refine (perm_ext_iff_of_nodup (nodup_toList _) (nodup_cons.mpr ⟨fun hmem => ?_, nodup_toList t⟩)).mpr fun x => ?_
  · rw [mem_toList, h] at hmem
    cases hmem
  · obtain ⟨a, b⟩ := x
    rw [mem_cons, mem_toList, mem_toList, getElem?_insert]
    by_cases ha : k = a
    · subst ha
      simp [h, eq_comm]
    · simp [ha, Ne.symm ha]

/-- A row that takes the place of another. -/
theorem toList_insert_perm_erase (t : TreeMap κ ν) (k : κ) (v : ν) : (t.insert k v).toList.Perm ((k, v) :: (t.erase k).toList) := by
  classical
  refine (toList_perm_cons_erase (v := v) (by rw [getElem?_insert, if_pos rfl])).trans (List.Perm.cons _ ?_)
  refine (perm_ext_iff_of_nodup (nodup_toList _) (nodup_toList _)).mpr fun x => ?_
  obtain ⟨a, b⟩ := x
  rw [mem_toList, mem_toList, getElem?_erase, getElem?_erase, getElem?_insert]
  split <;> rfl

end Lib.Table

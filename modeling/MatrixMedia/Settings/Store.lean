import Mathlib.Data.List.Induction
import MatrixMedia.Lib.Table
import MatrixMedia.Settings.Overlay

/-!
# The settings table

`mm-db/src/settings_db.rs` over the table of `V039__settings.sql`. Every function here is
one transaction under the advisory lock, or one SELECT. The audit table, the time of a
change and the meta row are left out: nothing here reads them.
-/

namespace MatrixMedia.Settings
open Lib StoredSetting List
open Std (TreeMap)

/-- The columns of `mm_settings` besides the key; a row has a JSON value or an encrypted one
(`mm_settings_one_value`). -/
structure Row where
  value : Stored
  rev : Int
  updatedBy : String
deriving DecidableEq

/-- `mm_settings` and the last number `mm_settings_rev_seq` gave out. -/
structure Store where
  rows : TreeMap String Row
  seq : Int

/-- The table as the migration leaves it. -/
def Store.empty : Store := ⟨∅, 0⟩

structure SettingRow where
  key : String
  payload : Stored
  rev : Int
  updatedBy : String
deriving DecidableEq

structure NewValue where
  key : String
  payload : Stored
deriving DecidableEq

/-- `to_stored`. -/
def SettingRow.toStored (r : SettingRow) : StoredSetting := ⟨r.key, r.payload, r.rev⟩

section
variable (s : Store)

/-- `load_all`, in key order. -/
def Store.loadAll : List SettingRow := s.rows.toList.map fun (key, r) => ⟨key, r.value, r.rev, r.updatedBy⟩

/-- `load_stored`. -/
def Store.stored : List StoredSetting := s.loadAll.map SettingRow.toStored

/-- `max_rev_in`. -/
def Store.maxRev (s : Store) : Int := Settings.maxRev s.stored

inductive SettingsDbError where
  | conflict (expected current : Int)
  | db (e : String)
deriving DecidableEq

/-- A row with the next revision, in place of the one the key has. -/
def Store.put (actor : String) (s : Store) (v : NewValue) : Store where
  rows := s.rows.insert v.key ⟨v.payload, s.seq + 1, actor⟩
  seq := s.seq + 1

def Store.putAll (values : List NewValue) (actor : String) : Store := values.foldl (Store.put actor) s

/-- What an import inserts: the values whose key has no row. -/
def Store.missing (values : List NewValue) : List NewValue :=
  values.filter fun v => !s.loadAll.any fun r => r.key = v.key

/-- `import_filtered`: what it inserted, and the table then. Two values for one key break the
primary key. -/
def Store.importFiltered (filter : List SettingRow → List NewValue) : Except String (List NewValue × Store) :=
  let values := s.missing (filter s.loadAll)
  if (values.map NewValue.key).Nodup then .ok (values, s.putAll values "system")
  else .error "duplicate key value violates unique constraint"

/-- `write`. -/
def Store.write (changes : List NewValue) (expectedRev : Int) (actor : String) :
    Except SettingsDbError (Int × Store) :=
  if s.maxRev ≠ expectedRev then .error (.conflict expectedRev s.maxRev)
  else
    let s' := s.putAll changes actor
    .ok (s'.maxRev, s')

/-- The UPDATE of `reencrypt`, with the keys skipped so far. -/
def Store.reencryptOne : Store × List String → String × Int × Blob → Store × List String
  | (s, skipped), (key, expectedRev, blob) =>
    match s.rows[key]? with
    | some ⟨.encrypted _, rev, updatedBy⟩ =>
      if rev = expectedRev then ({ s with rows := s.rows.insert key ⟨.encrypted blob, rev, updatedBy⟩ }, skipped)
      else (s, skipped ++ [key])
    | _ => (s, skipped ++ [key])

/-- `reencrypt`. -/
def Store.reencrypt (rows : List (String × Int × Blob)) : Store × List String :=
  rows.foldl Store.reencryptOne (s, [])

end

/-! ## Reading rows by key -/

/-- The stored value of a key. -/
def valueAt (rows : List StoredSetting) (key : String) : Option Stored :=
  (rows.find? fun r => r.key = key).map value

variable {key : String} {values : List NewValue} {rows : List StoredSetting} {s : Store} {row : StoredSetting}

theorem valueAt_of_mem (distinct : (rows.map StoredSetting.key).Nodup)
    (h : row ∈ rows) : valueAt rows row.key = some row.value := by
  rw [valueAt, Table.find?_of_mem key distinct h]
  rfl

theorem mem_of_valueAt {value : Stored} (h : valueAt rows key = some value) :
    ∃ row ∈ rows, row.key = key ∧ row.value = value := by
  obtain ⟨row, hrow, rfl⟩ := Option.map_eq_some_iff.mp h
  exact ⟨row, mem_of_find?_eq_some hrow, by simpa using find?_some hrow, rfl⟩

theorem Store.mem_stored :
    row ∈ s.stored ↔ ∃ r, s.rows[row.key]? = some r ∧ row = ⟨row.key, r.value, r.rev⟩ := by
  simp only [Store.stored, Store.loadAll, map_map, mem_map, Function.comp_apply, SettingRow.toStored]
  constructor
  · rintro ⟨⟨key, r⟩, hmem, rfl⟩
    exact ⟨r, Table.mem_toList.mp hmem, rfl⟩
  · rintro ⟨r, hr, hrow⟩
    exact ⟨(row.key, r), Table.mem_toList.mpr hr, hrow.symm⟩

theorem Store.stored_distinct (s : Store) : (s.stored.map StoredSetting.key).Nodup := by
  have hkeys : s.stored.map key = s.rows.toList.map Prod.fst := by
    simp only [Store.stored, Store.loadAll, map_map]
    rfl
  rw [hkeys]
  exact Table.nodup_keys s.rows

theorem Store.valueAt_stored (s : Store) (key : String) : valueAt s.stored key = (s.rows[key]?).map Row.value := by
  cases h : s.rows[key]? with
  | some r =>
    have hmem : (⟨key, r.value, r.rev⟩ : StoredSetting) ∈ s.stored := Store.mem_stored.mpr ⟨r, h, rfl⟩
    exact valueAt_of_mem s.stored_distinct hmem
  | none =>
    cases hv : valueAt s.stored key with
    | none => rfl
    | some value =>
      obtain ⟨row, hrow, rfl, -⟩ := mem_of_valueAt hv
      obtain ⟨r, hr, -⟩ := Store.mem_stored.mp hrow
      rw [h] at hr
      cases hr

theorem Store.any_key (s : Store) (key : String) : (s.loadAll.any fun r => r.key = key) = (s.rows[key]?).isSome := by
  rw [Bool.eq_iff_iff, any_eq_true, Option.isSome_iff_exists]
  simp only [Store.loadAll, mem_map, decide_eq_true_eq]
  constructor
  · rintro ⟨r, ⟨⟨key', row⟩, hmem, rfl⟩, rfl⟩
    exact ⟨row, Table.mem_toList.mp hmem⟩
  · rintro ⟨row, hrow⟩
    exact ⟨_, ⟨(key, row), Table.mem_toList.mpr hrow, rfl⟩, rfl⟩

/-! ## Revisions -/

theorem rev_le_maxRev (h : row ∈ rows) : row.rev ≤ maxRev rows := by
  have hmem : row.rev ∈ rows.map rev := mem_map_of_mem h
  cases hmax : (rows.map rev).max? with
  | none =>
    rw [max?_eq_none_iff] at hmax
    rw [hmax] at hmem
    cases hmem
  | some m =>
    rw [maxRev, hmax]
    exact (max?_eq_some_iff.mp hmax).2 _ hmem

theorem maxRev_le {n : Int} (hn : 0 ≤ n) (h : ∀ row ∈ rows, row.rev ≤ n) : maxRev rows ≤ n := by
  cases hmax : (rows.map rev).max? with
  | none => rwa [maxRev, hmax]
  | some m =>
    rw [maxRev, hmax]
    obtain ⟨row, hrow, hrev⟩ := mem_map.mp (max?_eq_some_iff.mp hmax).1
    rw [Option.getD_some, ← hrev]
    exact h row hrow

theorem Store.rev_le_maxRev {r : Row} (h : s.rows[key]? = some r) : r.rev ≤ s.maxRev :=
  have hmem : (⟨key, r.value, r.rev⟩ : StoredSetting) ∈ s.stored := Store.mem_stored.mpr ⟨r, h, rfl⟩
  Settings.rev_le_maxRev hmem

/-- Every revision came from the sequence. -/
structure Store.Numbered (s : Store) : Prop where
  nonneg : 0 ≤ s.seq
  rev_le : ∀ (key : String) (r : Row), s.rows[key]? = some r → r.rev ≤ s.seq

theorem Store.empty_numbered : Store.empty.Numbered :=
  ⟨Int.le_refl 0, fun k r hr => by simp [Store.empty] at hr⟩

theorem Store.Numbered.maxRev_le (h : s.Numbered) : s.maxRev ≤ s.seq := by
  apply Settings.maxRev_le h.nonneg
  intro row hrow
  obtain ⟨r, hr, heq⟩ := Store.mem_stored.mp hrow
  rw [heq]
  exact h.rev_le _ r hr

/-! ## What a write leaves -/

/-- The value a list of writes leaves for a key: the last one wins. -/
def latest (values : List NewValue) (key : String) : Option Stored :=
  (values.reverse.find? fun v => v.key = key).map NewValue.payload

theorem latest_of_mem (distinct : (values.map NewValue.key).Nodup) {v : NewValue} (h : v ∈ values) :
    latest values v.key = some v.payload := by
  have hreverse : (values.reverse.map NewValue.key).Nodup := by
    rw [map_reverse]
    exact nodup_reverse.mpr distinct
  rw [latest, Table.find?_of_mem NewValue.key hreverse (mem_reverse.mpr h)]
  rfl

theorem mem_of_latest {payload : Stored} (h : latest values key = some payload) :
    (⟨key, payload⟩ : NewValue) ∈ values := by
  obtain ⟨v, hv, rfl⟩ := Option.map_eq_some_iff.mp h
  have hkey : v.key = key := by simpa using find?_some hv
  subst hkey
  exact mem_reverse.mp (mem_of_find?_eq_some hv)

/-- Each key written has its last value, under a new revision; the others keep their row. -/
structure Store.Put (s s' : Store) (values : List NewValue) : Prop where
  seq : s.seq ≤ s'.seq
  written : ∀ (key : String) (payload : Stored), latest values key = some payload →
    ∃ r, s'.rows[key]? = some r ∧ r.value = payload ∧ s.seq < r.rev ∧ r.rev ≤ s'.seq
  other : ∀ key, latest values key = none → s'.rows[key]? = s.rows[key]?

theorem Store.put_putAll (s : Store) (values : List NewValue) (actor : String) : s.Put (s.putAll values actor) values := by
  induction values using List.reverseRecOn with
  | nil =>
    refine ⟨Int.le_refl _, fun _ _ h => ?_, fun _ _ => rfl⟩
    cases h
  | append_singleton values v ih =>
    have hsnoc : s.putAll (values ++ [v]) actor = (s.putAll values actor).put actor v := by
      rw [Store.putAll, foldl_append]
      rfl
    have hlatest : ∀ key, latest (values ++ [v]) key = if v.key = key then some v.payload else latest values key := by
      intro key
      rw [latest, reverse_append, reverse_singleton, singleton_append, find?_cons]
      by_cases hkey : v.key = key <;> simp [hkey, latest]
    rw [hsnoc]
    generalize s.putAll values actor = s' at ih
    have hrow : ∀ key, (s'.put actor v).rows[key]? =
        if v.key = key then some ⟨v.payload, s'.seq + 1, actor⟩ else s'.rows[key]? :=
      fun key => Table.getElem?_insert s'.rows v.key key _
    have hseq : (s'.put actor v).seq = s'.seq + 1 := rfl
    have := ih.seq
    refine ⟨by omega, ?_, ?_⟩
    · intro key payload h
      rw [hlatest] at h
      rw [hrow]
      split at h
      · rename_i hkey
        cases h
        exact ⟨_, if_pos hkey, rfl, by dsimp only; omega, by dsimp only; omega⟩
      · rename_i hkey
        obtain ⟨r, hr, hvalue, hnew, hle⟩ := ih.written key payload h
        exact ⟨r, by rw [if_neg hkey, hr], hvalue, hnew, by omega⟩
    · intro key h
      rw [hlatest] at h
      rw [hrow]
      split at h
      · cases h
      · rename_i hkey
        rw [if_neg hkey]
        exact ih.other key h

theorem Store.Put.numbered {s' : Store} (h : s.Put s' values) (hs : s.Numbered) :
    s'.Numbered where
  nonneg := Int.le_trans hs.nonneg h.seq
  rev_le := by
    intro key r hr
    cases hlatest : latest values key with
    | none =>
      rw [h.other key hlatest] at hr
      exact Int.le_trans (hs.rev_le key r hr) h.seq
    | some payload =>
      obtain ⟨r', hr', -, -, hle⟩ := h.written key payload hlatest
      rw [hr'] at hr
      cases hr
      exact hle

/-- A write of at least one value leaves a row with a new revision. -/
theorem Store.Put.exists_new {s' : Store} (h : s.Put s' values) (hne : values ≠ []) :
    ∃ (k : String) (r : Row), s'.rows[k]? = some r ∧ s.seq < r.rev := by
  obtain ⟨v, hv⟩ := exists_mem_of_ne_nil values hne
  cases hlatest : latest values v.key with
  | none =>
    rw [latest, Option.map_eq_none_iff, find?_eq_none] at hlatest
    exact absurd (hlatest v (mem_reverse.mpr hv)) (by simp)
  | some payload =>
    obtain ⟨r, hr, -, hnew, -⟩ := h.written v.key payload hlatest
    exact ⟨v.key, r, hr, hnew⟩

end MatrixMedia.Settings

import MatrixMedia.Settings.Service

/-!
# The history of the settings table

What the transactions do to the *contents* of the rows, that is to what is stored whatever
key it is sealed under. `Evolves` says how the table changes between two reads: a row whose
revision is unchanged has the same content, and everything else has a number the sequence
had not yet given out. So a save that finds the newest revision it read still sees the rows
it read. `History` is what holds of the commits: every save was checked against the contents
it replaced, no two saves had the same revision, and each content is the one of the newest
commit that wrote it.
-/

namespace MatrixMedia.Settings

open Lib Lib.Interaction Store Option

open Std (TreeMap)

/-! ## Contents -/

/-- What a stored value says, whatever key it is sealed under. -/
inductive Content where
  | json (v : Json)
  | secret (content : Option (String × Plain))
  | malformed

deriving DecidableEq

def Stored.content : Stored → Content
  | .json v => .json v
  | .encrypted .malformed => .malformed
  | .encrypted (.envelope _ content) => .secret content

/-- What a key opens for a setting was sealed for it. -/
theorem KeyRing.content_of_decrypt {keys : KeyRing} {k blob plain}
    (h : keys.decrypt k blob = .ok plain) : (Stored.encrypted blob).content = .secret (some (k, plain)) := by
  cases blob with
  | malformed => cases h
  | envelope keyId content =>
    simp only [KeyRing.decrypt] at h
    split at h
    · cases content with
      | none => cases h
      | some sealed =>
        obtain ⟨aad, plain'⟩ := sealed
        simp only at h
        split at h
        · rename_i haad
          cases h
          rw [haad]
          rfl
        · cases h
    · cases h

def contentAt (rows : List StoredSetting) (k : String) : Option Content := (valueAt rows k).map Stored.content

def Store.contentAt (s : Store) (k : String) : Option Content := (s.rows[k]?).map fun r => r.value.content

theorem Store.contentAt_stored (s : Store) (k : String) : Settings.contentAt s.stored k = s.contentAt k := by
  rw [Settings.contentAt, valueAt_stored, map_map]
  rfl

/-- The same settings with the same contents. -/
def SameContent (rows rows' : List StoredSetting) : Prop := ∀ k, contentAt rows k = contentAt rows' k

/-! ## Between two reads -/

/-- The table later on: a row with an old revision has its old content, and no row is gone. -/
structure Store.Evolves (s s' : Store) : Prop where
  seq : s.seq ≤ s'.seq
  row : ∀ (k : String) (r' : Row), s'.rows[k]? = some r' →
    s.seq < r'.rev ∨ ∃ r, s.rows[k]? = some r ∧ r.rev = r'.rev ∧ r.value.content = r'.value.content
  kept : ∀ k : String, (s.rows[k]?).isSome → (s'.rows[k]?).isSome

theorem Store.Evolves.refl (s : Store) : s.Evolves s :=
  ⟨Int.le_refl _, fun _ r' hr' => .inr ⟨r', hr', rfl, rfl⟩, fun _ h => h⟩

theorem Store.Evolves.trans {s₁ s₂ s₃ : Store} (h : s₁.Evolves s₂) (h' : s₂.Evolves s₃) : s₁.Evolves s₃ where
  seq := Int.le_trans h.seq h'.seq
  row := by
    intro k r₃ hr₃
    rcases h'.row k r₃ hr₃ with hnew | ⟨r₂, hr₂, hrev, hcontent⟩
    · exact .inl (Int.lt_of_le_of_lt h.seq hnew)
    · rcases h.row k r₂ hr₂ with hnew | ⟨r₁, hr₁, hrev₁, hcontent₁⟩
      · exact .inl (hrev ▸ hnew)
      · exact .inr ⟨r₁, hr₁, hrev₁.trans hrev, hcontent₁.trans hcontent⟩
  kept := fun k hk => h'.kept k (h.kept k hk)

variable {values : List NewValue} {s s' : Store}

theorem Store.Put.evolves (h : s.Put s' values) : s.Evolves s' where
  seq := h.seq
  row := by
    intro k r' hr'
    cases hlatest : latest values k with
    | none =>
      rw [h.other k hlatest] at hr'
      exact .inr ⟨r', hr', rfl, rfl⟩
    | some payload =>
      obtain ⟨r, hr, -, hnew, -⟩ := h.written k payload hlatest
      rw [hr] at hr'
      cases hr'
      exact .inl hnew
  kept := by
    intro k hk
    cases hlatest : latest values k with
    | none => rwa [h.other k hlatest]
    | some payload =>
      obtain ⟨r, hr, -⟩ := h.written k payload hlatest
      rw [hr]
      rfl

/-- As long as the newest revision is the one that was read, the contents are too. -/
theorem Store.Evolves.same_content (h : s.Evolves s') (hs : s.Numbered) (hrev : s'.maxRev = s.maxRev) :
    SameContent s.stored s'.stored := by
  intro k
  rw [contentAt_stored, contentAt_stored]
  cases hr' : s'.rows[k]? with
  | some r' =>
    rcases h.row k r' hr' with hnew | ⟨r, hr, -, hcontent⟩
    · have := rev_le_maxRev hr'
      have := hs.maxRev_le
      omega
    · rw [contentAt, contentAt, hr, hr']
      exact congrArg some hcontent
  | none =>
    cases hr : s.rows[k]? with
    | none => rw [contentAt, contentAt, hr, hr']
    | some r =>
      have := h.kept k (by rw [hr]; rfl)
      rw [hr'] at this
      cases this

theorem Store.Put.contentAt (h : s.Put s' values) (k : String) :
    s'.contentAt k = ((latest values k).map Stored.content).or (s.contentAt k) := by
  cases hlatest : latest values k with
  | none =>
    rw [Store.contentAt, h.other k hlatest]
    rfl
  | some payload =>
    obtain ⟨r, hr, hvalue, -⟩ := h.written k payload hlatest
    rw [Store.contentAt, hr, ← hvalue]
    rfl

/-! ## Re-encryption -/

/-- A blob that says what the row it is for says, if that row still has its revision. -/
def Store.Faithful (s : Store) (u : String × Int × Blob) : Prop :=
  ∀ r, s.rows[u.1]? = some r → r.rev = u.2.1 → (Stored.encrypted u.2.2).content = r.value.content

/-- Re-encryption leaves revisions and contents alone. -/
structure Store.Resealed (s s' : Store) : Prop where
  seq : s'.seq = s.seq
  row : ∀ k : String, (s'.rows[k]?).map (fun r => (r.rev, r.value.content)) =
    (s.rows[k]?).map fun r => (r.rev, r.value.content)

theorem Store.Resealed.refl (s : Store) : s.Resealed s := ⟨rfl, fun _ => rfl⟩

section
variable (h : s.Resealed s')
include h

theorem Store.Resealed.row_some {k : String} {r' : Row} (hr' : s'.rows[k]? = some r') :
    ∃ r, s.rows[k]? = some r ∧ r.rev = r'.rev ∧ r.value.content = r'.value.content := by
  have hrow := h.row k
  rw [hr'] at hrow
  obtain ⟨r, hr, heq⟩ := map_eq_some_iff.mp hrow.symm
  exact ⟨r, hr, congrArg Prod.fst heq, congrArg Prod.snd heq⟩

theorem Store.Resealed.evolves : s.Evolves s' where
  seq := Int.le_of_eq h.seq.symm
  row := fun k r' hr' => .inr (h.row_some hr')
  kept := by
    intro k hk
    have hrow := congrArg Option.isSome (h.row k)
    rw [isSome_map, isSome_map] at hrow
    rwa [hrow]

theorem Store.Resealed.contentAt (k : String) : s'.contentAt k = s.contentAt k := by
  have hrow := congrArg (Option.map Prod.snd) (h.row k)
  rw [map_map, map_map] at hrow
  exact hrow

theorem Store.Resealed.numbered (hs : s.Numbered) : s'.Numbered where
  nonneg := h.seq ▸ hs.nonneg
  rev_le := by
    intro k r' hr'
    obtain ⟨r, hr, hrev, -⟩ := h.row_some hr'
    rw [h.seq, ← hrev]
    exact hs.rev_le k r hr

theorem Store.Resealed.faithful {u : String × Int × Blob} (hu : s.Faithful u) :
    s'.Faithful u := by
  intro r' hr' hrev'
  obtain ⟨r, hr, hrev, hcontent⟩ := h.row_some hr'
  rw [hu r hr (hrev.trans hrev'), hcontent]

end

theorem Store.resealed_one {skipped u} (h : s.Faithful u) :
    s.Resealed (reencryptOne (s, skipped) u).1 := by
  obtain ⟨key, expectedRev, blob⟩ := u
  unfold reencryptOne
  dsimp only
  split
  · rename_i old rev updatedBy hrow
    split
    · rename_i hrev
      refine ⟨rfl, fun k => ?_⟩
      dsimp only
      rw [Table.getElem?_insert]
      split
      · rename_i hk
        subst hk
        rw [hrow, map_some, map_some, h _ hrow hrev]
      · rfl
    · exact .refl s
  · exact .refl s

theorem Store.Resealed.trans {s₁ s₂ s₃ : Store} (h : s₁.Resealed s₂) (h' : s₂.Resealed s₃) : s₁.Resealed s₃ :=
  ⟨h'.seq.trans h.seq, fun k => (h'.row k).trans (h.row k)⟩

theorem Store.resealed_reencrypt {rows} (h : ∀ u ∈ rows, s.Faithful u) :
    s.Resealed (s.reencrypt rows).1 := by
  have hfold : ∀ t, s.Resealed t.1 → s.Resealed (rows.foldl reencryptOne t).1 := by
    induction rows with
    | nil => exact fun t ht => ht
    | cons u rows ih =>
      intro t ht
      rw [List.foldl_cons]
      apply ih fun u' hu' => h u' (List.mem_cons_of_mem _ hu')
      exact ht.trans (resealed_one (ht.faithful (h u List.mem_cons_self)))
  exact hfold (s, []) (.refl s)

/-! ## Commits -/

/-- The newest write of a key, and its writer. -/
def lastWrite (commits : List Commit) (k : String) : Option (Writer × Stored) :=
  commits.findSome? fun c => (latest c.values k).map fun payload => (c.writer, payload)

theorem lastWrite_cons (c : Commit) (commits : List Commit) (k : String) :
    lastWrite (c :: commits) k = ((latest c.values k).map fun payload => (c.writer, payload)).or (lastWrite commits k) := by
  rw [lastWrite, List.findSome?_cons]
  cases latest c.values k <;> rfl

/-- The revision a save was made with. -/
def Commit.savedAt (c : Commit) : Option Int :=
  match c.writer with
  | .saving _ request _ => some request.expectedRev
  | _ => none

/-- A save was checked against rows with the contents it found when it committed. -/
def Commit.Validated (P : UrlParser) (c : Commit) : Prop :=
  ∀ svc request seen, c.writer = .saving svc request seen →
    (∃ accepted next, svc.prepare P request.changes = .ok (accepted, c.values) ∧
      svc.judge P request accepted c.values seen = .ok next) ∧
    SameContent (seen.map SettingRow.toStored) c.before

/-- Some row is newer than this revision. -/
def Store.Passed (s : Store) (n : Int) : Prop := ∃ (k : String) (r : Row), s.rows[k]? = some r ∧ n < r.rev

theorem Store.Passed.evolves {n} (h : s.Passed n) (hs : s.Numbered) (hs' : s.Evolves s') :
    s'.Passed n := by
  obtain ⟨k, r, hr, hn⟩ := h
  obtain ⟨r', hr'⟩ := isSome_iff_exists.mp (hs'.kept k (by rw [hr]; rfl))
  refine ⟨k, r', hr', ?_⟩
  rcases hs'.row k r' hr' with hnew | ⟨r₀, hr₀, hrev, -⟩
  · have := hs.rev_le k r hr
    omega
  · rw [hr] at hr₀
    cases hr₀
    omega

/-- What holds of the commits since the table was `s₀`. -/
structure History (P : UrlParser) (s₀ : Store) (db : Database) : Prop where
  numbered : db.store.Numbered
  validated : ∀ c ∈ db.commits, c.Validated P
  once : (db.commits.filterMap Commit.savedAt).Nodup
  passed : ∀ n ∈ db.commits.filterMap Commit.savedAt, db.store.Passed n
  last : ∀ k, db.store.contentAt k = ((lastWrite db.commits k).map fun w => w.2.content).or (s₀.contentAt k)

variable {P : UrlParser} {s₀ : Store} {db : Database}

/-- A change of the table that leaves contents and revisions alone. -/
theorem History.reseal (h : History P s₀ db) {store} (hstore : db.store.Resealed store) :
    History P s₀ { db with store := store } where
  numbered := hstore.numbered h.numbered
  validated := h.validated
  once := h.once
  passed := fun n hn => (h.passed n hn).evolves h.numbered hstore.evolves
  last := fun k => (hstore.contentAt k).trans (h.last k)

/-- A commit: a save was checked against the contents it finds, with the newest revision, and
writes something. -/
theorem History.commit (h : History P s₀ db) {writer store}
    (put : db.store.Put store values)
    (validated : Commit.Validated P ⟨writer, values, db.store.stored⟩)
    (current : ∀ n, Commit.savedAt ⟨writer, values, db.store.stored⟩ = some n → db.store.maxRev = n ∧ values ≠ []) :
    History P s₀ (db.commit writer values store) where
  numbered := put.numbered h.numbered
  validated := List.forall_mem_cons.mpr ⟨validated, h.validated⟩
  once := by
    cases hn : Commit.savedAt ⟨writer, values, db.store.stored⟩ with
    | none =>
      rw [Database.commit, List.filterMap_cons_none hn]
      exact h.once
    | some n =>
      rw [Database.commit, List.filterMap_cons_some hn]
      refine List.nodup_cons.mpr ⟨fun hmem => ?_, h.once⟩
      -- an earlier save with this revision has been passed, so it is not the newest one
      obtain ⟨k, r, hr, hlt⟩ := h.passed n hmem
      have := Store.rev_le_maxRev hr
      have := (current n hn).1
      omega
  passed := by
    have hold : ∀ n ∈ db.commits.filterMap Commit.savedAt, store.Passed n := fun n hn =>
      (h.passed n hn).evolves h.numbered put.evolves
    cases hn : Commit.savedAt ⟨writer, values, db.store.stored⟩ with
    | none =>
      rw [Database.commit, List.filterMap_cons_none hn]
      exact hold
    | some n =>
      rw [Database.commit, List.filterMap_cons_some hn]
      refine List.forall_mem_cons.mpr ⟨?_, hold⟩
      obtain ⟨hmax, hne⟩ := current n hn
      obtain ⟨k, r, hr, hlt⟩ := put.exists_new hne
      refine ⟨k, r, hr, ?_⟩
      have := h.numbered.maxRev_le
      omega
  last := by
    intro k
    rw [Database.commit, put.contentAt, lastWrite_cons, h.last k]
    cases latest values k <;> rfl

end MatrixMedia.Settings

import Mathlib.Data.List.Induction
import MatrixMedia.Settings.Overlay

/-!
# What the overlay runs

Each row is read by itself (`readRow`): whether it applies does not depend on the rows
before it. So the candidate after the rows is the base with the values that were read
(`Applied`), and the loop over the pairs takes back exactly the destinations that `Reverts`
names, which can be told before the loop (`pairs_closed`): a destination is no secret and
is in one pair only, so no step changes what a later one looks at. `overlay_all_or_nothing`
puts the two together.
-/

namespace MatrixMedia.Settings
open Lib List

variable {P : UrlParser} {base c c' : Config} {rows : List StoredSetting} {keys : Option KeyRing} {policy : BuildPolicy}
  {d : Setting} {s : Draft}

/-! ## Reading one row -/

/-- The field value a stored value stands for. -/
def readValue (P : UrlParser) (d : Setting) (value : Stored) (keys : Option KeyRing) : Option FieldValue :=
  match decode d value keys with
  | .error _ => none
  | .ok v =>
    match d.1.validate P v with
    | .error _ => none
    | .ok () => d.1.fieldType.ofJson v

def readRow (P : UrlParser) (keys : Option KeyRing) (row : StoredSetting) : Option FieldValue :=
  (findEditable row.key).bind fun d => readValue P d row.value keys

theorem findEditable_key {key : String} (h : findEditable key = some d) : d.1.key = key :=
  find_key (Option.filter_eq_some_iff.mp h).1

variable {k : String} {pair : UrlCredentials} {row : StoredSetting} {f : FieldValue} {value : Stored}

theorem holds_readValue (h : readValue P d value keys = some f) :
    d.1.fieldType.Holds f = true := by
  unfold readValue at h
  split at h
  · cases h
  · split at h
    · cases h
    · exact FieldType.holds_of_ofJson h

theorem applyRow_of_some (h : readValue P d value keys = some f) (c : Config) :
    applyRow P d value keys c = .ok (d.put c f (holds_readValue h)) := by
  have hf := h
  unfold readValue at hf
  split at hf
  · cases hf
  · rename_i v hv
    split at hf
    · cases hf
    · rename_i hvalid
      simp only [applyRow, hv, hvalid, Except.bind]
      exact Setting.set_of_ofJson hf c

theorem applyRow_of_none (h : readValue P d value keys = none) (c : Config) :
    ∃ reason, applyRow P d value keys c = .error reason := by
  unfold readValue at h
  unfold applyRow
  split at h
  · rename_i e he
    exact ⟨e, by rw [he]; rfl⟩
  · rename_i v hv
    split at h
    · rename_i e he
      exact ⟨e, by simp [hv, he, Except.bind]⟩
    · rename_i hvalid
      refine ⟨"the value does not fit this setting's type", ?_⟩
      simp only [hv, hvalid, Except.bind, Setting.set]
      split
      · rename_i f hf
        rw [h] at hf
        cases hf
      · rfl

@[simp] theorem value_put (d : Setting) (c : Config) (f : FieldValue) (hf : d.1.fieldType.Holds f = true) (k : String) :
    (d.put c f hf).value k = if k = d.1.key then f else c.value k := rfl

/-! ## The rows -/

/-- A row that does not stop the overlay: a secret's failure is only reported. -/
def Clean (P : UrlParser) (keys : Option KeyRing) (row : StoredSetting) : Prop :=
  ∀ d, findEditable row.key = some d → d.1.secret = false → (readRow P keys row).isSome

/-- The draft after the rows. -/
def rowsDraft (P : UrlParser) (base : Config) (rows : List StoredSetting) (keys : Option KeyRing) : Draft :=
  rows.foldl (Draft.row P keys) { candidate := base }

/-- What the draft holds once these rows are done. -/
structure Applied (P : UrlParser) (base : Config) (keys : Option KeyRing) (rows : List StoredSetting) (s : Draft) : Prop where
  read : ∀ row ∈ rows, ∀ f, readRow P keys row = some f → row.key ∈ s.fromDb ∧ s.candidate.value row.key = f
  fromDb : ∀ k ∈ s.fromDb, ∃ row ∈ rows, row.key = k ∧ (readRow P keys row).isSome
  other : ∀ k, k ∉ s.fromDb → s.candidate.value k = base.value k
  problems : s.problems = [] ↔ ∀ row ∈ rows, Clean P keys row

/-- A row that is not applied, and how it is reported. -/
theorem row_of_none (h : readRow P keys row = none) :
    (s.row P keys row).candidate = s.candidate ∧ (s.row P keys row).fromDb = s.fromDb ∧
      ((s.row P keys row).problems = [] ↔ s.problems = [] ∧ Clean P keys row) := by
  unfold Draft.row
  split
  · rename_i hfind
    refine ⟨rfl, rfl, fun hs => ⟨hs, ?_⟩, fun hs => hs.1⟩
    intro d hd
    rw [hfind] at hd
    cases hd
  · rename_i d hfind
    have hnone : readValue P d row.value keys = none := by
      rw [readRow, hfind] at h
      exact h
    obtain ⟨reason, hreason⟩ := applyRow_of_none hnone s.candidate
    rw [hreason]
    dsimp only
    split
    · rename_i hsecret
      refine ⟨rfl, rfl, fun hs => ⟨hs, ?_⟩, fun hs => hs.1⟩
      intro d' hd' hpublic
      rw [hfind] at hd'
      cases hd'
      rw [hsecret] at hpublic
      cases hpublic
    · rename_i hpublic
      refine ⟨rfl, rfl, fun hs => ?_, fun hs => ?_⟩
      · simp at hs
      · have := hs.2 d hfind (by simpa using hpublic)
        rw [h] at this
        cases this

theorem row_of_some (h : readRow P keys row = some f) :
    (∀ k, (s.row P keys row).candidate.value k = if k = row.key then f else s.candidate.value k) ∧
      (s.row P keys row).fromDb = s.fromDb.insert row.key ∧ (s.row P keys row).problems = s.problems := by
  obtain ⟨d, hfind, hread⟩ := Option.bind_eq_some_iff.mp h
  have hrow : s.row P keys row =
      { s with candidate := d.put s.candidate f (holds_readValue hread), fromDb := s.fromDb.insert row.key } := by
    unfold Draft.row
    rw [hfind]
    dsimp only
    rw [applyRow_of_some hread]
  rw [hrow]
  refine ⟨fun k => ?_, rfl, rfl⟩
  rw [value_put, findEditable_key hfind]

theorem mem_snoc {r : StoredSetting} : r ∈ rows ++ [row] ↔ r ∈ rows ∨ r = row := by simp

/-- A row that is not read. -/
theorem Applied.skip (h : Applied P base keys rows s) (hread : readRow P keys row = none) :
    Applied P base keys (rows ++ [row]) (s.row P keys row) := by
  obtain ⟨hcand, hfrom, hproblems⟩ := row_of_none (s := s) hread
  refine ⟨?_, ?_, ?_, ?_⟩
  · intro r hr f hf
    rcases mem_snoc.mp hr with hold | rfl
    · rw [hcand, hfrom]
      exact h.read r hold f hf
    · rw [hread] at hf
      cases hf
  · intro k hk
    rw [hfrom] at hk
    obtain ⟨r, hr, hkey, hsome⟩ := h.fromDb k hk
    exact ⟨r, mem_snoc.mpr (.inl hr), hkey, hsome⟩
  · intro k hk
    rw [hcand]
    exact h.other k (hfrom ▸ hk)
  · rw [hproblems, h.problems]
    simp only [mem_snoc, or_imp, forall_and, forall_eq]

/-- A row of a new key that is read. -/
theorem Applied.take (h : Applied P base keys rows s)
    (hread : readRow P keys row = some f) (hnew : ∀ r ∈ rows, r.key ≠ row.key) :
    Applied P base keys (rows ++ [row]) (s.row P keys row) := by
  obtain ⟨hcand, hfrom, hproblems⟩ := row_of_some (s := s) hread
  refine ⟨?_, ?_, ?_, ?_⟩
  · intro r hr f' hf'
    rw [hfrom, mem_insert_iff, hcand]
    rcases mem_snoc.mp hr with hold | rfl
    · rw [if_neg (hnew r hold)]
      obtain ⟨hin, hval⟩ := h.read r hold f' hf'
      exact ⟨.inr hin, hval⟩
    · rw [hread] at hf'
      cases hf'
      exact ⟨.inl rfl, if_pos rfl⟩
  · intro k hk
    rw [hfrom, mem_insert_iff] at hk
    rcases hk with rfl | hk
    · exact ⟨row, mem_snoc.mpr (.inr rfl), rfl, by rw [hread]; rfl⟩
    · obtain ⟨r, hr, hkey, hsome⟩ := h.fromDb k hk
      exact ⟨r, mem_snoc.mpr (.inl hr), hkey, hsome⟩
  · intro k hk
    rw [hfrom, mem_insert_iff, not_or] at hk
    rw [hcand, if_neg hk.1]
    exact h.other k hk.2
  · have hclean : Clean P keys row := fun _ _ _ => by rw [hread]; rfl
    rw [hproblems, h.problems]
    simp only [mem_snoc, or_imp, forall_and, forall_eq, hclean, and_true]

theorem applied_rows (P : UrlParser) (base : Config) (keys : Option KeyRing) {rows : List StoredSetting}
    (distinct : (rows.map StoredSetting.key).Nodup) :
    Applied P base keys rows (rowsDraft P base rows keys) := by
  induction rows using List.reverseRecOn with
  | nil =>
    refine ⟨fun _ h => ?_, fun _ h => ?_, fun _ _ => rfl, ?_⟩
    · cases h
    · cases h
    · simp [rowsDraft]
  | append_singleton rows row ih =>
    rw [map_append, nodup_append] at distinct
    obtain ⟨hrows, -, hdisjoint⟩ := distinct
    have hsnoc : rowsDraft P base (rows ++ [row]) keys = (rowsDraft P base rows keys).row P keys row := by
      rw [rowsDraft, foldl_append]
      rfl
    rw [hsnoc]
    cases hread : readRow P keys row with
    | none => exact (ih hrows).skip hread
    | some f =>
      refine (ih hrows).take hread fun r hr => ?_
      exact hdisjoint _ (mem_map_of_mem hr) _ (by simp)

/-! ## The pairs -/

/-- The pair's destination is taken back: it was moved in the database, and a secret that
would go there did not come from the database. -/
def Draft.Reverts (base : Config) (s : Draft) (pair : UrlCredentials) : Prop :=
  ∃ d, find pair.url = some d ∧ pair.url ∈ s.fromDb ∧ d.get s.candidate ≠ d.get base ∧ s.foreign pair ≠ []

/-- What the loop needs of the table: destinations are texts, each in one pair, and no
secret is a destination. -/
structure Separate (pairs : List UrlCredentials) : Prop where
  urls : (pairs.map UrlCredentials.url).Nodup
  textual : ∀ pair ∈ pairs, ∀ d, find pair.url = some d → d.1.fieldType.Textual
  secrets : ∀ pair ∈ pairs, ∀ pair' ∈ pairs, pair.url ∉ pair'.secrets

theorem urlCredentials_separate : Separate urlCredentials where
  urls := by decide +kernel
  textual := by
    have h : ∀ pair ∈ urlCredentials, ∀ d ∈ find pair.url, d.1.fieldType.Textual := by decide +kernel
    exact fun pair hpair d hd => h pair hpair d hd
  secrets := by decide +kernel

theorem set_get_base (htext : d.1.fieldType.Textual) (c base : Config) :
    ∃ hf, d.set c (d.get base) = .ok (d.put c (base.value d.1.key) hf) :=
  ⟨_, Setting.set_of_ofJson (htext.ofJson_toJson (base.typed d.1 d.2)) c⟩

theorem pair_of_not_reverts (h : ¬ s.Reverts base pair) : s.pair base rows pair = s := by
  unfold Draft.pair
  split
  · rfl
  · rename_i d hd
    split
    · rfl
    · rename_i hmoved
      rw [not_or, not_not] at hmoved
      dsimp only
      split
      · rfl
      · rename_i hforeign
        exact absurd ⟨d, hd, hmoved.1, hmoved.2, hforeign⟩ h

theorem pair_of_reverts (rows : List StoredSetting)
    (htext : ∀ d, find pair.url = some d → d.1.fieldType.Textual)
    (h : s.Reverts base pair) :
    (∀ k, (s.pair base rows pair).candidate.value k = if k = pair.url then base.value k else s.candidate.value k) ∧
      (∀ k, k ∈ (s.pair base rows pair).fromDb ↔ k ∈ s.fromDb ∧ k ≠ pair.url) ∧
      (s.pair base rows pair).problems = s.problems := by
  obtain ⟨d, hd, hin, hmoved, hforeign⟩ := h
  obtain ⟨hf, hset⟩ := set_get_base (htext d hd) s.candidate base
  have hstep : (s.pair base rows pair).candidate = d.put s.candidate (base.value d.1.key) hf ∧
      (s.pair base rows pair).fromDb = s.fromDb.filter (· ≠ pair.url) ∧
      (s.pair base rows pair).problems = s.problems := by
    unfold Draft.pair
    rw [hd]
    dsimp only
    rw [if_neg (not_or.mpr ⟨not_not.mpr hin, hmoved⟩), if_neg hforeign, hset]
    exact ⟨rfl, rfl, rfl⟩
  rw [hstep.1, hstep.2.1, hstep.2.2]
  refine ⟨fun k => ?_, fun k => by simp, rfl⟩
  rw [value_put, find_key hd]
  split
  · rename_i hk
    rw [hk]
  · rfl

/-- What one pair's step leaves for the others. -/
theorem reverts_pair {q : UrlCredentials} (htext : ∀ d, find pair.url = some d → d.1.fieldType.Textual)
    (hurl : q.url ≠ pair.url) (hsecrets : pair.url ∉ q.secrets) :
    (s.pair base rows pair).Reverts base q ↔ s.Reverts base q := by
  by_cases h : s.Reverts base pair
  · obtain ⟨hcand, hfrom, -⟩ := pair_of_reverts rows htext h
    have hget : ∀ d : Setting, d.1.key ≠ pair.url → d.get (s.pair base rows pair).candidate = d.get s.candidate := by
      intro d hne
      rw [Setting.get, Setting.get, hcand, if_neg hne]
    have hforeign : (s.pair base rows pair).foreign q = s.foreign q := by
      unfold Draft.foreign
      rw [filter_filter, filter_filter]
      apply filter_congr
      intro k hk
      have hne : k ≠ pair.url := fun heq => hsecrets (heq ▸ hk)
      have hset : secretSet (s.pair base rows pair).candidate k = secretSet s.candidate k := by
        unfold secretSet
        split
        · rename_i d hd
          rw [hget d (find_key hd ▸ hne)]
        · rfl
      rw [hset]
      simp only [hfrom, hne, ne_eq, not_false_eq_true, and_true]
    unfold Draft.Reverts
    rw [hforeign]
    apply exists_congr
    intro d
    constructor
    · rintro ⟨hd, hin, hmoved, hne⟩
      exact ⟨hd, ((hfrom _).mp hin).1, hget d (find_key hd ▸ hurl) ▸ hmoved, hne⟩
    · rintro ⟨hd, hin, hmoved, hne⟩
      exact ⟨hd, (hfrom _).mpr ⟨hin, hurl⟩, (hget d (find_key hd ▸ hurl)).symm ▸ hmoved, hne⟩
  · rw [pair_of_not_reverts h]

/-- The destination is taken back by one of the pairs. -/
def RevertedBy (pairs : List UrlCredentials) (base : Config) (s : Draft) (k : String) : Prop :=
  ∃ pair ∈ pairs, pair.url = k ∧ s.Reverts base pair

/-- The loop over the pairs in closed form. -/
theorem pairs_closed (base : Config) (rows : List StoredSetting) {pairs : List UrlCredentials} (sep : Separate pairs)
    (s : Draft) :
    (∀ k, ¬ RevertedBy pairs base s k →
      (pairs.foldl (Draft.pair base rows) s).candidate.value k = s.candidate.value k) ∧
    (∀ k, RevertedBy pairs base s k → (pairs.foldl (Draft.pair base rows) s).candidate.value k = base.value k) ∧
    (∀ k, k ∈ (pairs.foldl (Draft.pair base rows) s).fromDb ↔ k ∈ s.fromDb ∧ ¬ RevertedBy pairs base s k) ∧
    (pairs.foldl (Draft.pair base rows) s).problems = s.problems := by
  induction pairs generalizing s with
  | nil => simp [RevertedBy]
  | cons pair rest ih =>
    have hrest : Separate rest :=
      ⟨(nodup_cons.mp sep.urls).2, fun q hq => sep.textual q (mem_cons_of_mem _ hq),
        fun q hq q' hq' => sep.secrets q (mem_cons_of_mem _ hq) q' (mem_cons_of_mem _ hq')⟩
    have hurl : ∀ q ∈ rest, q.url ≠ pair.url := fun q hq heq =>
      (nodup_cons.mp sep.urls).1 (heq ▸ mem_map_of_mem hq)
    have htext := sep.textual pair mem_cons_self
    obtain ⟨hkeep, htake, hfrom, hproblems⟩ := ih hrest (s.pair base rows pair)
    have hlater : ∀ k, RevertedBy rest base (s.pair base rows pair) k ↔ RevertedBy rest base s k := by
      intro k
      unfold RevertedBy
      apply exists_congr
      intro q
      refine and_congr_right fun hq => and_congr_right fun _ => reverts_pair htext (hurl q hq) ?_
      exact sep.secrets pair mem_cons_self q (mem_cons_of_mem _ hq)
    have hsplit : ∀ k, RevertedBy (pair :: rest) base s k ↔ (pair.url = k ∧ s.Reverts base pair) ∨ RevertedBy rest base s k := by
      intro k
      simp [RevertedBy]
    simp only [foldl_cons, hsplit]
    by_cases hrev : s.Reverts base pair
    · obtain ⟨hcand, hfrom₁, hproblems₁⟩ := pair_of_reverts rows htext hrev
      refine ⟨?_, ?_, ?_, hproblems.trans hproblems₁⟩
      · intro k hk
        rw [not_or, not_and] at hk
        rw [hkeep k (fun h => hk.2 ((hlater k).mp h)), hcand, if_neg fun heq => hk.1 heq.symm hrev]
      · intro k hk
        by_cases hr : RevertedBy rest base s k
        · exact htake k ((hlater k).mpr hr)
        · obtain ⟨rfl, -⟩ := hk.resolve_right hr
          rw [hkeep _ (fun h => hr ((hlater _).mp h)), hcand, if_pos rfl]
      · intro k
        rw [hfrom, hlater, hfrom₁, not_or, not_and, and_assoc]
        refine and_congr_right fun _ => and_congr_left fun _ => ?_
        exact ⟨fun hne heq => absurd heq.symm hne, fun h heq => h heq.symm hrev⟩
    · rw [pair_of_not_reverts hrev] at hkeep htake hfrom hproblems ⊢
      simp only [hrev, and_false, false_or]
      exact ⟨hkeep, htake, hfrom, hproblems⟩

/-! ## The result -/

/-- The overlay did not fall back: what it runs, in terms of the draft after the rows. -/
theorem overlay_of_no_problems (h : (applyOverlay P base rows keys policy).problems = []) :
    validateConfig P (applyOverlay P base rows keys policy).config policy = [] ∧
    (rowsDraft P base rows keys).problems = [] ∧
    (∀ k, ¬ RevertedBy urlCredentials base (rowsDraft P base rows keys) k →
      (applyOverlay P base rows keys policy).config.value k = (rowsDraft P base rows keys).candidate.value k) ∧
    (∀ k, RevertedBy urlCredentials base (rowsDraft P base rows keys) k →
      (applyOverlay P base rows keys policy).config.value k = base.value k) ∧
    ∀ k, k ∈ (applyOverlay P base rows keys policy).fromDb ↔
      k ∈ (rowsDraft P base rows keys).fromDb ∧ ¬ RevertedBy urlCredentials base (rowsDraft P base rows keys) k := by
  obtain ⟨hkeep, htake, hfrom, hproblems⟩ :=
    pairs_closed base rows urlCredentials_separate (rowsDraft P base rows keys)
  have hdraft : draftOf P base rows keys = urlCredentials.foldl (Draft.pair base rows) (rowsDraft P base rows keys) := rfl
  have hconfig : (applyOverlay P base rows keys policy).config = (draftOf P base rows keys).candidate := if_pos h
  have hdb : (applyOverlay P base rows keys policy).fromDb = (draftOf P base rows keys).fromDb := if_pos h
  have hnone : (draftOf P base rows keys).problems = [] := by
    by_contra hne
    simp only [applyOverlay, if_neg hne] at h
    exact hne h
  have hvalid : validateConfig P (draftOf P base rows keys).candidate policy = [] := by
    simp only [applyOverlay, if_pos hnone, map_eq_nil_iff] at h
    exact h
  rw [hconfig, hdb, hdraft] at *
  exact ⟨hvalid, hproblems ▸ hnone, hkeep, htake, hfrom⟩

theorem overlay_of_problems (h : (applyOverlay P base rows keys policy).problems ≠ []) :
    (applyOverlay P base rows keys policy).config = base ∧ (applyOverlay P base rows keys policy).fromDb = [] :=
  ⟨if_neg h, if_neg h⟩

theorem secretSet_congr (h : c.value k = c'.value k) : secretSet c k = secretSet c' k := by
  unfold secretSet
  split
  · rename_i d hd
    rw [Setting.get, Setting.get, find_key hd, h]
  · rfl

/-- A destination is no secret. -/
theorem not_revertedBy_secret (base : Config) (s : Draft) (hpair : pair ∈ urlCredentials)
    (hk : k ∈ pair.secrets) : ¬ RevertedBy urlCredentials base s k := by
  rintro ⟨pair', hpair', rfl, -⟩
  exact urlCredentials_separate.secrets pair' hpair' pair hpair hk

/-- The value a key of `fromDb` runs is the one its row was decoded to. -/
theorem decoded_of_fromDb (applied : Applied P base keys rows s) (hk : k ∈ s.fromDb) :
    ∃ row ∈ rows, row.key = k ∧ ∃ d v, find k = some d ∧ decode d row.value keys = .ok v ∧
      d.1.fieldType.ofJson v = some (s.candidate.value k) := by
  obtain ⟨row, hrow, rfl, hsome⟩ := applied.fromDb k hk
  obtain ⟨f, hread⟩ := Option.isSome_iff_exists.mp hsome
  obtain ⟨-, hval⟩ := applied.read row hrow f hread
  obtain ⟨d, hfind, hvalue⟩ := Option.bind_eq_some_iff.mp hread
  refine ⟨row, hrow, rfl, d, ?_⟩
  unfold readValue at hvalue
  split at hvalue
  · cases hvalue
  · rename_i v hv
    split at hvalue
    · cases hvalue
    · exact ⟨v, (Option.filter_eq_some_iff.mp hfind).1, hv, hval ▸ hvalue⟩

/-- A moved destination that is kept has all its secrets from the database. -/
theorem secret_fromDb (applied : Applied P base keys rows s) (hd : find pair.url = some d)
    (hmoved : d.get s.candidate ≠ d.get base) (hkept : ¬ s.Reverts base pair) (hk : k ∈ pair.secrets)
    (hset : secretSet s.candidate k = true) : k ∈ s.fromDb := by
  by_contra hforeign
  apply hkept
  refine ⟨d, hd, ?_, hmoved, ?_⟩
  · by_contra hout
    apply hmoved
    rw [Setting.get, Setting.get, find_key hd, applied.other _ hout]
  · apply ne_nil_of_mem (a := k)
    simp [Draft.foreign, hk, hforeign, hset]

/-- The overlay runs the base as it is, or a valid configuration: what came from the
database as it was stored, the base for the rest, and no secret of the base at a destination
the base does not have. -/
theorem overlay_all_or_nothing (P : UrlParser) (base : Config) (rows : List StoredSetting) (keys : Option KeyRing)
    (policy : BuildPolicy) (distinct : (rows.map StoredSetting.key).Nodup) :
    let ov := applyOverlay P base rows keys policy
    (ov.config = base ∧ ov.problems ≠ [] ∧ ov.fromDb = []) ∨
    (validateConfig P ov.config policy = [] ∧ ov.problems = [] ∧
      (∀ k ∈ ov.fromDb, ∃ row ∈ rows, row.key = k ∧ ∃ d v, find k = some d ∧ decode d row.value keys = .ok v ∧
        d.1.fieldType.ofJson v = some (ov.config.value k)) ∧
      (∀ d : Setting, d.1.key ∉ ov.fromDb → ov.config.value d.1.key = base.value d.1.key) ∧
      ∀ pair ∈ urlCredentials, ∀ d, find pair.url = some d → d.get ov.config ≠ d.get base →
        ∀ k ∈ pair.secrets, secretSet ov.config k = true → k ∈ ov.fromDb) := by
  intro ov
  by_cases hproblems : ov.problems = []
  · right
    have applied := applied_rows P base keys distinct
    obtain ⟨hvalid, -, hkeep, htake, hfrom⟩ := overlay_of_no_problems hproblems
    refine ⟨hvalid, hproblems, ?_, ?_, ?_⟩
    · intro k hk
      obtain ⟨hin, hkept⟩ := (hfrom k).mp hk
      rw [hkeep k hkept]
      exact decoded_of_fromDb applied hin
    · intro d hout
      by_cases hrev : RevertedBy urlCredentials base (rowsDraft P base rows keys) d.1.key
      · exact htake _ hrev
      · rw [hkeep _ hrev]
        exact applied.other _ fun hin => hout ((hfrom _).mpr ⟨hin, hrev⟩)
    · intro pair hpair d hd hmoved k hk hset
      have hnot := not_revertedBy_secret base (rowsDraft P base rows keys) hpair hk
      have hkept : ¬ RevertedBy urlCredentials base (rowsDraft P base rows keys) pair.url := by
        intro hrev
        apply hmoved
        rw [Setting.get, Setting.get, find_key hd, htake _ hrev]
      refine (hfrom k).mpr ⟨secret_fromDb applied hd ?_ (fun h => hkept ⟨pair, hpair, rfl, h⟩) hk ?_, hnot⟩
      · rwa [Setting.get, find_key hd, ← hkeep _ hkept, ← find_key hd]
      · rwa [← secretSet_congr (hkeep k hnot)]
  · left
    obtain ⟨hconfig, hdb⟩ := overlay_of_problems hproblems
    exact ⟨hconfig, hproblems, hdb⟩

/-! ## A small configuration -/

def FieldType.zero : FieldType → FieldValue
  | .bool => .bool false
  | .u16 | .u32 | .u64 | .i64 => .int 0
  | .f64 => .double (.finite 0)
  | .string => .text ""
  | .optString => .optText none
  | .strings => .texts []
  | .oneOf options => .text (options.headD "")

theorem holds_zero : ∀ d ∈ registry, d.fieldType.Holds d.fieldType.zero = true := by decide +kernel

/-- Everything off and empty. -/
def Config.zero : Config where
  value := fun k =>
    match find k with
    | some d => d.1.fieldType.zero
    | none => .bool false
  typed := by
    intro d hd
    rw [find_self ⟨d, hd⟩]
    exact holds_zero d hd

/-- A parser that takes every text for a plain `https` URL. -/
def UrlParser.https : UrlParser where
  parse := fun host => .ok ⟨"https", "", none, some host, some 443, "/", none, none⟩

def someKeys : KeyRing := ⟨"a1", none, by decide⟩

/-- LNbits is moved and its admin key stored with it; no invoice key is set. -/
def movedLnbits : List StoredSetting :=
  [⟨"monetization.lnbits_admin_key",
      .encrypted (someKeys.encrypt "monetization.lnbits_admin_key" (some (.str "k"))), 2⟩,
    ⟨"monetization.lnbits_url", .json (.str "https://a.example"), 1⟩]

theorem overlay_all_or_nothing_moved :
    (applyOverlay UrlParser.https Config.zero movedLnbits (some someKeys) ⟨true, false⟩).problems = [] ∧
      "monetization.lnbits_admin_key" ∈
        (applyOverlay UrlParser.https Config.zero movedLnbits (some someKeys) ⟨true, false⟩).fromDb := by
  have hproblems : (applyOverlay UrlParser.https Config.zero movedLnbits (some someKeys) ⟨true, false⟩).problems = [] := by
    decide +kernel
  refine ⟨hproblems, ?_⟩
  rcases overlay_all_or_nothing UrlParser.https Config.zero movedLnbits (some someKeys) ⟨true, false⟩
    (by decide +kernel) with ⟨-, hne, -⟩ | ⟨-, -, -, -, hpairs⟩
  · exact absurd hproblems hne
  · have hget : ∀ d ∈ find "monetization.lnbits_url",
        d.get (applyOverlay UrlParser.https Config.zero movedLnbits (some someKeys) ⟨true, false⟩).config ≠
          d.get Config.zero := by decide +kernel
    obtain ⟨d, hd⟩ : ∃ d, find "monetization.lnbits_url" = some d := Option.isSome_iff_exists.mp (by decide +kernel)
    exact hpairs ⟨"monetization.lnbits_url", ["monetization.lnbits_invoice_key", "monetization.lnbits_admin_key"]⟩
      (by decide) d hd (hget d hd) _ (by decide) (by decide +kernel)

end MatrixMedia.Settings

import MatrixMedia.Settings.Pairing
import MatrixMedia.Settings.Store

/-!
# The overlay, key by key

`overlayValue` gives the overlay's value of each key from what the rows read to: the base's
value for a destination that is taken back, otherwise what its row reads to, otherwise the
base's. It is what two overlays are compared by.
-/

namespace MatrixMedia.Settings
open Lib StoredSetting Option

variable {P : UrlParser} {base : Config} {rows : List StoredSetting} {keys : Option KeyRing} {policy : BuildPolicy}

/-! ## The rows -/

/-- What the row of a key reads to. -/
def readAt (P : UrlParser) (keys : Option KeyRing) (rows : List StoredSetting) (k : String) : Option FieldValue :=
  (findEditable k).bind fun d => (valueAt rows k).bind fun value => readValue P d value keys

theorem readRow_of_mem (distinct : (rows.map key).Nodup) {row} (h : row ∈ rows) :
    readRow P keys row = readAt P keys rows row.key := by
  rw [readRow, readAt, valueAt_of_mem distinct h]
  rfl

theorem mem_of_readAt {k f} (h : readAt P keys rows k = some f) :
    ∃ row ∈ rows, row.key = k := by
  obtain ⟨d, -, hvalue⟩ := bind_eq_some_iff.mp h
  obtain ⟨value, hvalue, -⟩ := bind_eq_some_iff.mp hvalue
  obtain ⟨row, hrow, hkey, -⟩ := mem_of_valueAt hvalue
  exact ⟨row, hrow, hkey⟩

theorem rowsDraft_fromDb (base : Config) (distinct : (rows.map key).Nodup) (k : String) :
    k ∈ (rowsDraft P base rows keys).fromDb ↔ (readAt P keys rows k).isSome := by
  have applied := applied_rows P base keys distinct
  constructor
  · intro h
    obtain ⟨row, hrow, rfl, hsome⟩ := applied.fromDb k h
    rwa [readRow_of_mem distinct hrow] at hsome
  · intro h
    obtain ⟨f, hf⟩ := isSome_iff_exists.mp h
    obtain ⟨row, hrow, rfl⟩ := mem_of_readAt hf
    exact (applied.read row hrow f (readRow_of_mem distinct hrow ▸ hf)).1

theorem rowsDraft_value (base : Config) (distinct : (rows.map key).Nodup) (k : String) :
    (rowsDraft P base rows keys).candidate.value k = (readAt P keys rows k).getD (base.value k) := by
  have applied := applied_rows P base keys distinct
  cases h : readAt P keys rows k with
  | none =>
    apply applied.other
    rw [rowsDraft_fromDb base distinct, h]
    exact Bool.false_ne_true
  | some f =>
    obtain ⟨row, hrow, rfl⟩ := mem_of_readAt h
    exact (applied.read row hrow f (readRow_of_mem distinct hrow ▸ h)).2

/-- Every stored value of a setting that is no secret can be read. -/
def Readable (P : UrlParser) (keys : Option KeyRing) (rows : List StoredSetting) : Prop :=
  ∀ k d, findEditable k = some d → d.1.secret = false → (valueAt rows k).isSome → (readAt P keys rows k).isSome

theorem rowsDraft_problems (base : Config) (distinct : (rows.map key).Nodup) :
    (rowsDraft P base rows keys).problems = [] ↔ Readable P keys rows := by
  rw [(applied_rows P base keys distinct).problems]
  constructor
  · intro h k d hd hpublic hvalue
    obtain ⟨value, hvalue⟩ := isSome_iff_exists.mp hvalue
    obtain ⟨row, hrow, rfl, -⟩ := mem_of_valueAt hvalue
    rw [← readRow_of_mem distinct hrow]
    exact h row hrow d hd hpublic
  · intro h row hrow d hd hpublic
    rw [readRow_of_mem distinct hrow]
    exact h row.key d hd hpublic (by rw [valueAt_of_mem distinct hrow]; rfl)

/-! ## The pairs -/

/-- The pair's destination is taken back, by what the rows read to. -/
def Takes (base : Config) (read : String → Option FieldValue) (pair : UrlCredentials) : Prop :=
  ∃ f, read pair.url = some f ∧ f.toJson ≠ (base.value pair.url).toJson ∧
    ∃ k ∈ pair.secrets, read k = none ∧ secretSet base k = true

variable {pair : UrlCredentials}

/-- Every destination is a text setting that can be edited and is no secret. -/
theorem url_setting (h : pair ∈ urlCredentials) :
    ∃ d, findEditable pair.url = some d ∧ find pair.url = some d ∧ d.1.secret = false ∧ d.1.fieldType.Textual := by
  have hall : ∀ pair ∈ urlCredentials,
      (find pair.url).any (fun d => d.1.editable && !d.1.secret && decide d.1.fieldType.Textual) = true := by
    decide +kernel
  have := hall pair h
  obtain ⟨d, hd, hfacts⟩ := (any_eq_true _ _).mp this
  simp only [Bool.and_eq_true, Bool.not_eq_true', decide_eq_true_eq] at hfacts
  exact ⟨d, filter_eq_some_iff.mpr ⟨hd, hfacts.1.1⟩, hd, hfacts.1.2, hfacts.2⟩

theorem reverts_iff_takes (distinct : (rows.map key).Nodup) (h : pair ∈ urlCredentials) :
    (rowsDraft P base rows keys).Reverts base pair ↔ Takes base (readAt P keys rows) pair := by
  obtain ⟨d, -, hd, -, -⟩ := url_setting h
  have hforeign : (rowsDraft P base rows keys).foreign pair ≠ [] ↔
      ∃ k ∈ pair.secrets, readAt P keys rows k = none ∧ secretSet base k = true := by
    have hne : (rowsDraft P base rows keys).foreign pair ≠ [] ↔ ∃ k, k ∈ (rowsDraft P base rows keys).foreign pair :=
      ⟨List.exists_mem_of_ne_nil _, fun ⟨_, hk⟩ => List.ne_nil_of_mem hk⟩
    rw [hne]
    apply exists_congr
    intro k
    rw [Draft.foreign, List.mem_filter, List.mem_filter, decide_eq_true_eq, rowsDraft_fromDb base distinct, and_assoc]
    refine and_congr_right fun _ => ?_
    rw [Bool.not_eq_true, isSome_eq_false_iff, isNone_iff_eq_none]
    refine and_congr_right fun hnone => ?_
    have hvalue : (rowsDraft P base rows keys).candidate.value k = base.value k := by
      rw [rowsDraft_value base distinct, hnone]
      rfl
    rw [secretSet_congr hvalue]
  unfold Draft.Reverts Takes
  rw [hforeign]
  constructor
  · rintro ⟨d', hd', hin, hmoved, hsecret⟩
    obtain ⟨f, hf⟩ := isSome_iff_exists.mp ((rowsDraft_fromDb base distinct _).mp hin)
    refine ⟨f, hf, ?_, hsecret⟩
    rwa [Setting.get, Setting.get, find_key hd', rowsDraft_value base distinct, hf] at hmoved
  · rintro ⟨f, hf, hmoved, hsecret⟩
    refine ⟨d, hd, (rowsDraft_fromDb base distinct _).mpr (by rw [hf]; rfl), ?_, hsecret⟩
    rwa [Setting.get, Setting.get, find_key hd, rowsDraft_value base distinct, hf]

def TakenBack (base : Config) (read : String → Option FieldValue) (k : String) : Prop :=
  ∃ pair ∈ urlCredentials, pair.url = k ∧ Takes base read pair

open Classical in
/-- The overlay's value of a key. -/
noncomputable def overlayValue (base : Config) (read : String → Option FieldValue) (k : String) : FieldValue :=
  if TakenBack base read k then base.value k else (read k).getD (base.value k)

/-- A destination that runs elsewhere than the base is stored there, and no secret of the base
goes with it. -/
theorem overlayValue_moved {read} (hpair : pair ∈ urlCredentials)
    (hmoved : (overlayValue base read pair.url).toJson ≠ (base.value pair.url).toJson) :
    read pair.url = some (overlayValue base read pair.url) ∧
      ∀ k ∈ pair.secrets, secretSet base k = true → read k ≠ none := by
  unfold overlayValue at hmoved ⊢
  split at hmoved
  · exact absurd rfl hmoved
  · rename_i hkept
    rw [if_neg hkept]
    cases hread : read pair.url with
    | none =>
      rw [hread] at hmoved
      exact absurd rfl hmoved
    | some f =>
      rw [hread] at hmoved
      exact ⟨rfl, fun k hk hset hnone => hkept ⟨pair, hpair, rfl, f, hread, hmoved, k, hk, hnone, hset⟩⟩

theorem draftOf_value (distinct : (rows.map key).Nodup) (k : String) :
    (draftOf P base rows keys).candidate.value k = overlayValue base (readAt P keys rows) k := by
  obtain ⟨hkeep, htake, -, -⟩ :=
    pairs_closed base rows urlCredentials_separate (rowsDraft P base rows keys)
  have hiff : RevertedBy urlCredentials base (rowsDraft P base rows keys) k ↔ TakenBack base (readAt P keys rows) k := by
    apply exists_congr
    intro pair
    exact and_congr_right fun hpair => and_congr_right fun _ => reverts_iff_takes distinct hpair
  unfold overlayValue
  split
  · rename_i h
    exact htake k (hiff.mpr h)
  · rename_i h
    rw [← rowsDraft_value base distinct]
    exact hkeep k (fun hrev => h (hiff.mp hrev))

theorem overlay_problems_iff (distinct : (rows.map key).Nodup) :
    (applyOverlay P base rows keys policy).problems = [] ↔
      Readable P keys rows ∧ validateConfig P (draftOf P base rows keys).candidate policy = [] := by
  obtain ⟨-, -, -, hproblems⟩ :=
    pairs_closed base rows urlCredentials_separate (rowsDraft P base rows keys)
  have hdraft : (draftOf P base rows keys).problems = [] ↔ Readable P keys rows := by
    rw [← rowsDraft_problems base distinct]
    exact iff_of_eq (congrArg (· = []) hproblems)
  rw [← hdraft]
  simp only [applyOverlay]
  split
  · rename_i h
    rw [List.map_eq_nil_iff]
    exact ⟨fun hvalid => ⟨h, hvalid⟩, fun hboth => hboth.2⟩
  · rename_i h
    exact ⟨fun hnone => absurd hnone h, fun hboth => absurd hboth.1 h⟩

theorem overlay_config (h : (applyOverlay P base rows keys policy).problems = []) :
    (applyOverlay P base rows keys policy).config = (draftOf P base rows keys).candidate := if_pos h

/-- The stored value of a destination that reads to something is that, as JSON. -/
theorem valueAt_of_readAt_url (hpair : pair ∈ urlCredentials) {f}
    (h : readAt P keys rows pair.url = some f) : valueAt rows pair.url = some (.json f.toJson) := by
  obtain ⟨d, hedit, -, hpublic, htext⟩ := url_setting hpair
  rw [readAt, hedit, bind_some] at h
  obtain ⟨value, hvalue, hread⟩ := bind_eq_some_iff.mp h
  rw [hvalue]
  cases value with
  | encrypted blob => simp [readValue, decode, hpublic] at hread
  | json v =>
    simp only [readValue, decode, hpublic] at hread
    split at hread
    · cases hread
    · rw [htext.toJson_ofJson hread]

end MatrixMedia.Settings

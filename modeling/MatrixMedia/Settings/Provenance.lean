import MatrixMedia.Settings.History
import MatrixMedia.Settings.Saves

/-!
# Where a dashboard-chosen destination gets its secrets

A stored destination that no boot's file or environment gave was chosen in a save. The
invariant `Provenance` says that then every stored secret of its pairs with a value was last
written by a save too. Each kind of transaction keeps it for its own reason: the import
leaves out the secrets of a destination that is stored elsewhere, a reset writes a file/env
value, re-encryption changes no content, and a save that moves a destination enters every
secret that has a value.
-/

namespace MatrixMedia.Settings

open Lib Lib.Interaction SettingsService SettingRow List

open Std (TreeMap)

variable {P : UrlParser} {base : Config} {rows : List StoredSetting} {keys : Option KeyRing} {policy : BuildPolicy}
  {db : Database}

/-- The file/env configurations of the boots so far. -/
def Database.bases (db : Database) : List Config :=
  db.commits.filterMap fun c =>
    match c.writer with
    | .importing base => some base
    | _ => none

/-- The newest write of the key is a save's. -/
def SavedLast (commits : List Commit) (k : String) : Prop :=
  ∃ svc request seen payload, lastWrite commits k = some (.saving svc request seen, payload)

def Provenance (db : Database) : Prop :=
  ∀ pair ∈ urlCredentials, ∀ d, find pair.url = some d → ∀ content, db.store.contentAt pair.url = some content →
    (∀ b ∈ db.bases, content ≠ .json (d.get b)) → ∀ k ∈ pair.secrets, ∀ v,
      db.store.contentAt k = some (.secret (some (k, some v))) → isEmpty v = false → SavedLast db.commits k

/-! ## What the overlay takes from the rows -/

variable {values : List NewValue} {v : Json} {d : Setting} {store : Store} {k : String} {accepted : List (Setting × Json)}
  {pair : UrlCredentials} {svc : SettingsService}

/-- The destination that runs is the base's or the stored one. -/
theorem overlay_url (P : UrlParser) (base : Config) (keys : Option KeyRing) (policy : BuildPolicy) (distinct : (rows.map StoredSetting.key).Nodup) (hpair : pair ∈ urlCredentials)
    (hd : find pair.url = some d) :
    d.get (applyOverlay P base rows keys policy).config = d.get base ∨
      valueAt rows pair.url = some (.json (d.get (applyOverlay P base rows keys policy).config)) := by
  by_cases hproblems : (applyOverlay P base rows keys policy).problems = []
  · have hvalue : (applyOverlay P base rows keys policy).config.value pair.url =
        overlayValue base (readAt P keys rows) pair.url := by
      rw [overlay_config hproblems, draftOf_value distinct]
    rw [Setting.get, Setting.get, find_key hd, hvalue]
    by_cases hmoved : (overlayValue base (readAt P keys rows) pair.url).toJson = (base.value pair.url).toJson
    · exact .inl hmoved
    · exact .inr (valueAt_of_readAt_url hpair (overlayValue_moved hpair hmoved).1)
  · rw [(overlay_of_problems hproblems).1]
    exact .inl rfl

/-- Every paired secret is a secret text setting. -/
theorem secret_setting (hpair : pair ∈ urlCredentials) (hk : k ∈ pair.secrets) :
    ∃ d, findEditable k = some d ∧ d.1.secret = true ∧ d.1.fieldType.Textual := by
  have hall : ∀ pair ∈ urlCredentials, ∀ k ∈ pair.secrets,
      (findEditable k).any (fun d => d.1.secret && decide d.1.fieldType.Textual) = true := by
    decide +kernel
  obtain ⟨d, hd, hfacts⟩ := (Option.any_eq_true _ _).mp (hall pair hpair k hk)
  rw [Bool.and_eq_true, decide_eq_true_eq] at hfacts
  exact ⟨d, hd, hfacts.1, hfacts.2⟩

/-- What a secret reads to is what was sealed for it. -/
theorem contentAt_of_readAt_secret (hpair : pair ∈ urlCredentials) (hk : k ∈ pair.secrets)
    {f} (h : readAt P keys rows k = some f) : contentAt rows k = some (.secret (some (k, some f.toJson))) := by
  obtain ⟨d, hedit, hsecret, htext⟩ := secret_setting hpair hk
  have hkey := findEditable_key hedit
  rw [readAt, hedit, Option.bind_some] at h
  obtain ⟨value, hvalue, hread⟩ := Option.bind_eq_some_iff.mp h
  rw [contentAt, hvalue, Option.map_some]
  cases value with
  | json v => simp [readValue, decode, hsecret] at hread
  | encrypted blob =>
    unfold readValue at hread
    split at hread
    · cases hread
    · rename_i v hdecode
      split at hread
      · cases hread
      · rw [htext.toJson_ofJson hread]
        simp only [decode, hsecret] at hdecode
        split at hdecode
        · cases hdecode
        · rename_i ring
          cases hopen : ring.decrypt d.1.key blob with
          | error e =>
            rw [hopen] at hdecode
            cases hdecode
          | ok plain =>
            rw [hopen] at hdecode
            cases plain with
            | none => cases hdecode
            | some v' =>
              cases hdecode
              rw [← hkey, KeyRing.content_of_decrypt hopen]

/-- A destination that runs elsewhere than the base runs no secret of the base. -/
theorem overlay_secret (distinct : (rows.map StoredSetting.key).Nodup) (hpair : pair ∈ urlCredentials)
    (hd : find pair.url = some d)
    (hmoved : d.get (applyOverlay P base rows keys policy).config ≠ d.get base) (hk : k ∈ pair.secrets)
    {dk} (hdk : find k = some dk) (hset : isEmpty (dk.get (applyOverlay P base rows keys policy).config) = false) :
    k ∈ (applyOverlay P base rows keys policy).fromDb ∧
      contentAt rows k = some (.secret (some (k, some (dk.get (applyOverlay P base rows keys policy).config)))) := by
  have hproblems : (applyOverlay P base rows keys policy).problems = [] := by
    by_contra hne
    rw [(overlay_of_problems hne).1] at hmoved
    exact hmoved rfl
  have hvalue : ∀ k, (applyOverlay P base rows keys policy).config.value k = overlayValue base (readAt P keys rows) k := by
    intro k
    rw [overlay_config hproblems, draftOf_value distinct]
  have hnot : ∀ read, ¬ TakenBack base read k := by
    rintro read ⟨pair', hpair', rfl, -⟩
    exact urlCredentials_separate.secrets pair' hpair' pair hpair hk
  rw [Setting.get, find_key hdk, hvalue, overlayValue, if_neg (hnot _)] at hset ⊢
  cases hread : readAt P keys rows k with
  | some f =>
    refine ⟨?_, contentAt_of_readAt_secret hpair hk hread⟩
    obtain ⟨-, -, -, -, hfrom⟩ := overlay_of_no_problems hproblems
    rw [hfrom, rowsDraft_fromDb base distinct, hread]
    refine ⟨rfl, not_revertedBy_secret base _ hpair hk⟩
  | none =>
    rw [hread, Option.getD_none] at hset
    rw [Setting.get, Setting.get, find_key hd, hvalue] at hmoved
    have hbase : secretSet base k = true := by simp [secretSet, hdk, Setting.get, find_key hdk, hset]
    exact absurd hread ((overlayValue_moved hpair hmoved).2 k hk hbase)

/-! ## Every transaction keeps it -/

theorem savedLast_cons {c : Commit} {commits} (hnone : latest c.values k = none)
    (h : SavedLast commits k) : SavedLast (c :: commits) k := by
  obtain ⟨svc, request, seen, payload, hlast⟩ := h
  exact ⟨svc, request, seen, payload, by rw [lastWrite_cons, hnone]; exact hlast⟩

/-- Values that boot writes over destinations: each its file/env value. -/
def Resets (base : Config) (values : List NewValue) : Prop :=
  ∀ v ∈ values, ∃ pair ∈ urlCredentials, ∃ d, find pair.url = some d ∧ v = ⟨pair.url, .json (d.get base)⟩

theorem importOf_eq_some {key payload} (h : importOf P base keys d = some (key, payload)) :
    key = d.1.key ∧ (d.1.secret = false → payload = .json (d.get base)) := by
  unfold importOf at h
  dsimp only at h
  split at h
  · cases h
  · split at h
    · rename_i hsecret
      split at h
      · cases h
      · split at h
        · cases h
        · cases h
          refine ⟨rfl, fun hpublic => ?_⟩
          rw [hsecret] at hpublic
          cases hpublic
    · cases h
      exact ⟨rfl, fun _ => rfl⟩

/-- A destination whose stored content is not the base's was chosen elsewhere. -/
theorem chosenInDb_of_content {url} (hd : find url = some d) {content}
    (hcontent : contentAt rows url = some content) (hne : content ≠ .json (d.get base)) : chosenInDb rows base url = true := by
  obtain ⟨value, hvalue, rfl⟩ := Option.map_eq_some_iff.mp hcontent
  obtain ⟨row, hrow, rfl⟩ := Option.map_eq_some_iff.mp hvalue
  simp only [chosenInDb, hd, storedElsewhere, find_key hd, hrow, Stored.differs]
  split
  · rename_i v hv
    rw [decide_eq_true_eq]
    intro heq
    rw [hv, heq] at hne
    exact hne rfl
  · rfl

/-- The import leaves out the secrets of a destination that is stored elsewhere. -/
theorem not_mem_guardImport {values} (hpair : pair ∈ urlCredentials)
    (hchosen : chosenInDb rows base pair.url = true) (hk : k ∈ pair.secrets) (payload : Stored) :
    (k, payload) ∉ guardImport values rows base := by
  intro hmem
  have hout := (mem_filter.mp hmem).2
  rw [decide_eq_true_eq] at hout
  exact hout (mem_flatMap.mpr ⟨pair, mem_filter.mpr ⟨hpair, hchosen⟩, hk⟩)

/-- What an import wrote. -/
theorem importFiltered_ok {s : Store} {filter}
    (h : s.importFiltered filter = .ok (values, store)) :
    s.Put store values ∧ ∀ v ∈ values, v ∈ filter s.loadAll ∧ s.rows[v.key]? = none := by
  unfold Store.importFiltered at h
  dsimp only at h
  split at h
  · cases h
    refine ⟨Store.put_putAll _ _ _, fun v hv => ?_⟩
    obtain ⟨hin, hmissing⟩ := mem_filter.mp hv
    rw [Store.any_key, Bool.not_eq_true', Option.isSome_eq_false_iff, Option.isNone_iff_eq_none] at hmissing
    exact ⟨hin, hmissing⟩
  · cases h

theorem valueAt_toStored (seen : List SettingRow) (k : String) :
    valueAt (seen.map toStored) k = (seen.find? fun r => r.key = k).map payload := by
  rw [valueAt, find?_map, Option.map_map]
  rfl

/-- A sealed value counts as set, readable or not. -/
theorem storedSecretIsSet_of_content {value : Stored}
    (hcontent : value.content = .secret (some (k, some v))) (hset : isEmpty v = false) :
    svc.storedSecretIsSet d value = true := by
  cases value with
  | json v => cases hcontent
  | encrypted blob =>
    cases hkeys : svc.keys with
    | none => simp only [storedSecretIsSet, hkeys]
    | some keys =>
      simp only [storedSecretIsSet, hkeys]
      split
      · rename_i v' hopen
        cases (KeyRing.content_of_decrypt hopen).symm.trans hcontent
        rw [hset]
        rfl
      · rfl
      · rfl

/-- What a save writes for a destination. -/
theorem latest_url {changes}
    (prepared : Prepared svc P changes accepted values)
    (hpair : pair ∈ urlCredentials) {dest} (hdest : changes[pair.url]? = some dest) :
    latest values pair.url = some (.json dest) := by
  obtain ⟨d, payload, hkey, -, henc, hlatest⟩ := prepared.latest_of_some hdest
  obtain ⟨du, -, hdu, hpublic, -⟩ := url_setting hpair
  have hdu' : d = du := Setting.ext_key (hkey.trans (find_key hdu).symm)
  rw [encode, hdu', if_pos hpublic] at henc
  cases henc
  exact hlatest

/-- A save that moves a destination leaves no stored value of its secrets behind. -/
theorem isEmpty_of_moved {request seen old next} (judged : Judged svc P request accepted seen old next)
    (hpair : pair ∈ urlCredentials) (hd : find pair.url = some d) {dest}
    (hdest : request.changes[pair.url]? = some dest) (hmoved : d.get old ≠ dest) (hk : k ∈ pair.secrets)
    (hunsent : request.changes[k]? = none)
    (hcontent : contentAt (seen.map toStored) k = some (.secret (some (k, some v)))) : isEmpty v = true := by
  by_contra hset
  have hnot := judged.not_set hpair hd hdest hmoved hk hunsent
  obtain ⟨dk, hdk, -, -⟩ := secret_setting hpair hk
  obtain ⟨value, hvalue, hvcontent⟩ := Option.map_eq_some_iff.mp hcontent
  rw [valueAt_toStored] at hvalue
  obtain ⟨row, hrow, rfl⟩ := Option.map_eq_some_iff.mp hvalue
  simp only [secretIsSet, (Option.filter_eq_some_iff.mp hdk).1, hrow,
    storedSecretIsSet_of_content hvcontent (Bool.not_eq_true _ ▸ hset), Bool.or_true] at hnot
  cases hnot

section
variable (h : Provenance db)
include h

theorem Provenance.reseal (hstore : db.store.Resealed store) :
    Provenance { db with store := store } := by
  intro pair hpair d hd content hurl hbases k hk v hv
  rw [hstore.contentAt] at hurl hv
  exact h pair hpair d hd content hurl hbases k hk v hv

/-- A commit that writes neither the destination nor the secret keeps what held for them. -/
theorem Provenance.untouched {writer}
    (put : db.store.Put store values) (hpair : pair ∈ urlCredentials)
    (hd : find pair.url = some d) {content} (hurl : db.store.contentAt pair.url = some content)
    (hbases : ∀ b ∈ db.bases, content ≠ .json (d.get b)) (hk : k ∈ pair.secrets)
    (hnone : latest values k = none) (hv : store.contentAt k = some (.secret (some (k, some v))))
    (hset : isEmpty v = false) : SavedLast (db.commit writer values store).commits k := by
  rw [put.contentAt, hnone] at hv
  exact savedLast_cons hnone (h pair hpair d hd content hurl hbases k hk v hv hset)

theorem Provenance.reset (put : db.store.Put store values)
    (hbase : base ∈ db.bases) (hvalues : Resets base values) : Provenance (db.commit (.resetting base) values store) := by
  intro pair hpair d hd content hurl hbases k hk v hv hset
  have hnone : latest values k = none := by
    cases hlatest : latest values k with
    | none => rfl
    | some payload =>
      obtain ⟨pair', hpair', _, _, heq⟩ := hvalues _ (mem_of_latest hlatest)
      have hkey : k = pair'.url := congrArg NewValue.key heq
      exact absurd (hkey ▸ hk) (urlCredentials_separate.secrets pair' hpair' pair hpair)
  cases hlatest : latest values pair.url with
  | none =>
    have hbefore : store.contentAt pair.url = db.store.contentAt pair.url := by rw [put.contentAt, hlatest]; rfl
    exact h.untouched put hpair hd (hbefore ▸ hurl) hbases hk hnone hv hset
  | some payload =>
    -- a reset destination has a file/env value
    obtain ⟨pair', -, d', hd', heq⟩ := hvalues _ (mem_of_latest hlatest)
    have hkey : pair.url = pair'.url := congrArg NewValue.key heq
    rw [← hkey, hd] at hd'
    cases hd'
    have hpayload : payload = .json (d.get base) := congrArg NewValue.payload heq
    have hcontent : store.contentAt pair.url = some (.json (d.get base)) := by rw [put.contentAt, hlatest, hpayload]; rfl
    cases hcontent.symm.trans hurl
    exact absurd rfl (hbases base hbase)

theorem Provenance.import (svc : SettingsService)
    (himport : db.store.importFiltered (svc.importFilter P) = .ok (values, store)) :
    Provenance (db.commit (.importing svc.base) values store) := by
  obtain ⟨put, hvalues⟩ := importFiltered_ok himport
  have hplan : ∀ k payload, latest values k = some payload →
      (k, payload) ∈ guardImport (importPlan P svc.base svc.keys) db.store.stored svc.base := by
    intro k payload hlatest
    obtain ⟨⟨key, value⟩, hin, heq⟩ := mem_map.mp (hvalues _ (mem_of_latest hlatest)).1
    cases heq
    exact hin
  intro pair hpair d hd content hurl hbases k hk v hv hset
  obtain ⟨hbase, hbases⟩ : content ≠ .json (d.get svc.base) ∧ ∀ b ∈ db.bases, content ≠ .json (d.get b) :=
    forall_mem_cons.mp hbases
  obtain ⟨d', -, hd', hpublic, -⟩ := url_setting hpair
  rw [hd] at hd'
  cases hd'
  cases hlatest : latest values pair.url with
  | some payload =>
    -- an imported destination has the base's value
    obtain ⟨dv, -, hdv⟩ := mem_filterMap.mp (mem_filter.mp (hplan _ _ hlatest)).1
    obtain ⟨hkey, hjson⟩ := importOf_eq_some hdv
    have hdv' : dv = d := Setting.ext_key (hkey.symm.trans (find_key hd).symm)
    rw [hdv'] at hjson
    have hcontent : store.contentAt pair.url = some (.json (d.get svc.base)) := by
      rw [put.contentAt, hlatest, hjson hpublic]
      rfl
    cases hcontent.symm.trans hurl
    exact absurd rfl hbase
  | none =>
    have hbefore : store.contentAt pair.url = db.store.contentAt pair.url := by rw [put.contentAt, hlatest]; rfl
    have hstored : db.store.contentAt pair.url = some content := hbefore ▸ hurl
    have hchosen : chosenInDb db.store.stored svc.base pair.url = true :=
      chosenInDb_of_content hd (by rw [Store.contentAt_stored, hstored]) hbase
    have hnone : latest values k = none := by
      cases hk' : latest values k with
      | none => rfl
      | some payload => exact absurd (hplan k payload hk') (not_mem_guardImport hpair hchosen hk payload)
    exact h.untouched put hpair hd hstored hbases hk hnone hv hset

theorem Provenance.save {request : SaveRequest} {seen next}
    (put : db.store.Put store values) (prepared : Prepared svc P request.changes accepted values)
    (judged : Judged svc P request accepted seen
      (applyOverlay P svc.base (seen.map toStored) svc.keys svc.policy).config next)
    (distinct : ((seen.map toStored).map StoredSetting.key).Nodup)
    (same : SameContent (seen.map toStored) db.store.stored) (hbase : svc.base ∈ db.bases) :
    Provenance (db.commit (.saving svc request seen) values store) := by
  intro pair hpair d hd content hurl hbases k hk v hv hset
  change store.contentAt pair.url = some content at hurl
  change store.contentAt k = some (.secret (some (k, some v))) at hv
  cases hlatest : latest values k with
  | some payload => exact ⟨svc, request, seen, payload, by rw [Database.commit, lastWrite_cons, hlatest]; rfl⟩
  | none =>
    have hunsent : request.changes[k]? = none := by
      cases hsent : request.changes[k]? with
      | none => rfl
      | some v' =>
        obtain ⟨_, _, _, _, _, hsome⟩ := prepared.latest_of_some hsent
        rw [hlatest] at hsome
        cases hsome
    have hkcontent : contentAt (seen.map toStored) k = some (.secret (some (k, some v))) := by
      rw [same k, Store.contentAt_stored]
      rw [put.contentAt, hlatest] at hv
      exact hv
    have hstay : db.store.contentAt pair.url = some content → SavedLast (db.commit (.saving svc request seen) values store).commits k :=
      fun hstored => h.untouched put hpair hd hstored hbases hk hlatest hv hset
    cases hdest : request.changes[pair.url]? with
    | none =>
      rw [put.contentAt, prepared.latest_of_none hdest] at hurl
      exact hstay hurl
    | some dest =>
      have hcontent : content = .json dest := by
        rw [put.contentAt, latest_url prepared hpair hdest] at hurl
        cases hurl
        rfl
      by_cases hsame : d.get (applyOverlay P svc.base (seen.map toStored) svc.keys svc.policy).config = dest
      · -- re-sent as it was: the base's value, or the stored one
        rcases overlay_url P svc.base svc.keys svc.policy distinct hpair hd with hfile | hstored
        · rw [hcontent, ← hsame, hfile] at hbases
          exact absurd rfl (hbases svc.base hbase)
        · apply hstay
          rw [← Store.contentAt_stored, ← same, contentAt, hstored, hsame, hcontent]
          rfl
      · rw [isEmpty_of_moved judged hpair hd hdest hsame hk hunsent hkcontent] at hset
        cases hset

end

/-- Only destinations are reported for a reset. -/
theorem unpaired_pairs (base : Config) (rows : List StoredSetting) {pairs : List UrlCredentials} {s url}
    (h : url ∈ (pairs.foldl (Draft.pair base rows) s).unpairedDestinations) :
    url ∈ s.unpairedDestinations ∨ ∃ pair ∈ pairs, pair.url = url := by
  induction pairs generalizing s with
  | nil => exact .inl h
  | cons pair rest ih =>
    rcases ih h with hin | ⟨pair', hpair', hurl⟩
    · have hstep : url ∈ s.unpairedDestinations ∨ url = pair.url := by
        unfold Draft.pair at hin
        split at hin
        · exact .inl hin
        · split at hin
          · exact .inl hin
          · dsimp only at hin
            split at hin
            · exact .inl hin
            · dsimp only at hin
              split at hin
              · exact .inl hin
              · simpa using hin
      rcases hstep with hold | hnew
      · exact .inl hold
      · exact .inr ⟨pair, mem_cons_self, hnew.symm⟩
    · exact .inr ⟨pair', mem_cons_of_mem _ hpair', hurl⟩

theorem unpaired_rowsDraft (P : UrlParser) (base : Config) (rows : List StoredSetting) (keys : Option KeyRing) :
    (rowsDraft P base rows keys).unpairedDestinations = [] := by
  have hfold : ∀ s, (rows.foldl (Draft.row P keys) s).unpairedDestinations = s.unpairedDestinations := by
    induction rows with
    | nil => exact fun _ => rfl
    | cons row rows ih =>
      intro s
      rw [foldl_cons, ih]
      unfold Draft.row
      split
      · rfl
      · split
        · rfl
        · split <;> rfl
  exact hfold _

theorem resets_overlay (P : UrlParser) (base : Config) (rows : List StoredSetting) (keys : Option KeyRing)
    (policy : BuildPolicy) : Resets base (resets P base (applyOverlay P base rows keys policy)) := by
  intro v hv
  obtain ⟨d, hd, rfl⟩ := mem_map.mp hv
  obtain ⟨url, hurl, hfind⟩ := mem_filterMap.mp (mem_filter.mp hd).1
  rcases unpaired_pairs base rows hurl with hin | ⟨pair, hpair, rfl⟩
  · have hnone := unpaired_rowsDraft P base rows keys
    rw [rowsDraft] at hnone
    rw [hnone] at hin
    cases hin
  · exact ⟨pair, hpair, d, hfind, by rw [find_key hfind]⟩

/-- Boot's import never breaks the primary key: a setting is planned at most once. -/
theorem importFilter_ok (s : Store) (svc : SettingsService) (P : UrlParser) :
    ∃ values store, s.importFiltered (svc.importFilter P) = .ok (values, store) := by
  have hregistry : registry.attach.Nodup := List.Nodup.attach (List.Nodup.of_map _ registry_nodup)
  have hplan : ((importPlan P svc.base svc.keys).map Prod.fst).Nodup := by
    rw [importPlan, map_filterMap]
    refine (hregistry.filter _).filterMap ?_
    intro d d' key hkey hkey'
    obtain ⟨⟨k, payload⟩, hd, rfl⟩ := Option.map_eq_some_iff.mp hkey
    obtain ⟨⟨k', payload'⟩, hd', heq⟩ := Option.map_eq_some_iff.mp hkey'
    exact Setting.ext_key ((importOf_eq_some hd).1.symm.trans (heq.symm.trans (importOf_eq_some hd').1))
  have hkeys : ((s.missing (svc.importFilter P s.loadAll)).map NewValue.key).Sublist
      ((importPlan P svc.base svc.keys).map Prod.fst) := by
    refine ((filter_sublist).map NewValue.key).trans ?_
    rw [importFilter, map_map]
    exact filter_sublist.map Prod.fst
  exact ⟨_, _, if_pos (hkeys.nodup hplan)⟩

end MatrixMedia.Settings

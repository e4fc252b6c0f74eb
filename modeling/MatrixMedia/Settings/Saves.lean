import MatrixMedia.Settings.ByKey
import MatrixMedia.Settings.Service

/-!
# A save and the next boot

`save` validates the configuration it gets by setting the changes onto the old overlay; the
next boot builds its configuration from the rows. Key by key the two can only differ at a
destination that the overlay takes back before or after, and the two refusals of `save`
exclude both.
-/

namespace MatrixMedia.Settings
open Lib Lib.Interaction SettingRow List
open Std (TreeMap)

variable {P : UrlParser} {base : Config} {rows rows' : List StoredSetting} {keys : Option KeyRing} {policy : BuildPolicy}

/-! ## What `save` has checked when it writes -/

namespace SettingsService
variable {svc : SettingsService} {request : SaveRequest} {changes : TreeMap String Json} {accepted : List (Setting × Json)}
  {values : List NewValue} {seen : List SettingRow} {next : Config}

theorem acceptChanges_ok {entries accepted problems}
    (h : acceptChanges P entries = .ok (accepted, problems)) (hnone : problems = []) :
    accepted.map (fun a => (a.1.1.key, a.2)) = entries ∧
      ∀ a ∈ accepted, a.1.1.editable = true ∧ a.1.1.validate P a.2 = .ok () := by
  induction entries generalizing accepted problems with
  | nil =>
    cases h
    exact ⟨rfl, fun _ hmem => absurd hmem not_mem_nil⟩
  | cons entry rest ih =>
    obtain ⟨key, value⟩ := entry
    rw [acceptChanges] at h
    split at h
    · cases h
    · rename_i d hd
      split at h
      · cases h
      · rename_i hedit
        split at h
        · cases h
        · rename_i accepted' problems' hrest
          split at h
          · rename_i hvalid
            cases h
            obtain ⟨hkeys, hall⟩ := ih hrest hnone
            refine ⟨by rw [map_cons, hkeys, find_key hd], ?_⟩
            intro a ha
            rcases mem_cons.mp ha with rfl | ha
            · exact ⟨by simpa using hedit, hvalid⟩
            · exact hall a ha
          · cases h
            cases hnone

theorem encodeAll_ok (h : svc.encodeAll accepted = .ok values) :
    List.Forall₂ (fun a v => v.key = a.1.1.key ∧ svc.encode a.1 a.2 = .ok v.payload) accepted values := by
  induction accepted generalizing values with
  | nil =>
    cases h
    exact .nil
  | cons a rest ih =>
    obtain ⟨d, v⟩ := a
    rw [encodeAll] at h
    split at h
    · cases h
    · rename_i payload hpayload
      cases hrest : svc.encodeAll rest with
      | error e =>
        rw [hrest] at h
        cases h
      | ok values' =>
        rw [hrest] at h
        cases h
        exact .cons ⟨rfl, hpayload⟩ (ih hrest)

/-- The accepted changes are the changes, each valid and encoded. -/
structure Prepared (svc : SettingsService) (P : UrlParser) (changes : TreeMap String Json) (accepted : List (Setting × Json))
    (values : List NewValue) : Prop where
  entries : accepted.map (fun a => (a.1.1.key, a.2)) = changes.toList
  valid : ∀ a ∈ accepted, a.1.1.editable = true ∧ a.1.1.validate P a.2 = .ok ()
  encoded : List.Forall₂ (fun a v => v.key = a.1.1.key ∧ svc.encode a.1 a.2 = .ok v.payload) accepted values

theorem prepared_of_ok (h : svc.prepare P changes = .ok (accepted, values)) : Prepared svc P changes accepted values := by
  unfold prepare at h
  split at h
  · cases h
  · rename_i accepted' problems haccept
    split at h
    · cases h
    · rename_i hnone
      obtain ⟨hentries, hvalid⟩ := acceptChanges_ok haccept (not_not.mp hnone)
      cases hvalues : svc.encodeAll accepted' with
      | error e =>
        rw [hvalues] at h
        cases h
      | ok values' =>
        rw [hvalues] at h
        cases h
        exact ⟨hentries, hvalid, encodeAll_ok hvalues⟩

section
variable (h : Prepared svc P changes accepted values)
include h

theorem Prepared.keys_eq :
    values.map NewValue.key = changes.toList.map Prod.fst ∧
      accepted.map (fun a => a.1.1.key) = changes.toList.map Prod.fst := by
  have haccepted : accepted.map (fun a => a.1.1.key) = changes.toList.map Prod.fst := by
    rw [← h.entries, map_map]
    rfl
  refine ⟨?_, haccepted⟩
  rw [← haccepted]
  clear haccepted
  obtain ⟨-, -, hencoded⟩ := h
  induction hencoded with
  | nil => rfl
  | cons hhead _ ih => rw [map_cons, map_cons, hhead.1, ih]

theorem Prepared.accepted_distinct :
    (accepted.map fun a => a.1.1.key).Nodup := by
  rw [h.keys_eq.2]
  exact Table.nodup_keys changes

/-- What is written for a change. -/
theorem Prepared.latest_of_some {k v} (hv : changes[k]? = some v) :
    ∃ d payload, d.1.key = k ∧ (d, v) ∈ accepted ∧ svc.encode d v = .ok payload ∧ latest values k = some payload := by
  have hmem : (k, v) ∈ accepted.map fun a => (a.1.1.key, a.2) := by
    rw [h.entries]
    exact Table.mem_toList.mpr hv
  obtain ⟨a, ha, heq⟩ := mem_map.mp hmem
  cases heq
  obtain ⟨i, hi, rfl⟩ := mem_iff_getElem.mp ha
  have hlen := h.encoded.length_eq
  obtain ⟨hkey, henc⟩ := (forall₂_iff_get.mp h.encoded).2 i hi (hlen ▸ hi)
  refine ⟨_, _, rfl, ha, henc, ?_⟩
  have hdistinct : (values.map NewValue.key).Nodup := by
    rw [h.keys_eq.1]
    exact Table.nodup_keys changes
  have := latest_of_mem hdistinct (get_mem values ⟨i, hlen ▸ hi⟩)
  rwa [hkey] at this

/-- Nothing is written for a key that is not changed. -/
theorem Prepared.latest_of_none {k} (hk : changes[k]? = none) :
    latest values k = none := by
  cases hlatest : latest values k with
  | none => rfl
  | some payload =>
    have hmem : k ∈ values.map NewValue.key := mem_map_of_mem (f := NewValue.key) (mem_of_latest hlatest)
    rw [h.keys_eq.1] at hmem
    obtain ⟨⟨k', v⟩, hin, rfl⟩ := mem_map.mp hmem
    rw [Table.mem_toList.mp hin] at hk
    cases hk

end

/-- A change reads back as what was sent. -/
theorem readValue_encode {d v payload} (h : svc.encode d v = .ok payload)
    (hvalid : d.1.validate P v = .ok ()) : readValue P d payload svc.keys = d.1.fieldType.ofJson v := by
  unfold encode at h
  split at h
  · rename_i hpublic
    cases h
    simp [readValue, decode, hpublic, hvalid]
  · rename_i hsecret
    split at h
    · cases h
    · rename_i keys hkeys
      cases h
      rw [Bool.not_eq_false] at hsecret
      simp [readValue, decode, hkeys, hsecret, KeyRing.decrypt_encrypt, hvalid]

theorem setAll_ok {c} (distinct : (accepted.map fun a => a.1.1.key).Nodup) (h : setAll accepted c = .ok next) :
    (∀ a ∈ accepted, a.1.1.fieldType.ofJson a.2 = some (next.value a.1.1.key)) ∧
      ∀ k, k ∉ accepted.map (fun a => a.1.1.key) → next.value k = c.value k := by
  induction accepted generalizing c with
  | nil =>
    cases h
    exact ⟨fun _ hmem => absurd hmem not_mem_nil, fun _ _ => rfl⟩
  | cons a rest ih =>
    obtain ⟨d, v⟩ := a
    obtain ⟨hnew, hrest⟩ := nodup_cons.mp distinct
    rw [setAll] at h
    split at h
    · rename_i c' hset
      obtain ⟨f, hf, hread, rfl⟩ := Setting.set_ok hset
      obtain ⟨hall, hother⟩ := ih hrest h
      constructor
      · intro a ha
        rcases mem_cons.mp ha with rfl | ha
        · rw [hread, hother _ hnew, value_put, if_pos rfl]
        · exact hall a ha
      · intro k hk
        rw [map_cons, mem_cons, not_or] at hk
        rw [hother k hk.2, value_put, if_neg hk.1]
    · cases h

/-- The checks between reading the rows and writing. -/
structure Judged (svc : SettingsService) (P : UrlParser) (request : SaveRequest) (accepted : List (Setting × Json))
    (seen : List SettingRow) (old next : Config) : Prop where
  rev : maxRev (seen.map toStored) = request.expectedRev
  entered : ∀ pair ∈ urlCredentials, svc.needsSecrets request.changes seen old pair = none
  confirmed : unconfirmedDestination (fun k => k ∈ request.changes)
    (unsettledDestinations (seen.map toStored) old request.running) = none
  set : setAll accepted old = .ok next
  valid : validateConfig P next svc.policy = []

theorem judged_of_ok (h : svc.judge P request accepted values seen = .ok next) :
    Judged svc P request accepted seen
      (applyOverlay P svc.base (seen.map toStored) svc.keys svc.policy).config next := by
  unfold judge at h
  dsimp only at h
  split at h
  · cases h
  · rename_i hrev
    split at h
    · cases h
    · rename_i hentered
      split at h
      · cases h
      · rename_i hconfirmed
        split at h
        · cases h
        · rename_i next' hset
          split at h
          · rename_i hvalid
            cases hdry : svc.dryRun P request accepted values (seen.map toStored) with
            | error e =>
              rw [hdry] at h
              cases h
            | ok _ =>
              rw [hdry] at h
              cases h
              exact ⟨not_not.mp hrev, findSome?_eq_none_iff.mp hentered, hconfirmed, hset, hvalid⟩
          · cases h

/-! ## The two refusals -/

variable {old : Config}

/-- A destination that is sent and is not the one already planned comes with its secrets. -/
theorem Judged.not_set (h : Judged svc P request accepted seen old next) {pair}
    (hpair : pair ∈ urlCredentials) {d} (hd : find pair.url = some d) {dest}
    (hdest : request.changes[pair.url]? = some dest) (hmoved : d.get old ≠ dest) {k} (hk : k ∈ pair.secrets)
    (hunsent : request.changes[k]? = none) : svc.secretIsSet seen old k = false := by
  have hnone := h.entered pair hpair
  simp only [needsSecrets, hdest, hd, Option.any_some, decide_eq_true_eq, if_neg hmoved] at hnone
  have hmissing : svc.missingSecrets request.changes seen old pair = [] := by
    by_contra hne
    rw [if_neg hne] at hnone
    cases hnone
  rw [missingSecrets, filter_filter, filter_eq_nil_iff] at hmissing
  have hout : k ∉ request.changes := by
    rw [TreeMap.mem_iff_isSome_getElem?, hunsent]
    exact Bool.false_ne_true
  simpa [hout] using hmissing k hk

/-- A secret is not sent without the destination while that is not settled. -/
theorem Judged.settled (h : Judged svc P request accepted seen old next) {pair}
    (hpair : pair ∈ urlCredentials)
    (hunsettled : pair.url ∈ unsettledDestinations (seen.map toStored) old request.running)
    (hunsent : request.changes[pair.url]? = none) {k} (hk : k ∈ pair.secrets) : request.changes[k]? = none := by
  have hnone := h.confirmed
  rw [unconfirmedDestination, findSome?_eq_none_iff] at hnone
  have hmem : ∀ k, k ∈ request.changes ↔ (request.changes[k]?).isSome := fun k => TreeMap.mem_iff_isSome_getElem?
  have hout : decide (pair.url ∈ request.changes) = false := by
    rw [decide_eq_false_iff_not, hmem, hunsent]
    exact Bool.false_ne_true
  have := hnone pair (mem_filter.mpr ⟨hpair, by simp [hunsettled, hout]⟩)
  dsimp only at this
  split at this
  · rename_i hempty
    have hsent := filter_eq_nil_iff.mp hempty k hk
    rw [decide_eq_true_eq, hmem, Bool.not_eq_true, Option.isSome_eq_false_iff, Option.isNone_iff_eq_none] at hsent
    exact hsent
  · cases this

end SettingsService

/-- A destination that is taken back is not settled, whatever is running: the stored value
is not the one the next start runs. -/
theorem unsettled_of_takes {old : Config} (running : Config) {pair} (hpair : pair ∈ urlCredentials) (htakes : Takes base (readAt P keys rows) pair)
    (hold : old.value pair.url = base.value pair.url) : pair.url ∈ unsettledDestinations rows old running := by
  obtain ⟨d, -, hd, -, -⟩ := url_setting hpair
  obtain ⟨f, hf, hmoved, -⟩ := htakes
  have hvalue := valueAt_of_readAt_url hpair hf
  have hkey := find_key hd
  rw [unsettledDestinations]
  apply mem_map.mpr
  refine ⟨d, mem_filter.mpr ⟨mem_filterMap.mpr ⟨pair, hpair, hd⟩, ?_⟩, hkey⟩
  rw [decide_eq_true_eq]
  by_cases hrunning : d.get running = f.toJson
  · right
    rw [hrunning, Setting.get, hkey, hold]
    exact fun heq => hmoved heq.symm
  · left
    obtain ⟨row, hrow, hrowvalue⟩ := Option.map_eq_some_iff.mp hvalue
    simp only [storedElsewhere, hkey, hrow, hrowvalue, Stored.differs, decide_eq_true_eq]
    exact fun heq => hrunning heq.symm

namespace SettingsService
variable {svc : SettingsService} {request : SaveRequest} {accepted : List (Setting × Json)}
  {values : List NewValue} {seen : List SettingRow} {next : Config}

/-- What the rows read to after the write: the next configuration for the changes, the same
as before for the rest. -/
structure Rewritten (request : SaveRequest) (old next : Config) (read read' : String → Option FieldValue) : Prop where
  changed : ∀ k v, request.changes[k]? = some v → read' k = some (next.value k)
  sent : ∀ k v d, request.changes[k]? = some v → find k = some d → d.1.fieldType.ofJson v = some (next.value k)
  kept : ∀ k, request.changes[k]? = none → read' k = read k ∧ next.value k = old.value k

theorem rewritten (prepared : Prepared svc P request.changes accepted values) {old}
    (hset : setAll accepted old = .ok next)
    (written : ∀ k payload, latest values k = some payload → valueAt rows' k = some payload)
    (other : ∀ k, latest values k = none → valueAt rows' k = valueAt rows k) :
    Rewritten request old next (readAt P svc.keys rows) (readAt P svc.keys rows') := by
  obtain ⟨hall, hother⟩ := setAll_ok prepared.accepted_distinct hset
  refine ⟨?_, ?_, ?_⟩
  · intro k v hv
    obtain ⟨d, payload, rfl, hmem, henc, hlatest⟩ := prepared.latest_of_some hv
    obtain ⟨hedit, hvalid⟩ := prepared.valid (d, v) hmem
    have hfind : findEditable d.1.key = some d := Option.filter_eq_some_iff.mpr ⟨find_self d, hedit⟩
    rw [readAt, hfind, written _ payload hlatest]
    exact (readValue_encode henc hvalid).trans (hall (d, v) hmem)
  · intro k v d hv hd
    obtain ⟨d', payload, rfl, hmem, -, -⟩ := prepared.latest_of_some hv
    rw [find_self d'] at hd
    cases hd
    exact hall _ hmem
  · intro k hk
    refine ⟨?_, hother k ?_⟩
    · rw [readAt, readAt, other k (prepared.latest_of_none hk)]
    · rw [prepared.keys_eq.2]
      intro hmem
      obtain ⟨⟨k', v⟩, hin, rfl⟩ := mem_map.mp hmem
      rw [Table.mem_toList.mp hin] at hk
      cases hk

/-- A destination that is sent is never taken back. -/
theorem Rewritten.not_taken {read read' old}
    (h : Rewritten request old next read read') (judged : Judged svc P request accepted seen old next)
    (hold : ∀ k, old.value k = overlayValue base read k) {pair} (hpair : pair ∈ urlCredentials) {dest}
    (hdest : request.changes[pair.url]? = some dest) : ¬ Takes base read' pair := by
  rintro ⟨f, hf, hmoved, k, hk, hnone, hset⟩
  obtain ⟨d, -, hd, -, htext⟩ := url_setting hpair
  have hunsent : request.changes[k]? = none := by
    cases hsent : request.changes[k]? with
    | none => rfl
    | some v =>
      rw [h.changed k v hsent] at hnone
      cases hnone
  have hread : read k = none := (h.kept k hunsent).1 ▸ hnone
  have hf' : f.toJson = dest := by
    rw [h.changed _ dest hdest] at hf
    cases hf
    exact htext.toJson_ofJson (h.sent _ dest d hdest hd)
  by_cases hsame : d.get old = dest
  · -- nothing moves: the rows already sent it there, with the same secret missing
    rw [Setting.get, find_key hd, ← hf', hold] at hsame
    exact (overlayValue_moved hpair (hsame ▸ hmoved)).2 k hk hset hread
  · have hempty := judged.not_set hpair hd hdest hsame hk hunsent
    have hbase : old.value k = base.value k := by
      rw [hold k, overlayValue, hread, Option.getD_none, ite_self]
    rw [← secretSet_congr hbase] at hset
    unfold secretSet at hset
    unfold secretIsSet at hempty
    split at hset
    · rename_i sd hsd
      rw [hsd] at hempty
      simp only [Bool.or_eq_false_iff] at hempty
      rw [hempty.1] at hset
      cases hset
    · cases hset

/-- A destination that is not sent is taken back exactly if it was before. -/
theorem Rewritten.takes_iff {old pair}
    (hrows : rows = seen.map toStored)
    (h : Rewritten request old next (readAt P svc.keys rows) (readAt P svc.keys rows'))
    (judged : Judged svc P request accepted seen old next)
    (hold : ∀ k, old.value k = overlayValue base (readAt P svc.keys rows) k) (hpair : pair ∈ urlCredentials)
    (hunsent : request.changes[pair.url]? = none) :
    Takes base (readAt P svc.keys rows') pair ↔ Takes base (readAt P svc.keys rows) pair := by
  constructor
  · rintro ⟨f, hf, hmoved, k, hk, hnone, hset⟩
    refine ⟨f, (h.kept _ hunsent).1 ▸ hf, hmoved, k, hk, ?_, hset⟩
    cases hsent : request.changes[k]? with
    | none => rw [← (h.kept k hsent).1, hnone]
    | some v =>
      rw [h.changed k v hsent] at hnone
      cases hnone
  · intro htakes
    have hurl : old.value pair.url = base.value pair.url := by
      rw [hold, overlayValue, if_pos ⟨pair, hpair, rfl, htakes⟩]
    have hunsettled := unsettled_of_takes request.running hpair htakes hurl
    rw [hrows] at hunsettled
    obtain ⟨f, hf, hmoved, k, hk, hnone, hset⟩ := htakes
    have hksent := judged.settled hpair hunsettled hunsent hk
    exact ⟨f, (h.kept _ hunsent).1.trans hf, hmoved, k, hk, (h.kept k hksent).1.trans hnone, hset⟩

/-- **The next start runs what the save validated.** -/
theorem overlay_after_save (prepared : Prepared svc P request.changes accepted values)
    (judged : Judged svc P request accepted seen
      (applyOverlay P svc.base (seen.map toStored) svc.keys svc.policy).config next)
    (healthy : (applyOverlay P svc.base (seen.map toStored) svc.keys svc.policy).problems = [])
    (distinct : ((seen.map toStored).map StoredSetting.key).Nodup)
    (distinct' : (rows'.map StoredSetting.key).Nodup)
    (written : ∀ k payload, latest values k = some payload → valueAt rows' k = some payload)
    (other : ∀ k, latest values k = none → valueAt rows' k = valueAt (seen.map toStored) k) :
    (applyOverlay P svc.base rows' svc.keys svc.policy).problems = [] ∧
      (applyOverlay P svc.base rows' svc.keys svc.policy).config = next := by
  have h := rewritten prepared judged.set written other
  obtain ⟨hreadable, -⟩ := (overlay_problems_iff distinct).mp healthy
  have hold : ∀ k, (applyOverlay P svc.base (seen.map toStored) svc.keys svc.policy).config.value k =
      overlayValue svc.base (readAt P svc.keys (seen.map toStored)) k := by
    intro k
    rw [overlay_config healthy, draftOf_value distinct]
  have hcandidate : (draftOf P svc.base rows' svc.keys).candidate = next := by
    apply Config.ext
    funext k
    rw [draftOf_value distinct']
    cases hk : request.changes[k]? with
    | some v =>
      have hkept : ¬ TakenBack svc.base (readAt P svc.keys rows') k := by
        rintro ⟨pair, hpair, rfl, htakes⟩
        exact h.not_taken judged hold hpair hk htakes
      rw [overlayValue, if_neg hkept, h.changed k v hk, Option.getD_some]
    | none =>
      have htaken : TakenBack svc.base (readAt P svc.keys rows') k ↔
          TakenBack svc.base (readAt P svc.keys (seen.map toStored)) k := by
        apply exists_congr
        intro pair
        refine and_congr_right fun hpair => and_congr_right fun hurl => ?_
        exact h.takes_iff rfl judged hold hpair (hurl ▸ hk)
      obtain ⟨hread, hnext⟩ := h.kept k hk
      rw [hnext, hold]
      by_cases htakes : TakenBack svc.base (readAt P svc.keys rows') k
      · rw [overlayValue, if_pos htakes, overlayValue, if_pos (htaken.mp htakes)]
      · rw [overlayValue, if_neg htakes, overlayValue, if_neg (mt htaken.mpr htakes), hread]
  have hproblems : (applyOverlay P svc.base rows' svc.keys svc.policy).problems = [] := by
    rw [overlay_problems_iff distinct', hcandidate]
    refine ⟨?_, judged.valid⟩
    intro k d hd hpublic hvalue
    cases hk : request.changes[k]? with
    | some v => rw [h.changed k v hk]; rfl
    | none =>
      rw [other k (prepared.latest_of_none hk)] at hvalue
      rw [(h.kept k hk).1]
      exact hreadable k d hd hpublic hvalue
  exact ⟨hproblems, by rw [overlay_config hproblems, hcandidate]⟩

/-! ## One save -/

variable {db db' : Database} {fates : List Fate}

/-- The write of a save whose rows are still the ones it read. -/
theorem commitSave_exec {reply} (hrev : db.store.maxRev = request.expectedRev)
    (h : (svc.commitSave request values seen).exec database db fates = some (reply, db')) :
    (db' = db ∧ ∃ e, reply = .error e) ∨
      db' = db.commit (.saving svc request seen) values (db.store.putAll values request.actor) := by
  have hwrite : db.serve (.write values request.expectedRev request.actor (.saving svc request seen)) =
      (db.commit (.saving svc request seen) values (db.store.putAll values request.actor),
        .ok (db.store.putAll values request.actor).maxRev) := by
    simp only [Database.serve, Store.write, hrev, ne_eq, not_true_eq_false, if_false]
  cases fates with
  | nil => cases h
  | cons fate fates =>
    cases fate with
    | failed e =>
      cases h
      exact .inl ⟨rfl, _, rfl⟩
    | unconfirmed e =>
      simp only [commitSave, Prog.exec, database, hwrite, Statement.fail] at h
      cases h
      exact .inr rfl
    | served =>
      simp only [commitSave, Prog.exec, database, hwrite] at h
      right
      -- the reload after the write reads, whatever comes of it
      cases fates with
      | nil => cases h
      | cons fate fates => cases fate <;> (cases h; rfl)

theorem save_exec {reply}
    (h : (svc.save P request).exec database db fates = some (reply, db')) :
    (db' = db ∧ ∃ e, reply = .error e) ∨
      ∃ accepted values next, Prepared svc P request.changes accepted values ∧
        Judged svc P request accepted db.store.loadAll
          (applyOverlay P svc.base db.store.stored svc.keys svc.policy).config next ∧
        db' = db.commit (.saving svc request db.store.loadAll) values (db.store.putAll values request.actor) := by
  unfold save at h
  split at h
  · cases h
    exact .inl ⟨rfl, _, rfl⟩
  · rename_i accepted values hprepare
    cases fates with
    | nil => cases h
    | cons fate fates =>
      cases fate with
      | failed | unconfirmed =>
        cases h
        exact .inl ⟨rfl, _, rfl⟩
      | served =>
        simp only [Prog.exec, database, Database.serve] at h
        split at h
        · cases h
          exact .inl ⟨rfl, _, rfl⟩
        · rename_i next hjudge
          have judged := judged_of_ok hjudge
          rcases commitSave_exec judged.rev h with hleft | hcommit
          · exact .inl hleft
          · exact .inr ⟨accepted, values, next, prepared_of_ok hprepare, judged, hcommit⟩

/-- **An accepted save never puts the next start in safe mode**: on the rows it leaves, the
overlay has no problems and runs the old configuration with the changes set. A save that
fails before its write commits leaves the rows alone. -/
theorem accepted_save_keeps_overlay (P : UrlParser) (svc : SettingsService) (request : SaveRequest) (db db' : Database)
    (fates : List Fate) (reply : Except PatchError Saved)
    (healthy : (applyOverlay P svc.base db.store.stored svc.keys svc.policy).problems = [])
    (ran : (svc.save P request).exec database db fates = some (reply, db')) :
    (db'.commits ≠ db.commits → ∃ next,
      (∀ k v, request.changes[k]? = some v → ∃ d, find k = some d ∧ d.1.fieldType.ofJson v = some (next.value k)) ∧
      (∀ k, request.changes[k]? = none →
        next.value k = (applyOverlay P svc.base db.store.stored svc.keys svc.policy).config.value k) ∧
      validateConfig P next svc.policy = [] ∧
      (applyOverlay P svc.base db'.store.stored svc.keys svc.policy).problems = [] ∧
      (applyOverlay P svc.base db'.store.stored svc.keys svc.policy).config = next) ∧
    (db'.commits = db.commits → db' = db ∧ ∃ e, reply = .error e) := by
  rcases save_exec ran with hunchanged | ⟨accepted, values, next, prepared, judged, rfl⟩
  · exact ⟨fun hne => absurd (congrArg Database.commits hunchanged.1) hne, fun _ => hunchanged⟩
  · refine ⟨fun _ => ?_, fun heq => absurd heq (cons_ne_self _ _)⟩
    have put := db.store.put_putAll values request.actor
    have hwritten : ∀ k payload, latest values k = some payload →
        valueAt (db.store.putAll values request.actor).stored k = some payload := by
      intro k payload hlatest
      obtain ⟨r, hr, hvalue, -, -⟩ := put.written k payload hlatest
      rw [Store.valueAt_stored, hr, ← hvalue]
      rfl
    have hother : ∀ k, latest values k = none →
        valueAt (db.store.putAll values request.actor).stored k = valueAt db.store.stored k := by
      intro k hlatest
      rw [Store.valueAt_stored, Store.valueAt_stored, put.other k hlatest]
    have h := rewritten prepared judged.set hwritten hother
    obtain ⟨hproblems, hconfig⟩ := overlay_after_save prepared judged healthy db.store.stored_distinct
      (Store.stored_distinct _) hwritten hother
    refine ⟨next, ?_, fun k hk => (h.kept k hk).2, judged.valid, hproblems, hconfig⟩
    intro k v hv
    obtain ⟨d, payload, rfl, hmem, -, -⟩ := prepared.latest_of_some hv
    exact ⟨d, find_self d, h.sent _ v d hv (find_self d)⟩

/-- LNbits and its admin key saved on an empty table. -/
def lnbitsSave : SaveRequest where
  changes := TreeMap.ofList
    [("monetization.lnbits_url", Json.str "https://a.example"), ("monetization.lnbits_admin_key", Json.str "k")]
  expectedRev := 0
  actor := "admin"
  running := Config.zero
  reloading := Config.zero
  safeMode := false

theorem accepted_save_keeps_overlay_lnbits :
    let svc : SettingsService := ⟨Config.zero, some someKeys, ⟨true, false⟩, none⟩
    ∃ reply db', (svc.save UrlParser.https lnbitsSave).exec database ⟨⟨∅, 0⟩, []⟩ [.served, .served, .served] =
      some (reply, db') ∧
      db'.commits.length = 1 ∧ (applyOverlay UrlParser.https svc.base db'.store.stored svc.keys svc.policy).problems = [] := by
  intro svc
  have hlength : (((svc.save UrlParser.https lnbitsSave).exec database ⟨⟨∅, 0⟩, []⟩
      [.served, .served, .served]).map fun r => r.2.commits.length) = some 1 := by decide +kernel
  obtain ⟨⟨reply, db'⟩, hran, hone⟩ := Option.map_eq_some_iff.mp hlength
  refine ⟨reply, db', hran, hone, ?_⟩
  have hcommits : db'.commits ≠ [] := by
    intro hnil
    rw [hnil] at hone
    cases hone
  obtain ⟨next, -, -, -, hproblems, -⟩ :=
    (accepted_save_keeps_overlay UrlParser.https svc lnbitsSave ⟨⟨∅, 0⟩, []⟩ db' _ reply (by decide +kernel) hran).1 hcommits
  exact hproblems

end SettingsService

end MatrixMedia.Settings

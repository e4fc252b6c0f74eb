import MatrixMedia.Settings.Provenance

/-!
# Concurrent writers

Boots and saves of any number of instances over one database, interleaved statement by
statement. `Allowed` says what each statement may rely on when it is made: a save that finds
its revision writes over the contents it was checked against, a re-encrypted blob says what
its row says. Every transaction that is `Allowed` keeps the invariant (`serve_keeps`), and
the programs make no others (`boot_safe`, `patchSettings_safe`).
-/

namespace MatrixMedia.Settings
open Lib Lib.Interaction Safe List
open Std (TreeMap)

variable {P : UrlParser} {s₀ : Store} {booted : Prop} {db db' : Database}

/-! ## What the transactions keep -/

/-- The database later on. -/
structure Database.Grows (db db' : Database) : Prop where
  store : db.store.Evolves db'.store
  commits : db.commits <:+ db'.commits

theorem Database.Grows.refl (db : Database) : db.Grows db := ⟨.refl _, suffix_refl _⟩

theorem Database.Grows.trans {db₁ db₂ db₃ : Database} (h : db₁.Grows db₂) (h' : db₂.Grows db₃) : db₁.Grows db₃ :=
  ⟨h.store.trans h'.store, h.commits.trans h'.commits⟩

theorem Database.Grows.bases (h : db.Grows db') {base} (hbase : base ∈ db.bases) : base ∈ db'.bases := by
  obtain ⟨c, hc, hwriter⟩ := mem_filterMap.mp hbase
  exact mem_filterMap.mpr ⟨c, h.commits.subset hc, hwriter⟩

/-- The invariant, from a table `s₀`; with `booted`, saves come from instances that booted. -/
structure Inv (P : UrlParser) (s₀ : Store) (booted : Prop) (db : Database) : Prop where
  history : History P s₀ db
  provenance : booted → Provenance db

/-- A save passed every check on these rows. -/
def Checked (P : UrlParser) (svc : SettingsService) (request : SaveRequest) (values : List NewValue)
    (seen : List SettingRow) : Prop :=
  ∃ accepted next, svc.prepare P request.changes = .ok (accepted, values) ∧
    svc.judge P request accepted values seen = .ok next

/-- What holds when a statement is made. -/
def Allowed (P : UrlParser) (booted : Prop) (db : Database) : Statement → Prop
  | .loadAll => True
  | .importFiltered filter base => ∃ svc : SettingsService, filter = svc.importFilter P ∧ base = svc.base
  | .write _ _ _ (.importing _) => False
  | .write values _ _ (.resetting base) => Resets base values ∧ base ∈ db.bases
  | .write values expectedRev _ (.saving svc request seen) =>
    request.expectedRev = expectedRev ∧ values ≠ [] ∧ Checked P svc request values seen ∧
      ((seen.map SettingRow.toStored).map StoredSetting.key).Nodup ∧
      (db.store.maxRev = expectedRev → SameContent (seen.map SettingRow.toStored) db.store.stored) ∧
      (booted → svc.base ∈ db.bases)
  | .reencrypt rows => ∀ u ∈ rows, db.store.Faithful u

variable {values : List NewValue} {store : Store}

theorem grows_commit {writer} (put : db.store.Put store values) :
    db.Grows (db.commit writer values store) :=
  ⟨put.evolves, suffix_cons _ _⟩

section
variable (h : Inv P s₀ booted db)
include h

theorem Inv.import {svc : SettingsService}
    (himport : db.store.importFiltered (svc.importFilter P) = .ok (values, store)) :
    Inv P s₀ booted (db.commit (.importing svc.base) values store) := by
  refine ⟨h.history.commit (importFiltered_ok himport).1 ?_ ?_, fun hb => (h.provenance hb).import svc himport⟩
  · intro _ _ _ hwriter
    cases hwriter
  · intro _ hsaved
    cases hsaved

theorem Inv.reset {base}
    (put : db.store.Put store values) (hvalues : Resets base values) (hbase : base ∈ db.bases) :
    Inv P s₀ booted (db.commit (.resetting base) values store) := by
  refine ⟨h.history.commit put ?_ ?_, fun hb => (h.provenance hb).reset put hbase hvalues⟩
  · intro _ _ _ hwriter
    cases hwriter
  · intro _ hsaved
    cases hsaved

theorem Inv.save {svc} {request : SaveRequest} {seen}
    (put : db.store.Put store values) (hrev : db.store.maxRev = request.expectedRev)
    (hne : values ≠ []) (checked : Checked P svc request values seen)
    (distinct : ((seen.map SettingRow.toStored).map StoredSetting.key).Nodup)
    (same : SameContent (seen.map SettingRow.toStored) db.store.stored) (hbase : booted → svc.base ∈ db.bases) :
    Inv P s₀ booted (db.commit (.saving svc request seen) values store) := by
  refine ⟨h.history.commit put ?_ ?_, fun hb => ?_⟩
  · intro _ _ _ hwriter
    cases hwriter
    exact ⟨checked, same⟩
  · intro n hsaved
    cases hsaved
    exact ⟨hrev, hne⟩
  · obtain ⟨accepted, next, hprepare, hjudge⟩ := checked
    exact (h.provenance hb).save put (SettingsService.prepared_of_ok hprepare) (SettingsService.judged_of_ok hjudge)
      distinct same (hbase hb)

/-- **Every transaction the programs make keeps the invariant.** -/
theorem serve_keeps {q} (hq : Allowed P booted db q) :
    Inv P s₀ booted (db.serve q).1 ∧ db.Grows (db.serve q).1 := by
  cases q with
  | loadAll => exact ⟨h, .refl db⟩
  | importFiltered filter base =>
    obtain ⟨svc, rfl, rfl⟩ := hq
    simp only [Database.serve]
    split
    · rename_i values store himport
      exact ⟨h.import himport, grows_commit (importFiltered_ok himport).1⟩
    · exact ⟨h, .refl db⟩
  | write values expectedRev actor writer =>
    simp only [Database.serve, Store.write]
    split
    · rename_i rev store hwrite
      split at hwrite
      · cases hwrite
      · rename_i hrev
        cases hwrite
        have put := db.store.put_putAll values actor
        refine ⟨?_, grows_commit put⟩
        cases writer with
        | importing base => exact hq.elim
        | resetting base => exact h.reset put hq.1 hq.2
        | saving svc request seen =>
          obtain ⟨hexpected, hne, checked, distinct, same, hbase⟩ := hq
          have hcurrent := not_not.mp hrev
          exact h.save put (hcurrent.trans hexpected.symm) hne checked distinct (same hcurrent) hbase
    · exact ⟨h, .refl db⟩
  | reencrypt rows =>
    have hstore := Store.resealed_reencrypt hq
    exact ⟨⟨h.history.reseal hstore, fun hb => (h.provenance hb).reseal hstore⟩, hstore.evolves, suffix_refl _⟩

/-- Numbers of the sequence that no row gets. -/
theorem skip_keeps (n : Nat) :
    Inv P s₀ booted (database.move db (.skip n)) ∧ db.Grows (database.move db (.skip n)) := by
  have hle : db.store.seq ≤ db.store.seq + n := by omega
  have hevolves : db.store.Evolves (database.move db (.skip n)).store :=
    ⟨hle, fun _ r' hr' => .inr ⟨r', hr', rfl, rfl⟩, fun _ hk => hk⟩
  refine ⟨⟨?_, fun hb => h.provenance hb⟩, hevolves, suffix_refl _⟩
  have hnumbered : (database.move db (.skip n)).store.Numbered :=
    ⟨Int.le_trans h.history.numbered.nonneg hle, fun k r hr => Int.le_trans (h.history.numbered.rev_le k r hr) hle⟩
  exact ⟨hnumbered, h.history.validated, h.history.once, h.history.passed, h.history.last⟩

end

def keeping (P : UrlParser) (s₀ : Store) (booted : Prop) : Discipline database where
  inv := Inv P s₀ booted
  rely := Database.Grows
  allowed := Allowed P booted
  admits := fun _ _ _ => True
  moves := fun _ _ => True
  rely_refl := Database.Grows.refl
  rely_trans := fun h h' => h.trans h'
  request_keeps := by
    intro db q fate h hq _
    cases fate with
    | served => exact serve_keeps h hq
    | failed e => exact ⟨h, .refl db⟩
    | unconfirmed e => exact serve_keeps h hq
  move_keeps := by
    intro db m h _
    obtain ⟨n⟩ := m
    exact skip_keeps h n

/-! ## The programs -/

theorem answers_loadAll {r} (h : (keeping P s₀ booted).Answers db .loadAll db' r) :
    db' = db ∧ ∀ rows, r = .ok rows → rows = db.store.loadAll := by
  obtain ⟨fate, -, heq⟩ := h
  cases fate with
  | served =>
    cases heq
    exact ⟨rfl, fun rows hrows => by cases hrows; rfl⟩
  | failed | unconfirmed =>
    cases heq
    refine ⟨rfl, fun rows hrows => ?_⟩
    cases hrows

/-- These rows were read from the database at some point. -/
def Snapshot (P : UrlParser) (s₀ : Store) (booted : Prop) (stored : List StoredSetting) (db : Database) : Prop :=
  ∃ before, Inv P s₀ booted before ∧ before.Grows db ∧ stored = before.store.stored

theorem Snapshot.mono {stored} (h : Snapshot P s₀ booted stored db)
    (hgrows : db.Grows db') : Snapshot P s₀ booted stored db' := by
  obtain ⟨before, hinv, hbefore, hstored⟩ := h
  exact ⟨before, hinv, hbefore.trans hgrows, hstored⟩

namespace SettingsService
variable {svc : SettingsService} {request : SaveRequest}

theorem loadStored_safe : Safe (keeping P s₀ booted) (Returns (Snapshot P s₀ booted)) loadStored db := by
  apply call
  intro db₁ _ _
  refine ⟨trivial, ?_⟩
  intro db₂ r hanswer hinv _
  obtain ⟨rfl, hrows⟩ := answers_loadAll hanswer
  cases r with
  | error e => exact error e
  | ok rows =>
    apply ok
    intro db₃ _ hrely
    exact ⟨db₂, hinv, hrely, by rw [hrows rows rfl]; rfl⟩

/-- A blob made from a row says what the row says, for as long as it has its revision. -/
theorem faithful_of_reencryptRow {keys before} (hbefore : History P s₀ before)
    (hgrows : before.Grows db) {row} (hrow : row ∈ before.store.loadAll) {u}
    (hu : reencryptRow keys row = some u) : db.store.Faithful u := by
  have hmem : row.toStored ∈ before.store.stored := mem_map_of_mem hrow
  obtain ⟨r₀, hr₀, heq⟩ := Store.mem_stored.mp hmem
  have hpayload : row.payload = r₀.value := congrArg StoredSetting.value heq
  have hrev₀ : row.rev = r₀.rev := congrArg StoredSetting.rev heq
  change before.store.rows[row.key]? = some r₀ at hr₀
  unfold reencryptRow at hu
  split at hu
  · cases hu
  · rename_i blob hblob
    split at hu
    · cases hu
    · split at hu
      · rename_i plain hopen
        cases hu
        intro r hr hrev
        dsimp only at hr hrev
        rcases hgrows.store.row _ r hr with hnew | ⟨r₁, hr₁, -, hcontent⟩
        · have := hbefore.numbered.rev_le _ r₀ hr₀
          omega
        · rw [hr₀] at hr₁
          cases hr₁
          rw [← hcontent, ← hpayload, hblob, KeyRing.content_of_decrypt hopen]
          rfl
      · cases hu

theorem reencryptPrevious_safe (keys : KeyRing) :
    Safe (keeping P s₀ booted) (Returns fun _ _ => True) (reencryptPrevious keys) db := by
  apply call
  intro db₁ _ _
  refine ⟨trivial, ?_⟩
  intro db₂ r hanswer hinv _
  obtain ⟨rfl, hrows⟩ := answers_loadAll hanswer
  cases r with
  | error e => exact error e
  | ok rows =>
    dsimp only
    split
    · exact ok fun _ _ _ => trivial
    · apply call
      intro db₃ _ hgrows
      refine ⟨?_, fun _ r _ _ _ => ret fun _ _ _ _ _ => trivial⟩
      intro u hu
      obtain ⟨row, hrow, hu⟩ := mem_filterMap.mp hu
      rw [hrows rows rfl] at hrow
      exact faithful_of_reencryptRow hinv.history hgrows hrow hu

theorem reencryptIfKeyed_safe : Safe (keeping P s₀ booted) (Returns fun _ _ => True) svc.reencryptIfKeyed db := by
  unfold reencryptIfKeyed
  split
  · exact ok fun _ _ _ => trivial
  · rename_i keys _
    exact reencryptPrevious_safe keys

/-- An overlay of rows read from the database, over a base that has been imported. -/
def OverlayOf (P : UrlParser) (s₀ : Store) (booted : Prop) (svc : SettingsService) (ov : Overlay) (db : Database) : Prop :=
  svc.base ∈ db.bases ∧
    ∃ stored, Snapshot P s₀ booted stored db ∧ ov = applyOverlay P svc.base stored svc.keys svc.policy

theorem overlay_safe {stored} (hbase : svc.base ∈ db.bases) (hstored : Snapshot P s₀ booted stored db) :
    Safe (keeping P s₀ booted) (Returns (OverlayOf P s₀ booted svc))
      (.ret (.ok (applyOverlay P svc.base stored svc.keys svc.policy)) : Action (Except String Overlay)) db :=
  ok fun _ _ hgrows => ⟨hgrows.bases hbase, stored, hstored.mono hgrows, rfl⟩

theorem resettingUnpaired_safe (n : Nat) {stored} (hbase : svc.base ∈ db.bases)
    (hstored : Snapshot P s₀ booted stored db) :
    Safe (keeping P s₀ booted) (Returns (OverlayOf P s₀ booted svc)) (svc.resettingUnpaired P n stored) db := by
  induction n generalizing stored db with
  | zero => exact overlay_safe hbase hstored
  | succ n ih =>
    have hagain : ∀ db', svc.base ∈ db'.bases → Safe (keeping P s₀ booted) (Returns (OverlayOf P s₀ booted svc))
        (loadStored.andThen (svc.resettingUnpaired P n)) db' := by
      intro db' hbase'
      apply loadStored_safe.andThen
      intro stored' db₁ _ hgrows hread
      exact ih (hgrows.bases hbase') hread
    rw [resettingUnpaired]
    split
    · exact overlay_safe hbase hstored
    · apply call
      intro db₁ _ hgrows
      refine ⟨⟨resets_overlay P svc.base stored svc.keys svc.policy, hgrows.bases hbase⟩, ?_⟩
      intro db₂ r _ _ hgrows'
      have hbase₂ := hgrows'.bases (hgrows.bases hbase)
      split
      · exact error _
      · exact hagain db₂ hbase₂
      · exact hagain db₂ hbase₂

/-- A destination that no boot's file or environment gave runs with secrets that a save
wrote: each was entered in a save, and no newer write of it existed when it was read. -/
def DashboardSecrets (config : Config) (fromDb : List String) (db : Database) : Prop :=
  ∀ pair ∈ urlCredentials, ∀ d, find pair.url = some d → (∀ base ∈ db.bases, d.get config ≠ d.get base) →
    ∀ k ∈ pair.secrets, ∀ dk, find k = some dk → isEmpty (dk.get config) = false →
      k ∈ fromDb ∧ ∃ earlier service request seen payload, earlier <:+ db.commits ∧
        lastWrite earlier k = some (.saving service request seen, payload) ∧ request.changes[k]? = some (dk.get config)

theorem DashboardSecrets.mono {config fromDb} (h : DashboardSecrets config fromDb db)
    (hgrows : db.Grows db') : DashboardSecrets config fromDb db' := by
  intro pair hpair d hd hchosen k hk dk hdk hset
  obtain ⟨hfrom, earlier, service, request, seen, payload, hsuffix, hlast, hentered⟩ :=
    h pair hpair d hd (fun base hbase => hchosen base (hgrows.bases hbase)) k hk dk hdk hset
  exact ⟨hfrom, earlier, service, request, seen, payload, hsuffix.trans hgrows.commits, hlast, hentered⟩

theorem mem_of_lastWrite {commits k writer payload}
    (h : lastWrite commits k = some (writer, payload)) : ∃ c ∈ commits, c.writer = writer ∧ latest c.values k = some payload := by
  obtain ⟨c, hc, hsome⟩ := exists_of_findSome?_eq_some h
  obtain ⟨payload', hlatest, heq⟩ := Option.map_eq_some_iff.mp hsome
  cases heq
  exact ⟨c, hc, rfl, hlatest⟩

/-- What a save sealed for a secret is what was entered. -/
theorem entered_of_content {c : Commit} {seen k payload v d}
    (hc : c.Validated P) (hwriter : c.writer = .saving svc request seen) (hlatest : latest c.values k = some payload)
    (hd : findEditable k = some d) (hsecret : d.1.secret = true)
    (hcontent : payload.content = .secret (some (k, some v))) : request.changes[k]? = some v := by
  obtain ⟨⟨accepted, next, hprepare, -⟩, -⟩ := hc svc request seen hwriter
  have prepared := prepared_of_ok hprepare
  cases hsent : request.changes[k]? with
  | none =>
    rw [prepared.latest_of_none hsent] at hlatest
    cases hlatest
  | some v' =>
    obtain ⟨d', payload', hkey, -, henc, hlatest'⟩ := prepared.latest_of_some hsent
    have hd' : d' = d := Setting.ext_key (hkey.trans (findEditable_key hd).symm)
    rw [hlatest] at hlatest'
    cases hlatest'
    rw [hd', encode, if_neg (by rw [hsecret]; exact Bool.noConfusion)] at henc
    split at henc
    · cases henc
    · cases henc
      cases hcontent
      rfl

/-- The overlay of an instance whose base was imported. -/
theorem OverlayOf.dashboardSecrets (s₀_empty : ∀ k, s₀.contentAt k = none) (hbooted : booted) {ov}
    (h : OverlayOf P s₀ booted svc ov db) : DashboardSecrets ov.config ov.fromDb db := by
  obtain ⟨hbase, stored, ⟨before, hinv, hgrows, rfl⟩, rfl⟩ := h
  intro pair hpair d hd hchosen k hk dk hdk hset
  have hmoved := hchosen svc.base hbase
  obtain ⟨hfrom, hcontent⟩ := overlay_secret before.store.stored_distinct hpair hd hmoved hk hdk hset
  refine ⟨hfrom, ?_⟩
  -- the destination is stored, and no file or environment gave it
  have hurl := (overlay_url P svc.base svc.keys svc.policy before.store.stored_distinct hpair hd).resolve_left hmoved
  have hurlContent : before.store.contentAt pair.url =
      some (.json (d.get (applyOverlay P svc.base before.store.stored svc.keys svc.policy).config)) := by
    rw [← Store.contentAt_stored, contentAt, hurl]
    rfl
  rw [Store.contentAt_stored] at hcontent
  obtain ⟨service, request, seen, payload, hlast⟩ := hinv.provenance hbooted pair hpair d hd _ hurlContent
    (fun b hb heq => hchosen b (hgrows.bases hb) (Content.json.inj heq)) k hk _ hcontent hset
  obtain ⟨c, hc, hwriter, hlatest⟩ := mem_of_lastWrite hlast
  refine ⟨before.commits, service, request, seen, payload, hgrows.commits, hlast, ?_⟩
  obtain ⟨dk', hedit, hsecret, -⟩ := secret_setting hpair hk
  have hpayload : payload.content = .secret (some (k, some (dk.get (applyOverlay P svc.base before.store.stored svc.keys
      svc.policy).config))) := by
    have hl := hinv.history.last k
    rw [hcontent, hlast, s₀_empty] at hl
    exact (Option.some.inj hl).symm
  exact entered_of_content (hinv.history.validated c hc) hwriter hlatest hedit hsecret hpayload

/-- Boot ends with a configuration whose dashboard-chosen destinations get dashboard secrets. -/
def BootOk (s₀ : Store) (booted : Prop) (b : Booted) (db : Database) : Prop :=
  (∀ k, s₀.contentAt k = none) → booted → DashboardSecrets b.config b.fromDb db

theorem chooseConfig_safe (breakGlass : Bool) (hbase : svc.base ∈ db.bases) :
    Safe (keeping P s₀ booted) (Returns (BootOk s₀ booted)) (svc.chooseConfig P breakGlass) db := by
  unfold chooseConfig
  split
  · apply loadStored_safe.andThen
    intro stored db₁ _ hgrows _
    apply ok
    intro db₂ _ hgrows' _ _ pair _ d _ hchosen
    exact absurd rfl (hchosen svc.base (hgrows'.bases (hgrows.bases hbase)))
  · have hload : Safe (keeping P s₀ booted) (Returns (OverlayOf P s₀ booted svc)) (svc.overlayResettingUnpaired P) db := by
      apply loadStored_safe.andThen
      intro stored db₁ _ hgrows hread
      exact resettingUnpaired_safe resetAttempts (hgrows.bases hbase) hread
    apply hload.andThen
    intro ov db₁ _ _ hov
    apply ok
    intro db₂ _ hgrows hempty hbooted
    exact (hov.dashboardSecrets hempty hbooted).mono hgrows

theorem answers_import {r}
    (h : (keeping P s₀ booted).Answers db (.importFiltered (svc.importFilter P) svc.base) db' r) (hok : r = .ok ()) :
    svc.base ∈ db'.bases := by
  obtain ⟨fate, -, heq⟩ := h
  subst hok
  cases fate with
  | failed e => cases heq
  | unconfirmed e => exact absurd (congrArg Prod.snd heq) (by simp [database, Statement.fail])
  | served =>
    simp only [database, Database.serve] at heq
    split at heq
    · cases heq
      exact mem_cons_self
    · cases heq

theorem boot_safe (svc : SettingsService) (breakGlass : Bool) :
    Safe (keeping P s₀ booted) (Returns (BootOk s₀ booted)) (svc.boot P breakGlass) db := by
  apply call
  intro db₁ _ _
  refine ⟨⟨svc, rfl, rfl⟩, ?_⟩
  intro db₂ r hanswer _ _
  cases r with
  | error e => exact error e
  | ok u =>
    have hbase := answers_import hanswer rfl
    apply reencryptIfKeyed_safe.andThen
    intro _ db₃ _ hgrows _
    exact chooseConfig_safe breakGlass (hgrows.bases hbase)

theorem save_safe (hne : request.changes.isEmpty = false) (hbase : booted → svc.base ∈ db.bases) :
    Safe (keeping P s₀ booted) (fun _ _ => True) (svc.save P request) db := by
  unfold save
  split
  · exact ret fun _ _ _ => trivial
  · rename_i accepted values hprepare
    apply call
    intro db₁ _ hgrows₁
    refine ⟨trivial, ?_⟩
    intro db₂ r hanswer hinv₂ hgrows₂
    obtain ⟨rfl, hrows⟩ := answers_loadAll hanswer
    cases r with
    | error e => exact ret fun _ _ _ => trivial
    | ok rows =>
      cases hrows rows rfl
      dsimp only
      split
      · exact ret fun _ _ _ => trivial
      · rename_i next hjudge
        have prepared := prepared_of_ok hprepare
        have judged := judged_of_ok hjudge
        have hvalues : values ≠ [] := by
          intro hnil
          have hkeys := prepared.keys_eq.1
          rw [hnil, map_nil] at hkeys
          have hentries : request.changes.toList = [] := map_eq_nil_iff.mp hkeys.symm
          rw [TreeMap.isEmpty_toList.symm, hentries] at hne
          cases hne
        apply call
        intro db₃ _ hgrows₃
        refine ⟨⟨rfl, hvalues, ⟨accepted, next, hprepare, hjudge⟩, db₂.store.stored_distinct, ?_, ?_⟩, ?_⟩
        · intro hrev
          exact hgrows₃.store.same_content hinv₂.history.numbered (hrev.trans judged.rev.symm)
        · exact fun hb => (hgrows₁.trans hgrows₃).bases (hbase hb)
        · intro db₄ r _ _ _
          split
          · exact ret fun _ _ _ => trivial
          · exact ret fun _ _ _ => trivial
          · exact call fun _ _ _ => ⟨trivial, fun _ _ _ _ _ => ret fun _ _ _ => trivial⟩

theorem patchSettings_safe (hbase : booted → svc.base ∈ db.bases) :
    Safe (keeping P s₀ booted) (fun _ _ => True) (svc.patchSettings P request) db := by
  unfold patchSettings
  split
  · exact ret fun _ _ _ => trivial
  · rename_i hne
    apply (save_safe (by simpa using hne) hbase).bind
    exact fun _ _ _ _ _ => ret fun _ _ _ => trivial

end SettingsService

end MatrixMedia.Settings

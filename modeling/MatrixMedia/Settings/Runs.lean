import MatrixMedia.Settings.Writers

/-!
# Histories of boots and saves

The two results about whole histories. `settings_writers_serialise`: whatever the
interleaving, a save commits over the contents it was checked against, only one save commits
for a revision, an import changes no row that exists, re-encryption changes no content, and
so each content is the newest one written. `dashboard_hosts_get_dashboard_secrets`: a
destination that was never in file or environment gets secrets that were entered in saves.
-/

namespace MatrixMedia.Settings
open Lib Lib.Interaction SettingsService UrlParser
open Std (TreeMap)

variable {P : UrlParser} {s₀ : Store} {booted : Prop} {pool : Instances} {h : List (Event Job Fate Move)}

/-- With `booted`, a save comes from an instance whose boot has imported its base. -/
def Starts (booted : Prop) (db : Database) : Job → Prop
  | .boot _ _ => True
  | .patch svc _ => booted → svc.base ∈ db.bases

/-- What a job has returned. -/
def Post (s₀ : Store) (booted : Prop) (_ : Job) (outcome : Outcome) (db : Database) : Prop :=
  ∀ b, outcome = .booted (.ok b) → BootOk s₀ booted b db

theorem program_safe (job : Job) (db : Database) (hstart : Starts booted db job) :
    Safe (keeping P s₀ booted) (Post s₀ booted job) (job.program P) db := by
  cases job with
  | boot svc breakGlass =>
    apply (boot_safe svc breakGlass).bind
    intro r db₁ _ _ hr
    cases r with
    | error e =>
      apply Safe.ret
      intro _ _ _ b hb
      cases hb
    | ok b =>
      apply Safe.ret
      intro db₂ _ hgrows b' hb'
      cases hb'
      exact fun hempty hbooted => (hr b rfl hempty hbooted).mono hgrows
  | patch svc request =>
    apply (patchSettings_safe hstart).bind
    intro r db₁ _ _ _
    apply Safe.ret
    intro _ _ _ b hb
    cases hb

theorem inv_start (numbered : s₀.Numbered) (empty : booted → ∀ k, s₀.contentAt k = none) : Inv P s₀ booted ⟨s₀, []⟩ := by
  refine ⟨⟨numbered, ?_, List.nodup_nil, ?_, fun _ => rfl⟩, fun hb pair _ d _ content hurl => ?_⟩
  · exact nofun
  · exact nofun
  · rw [empty hb] at hurl
    cases hurl

/-- A save is started by an instance whose boot has imported its base. -/
def FromInstances (booted : Prop) (pool : Instances) : Event Job Fate Move → Prop
  | .start job => Starts booted pool.state job
  | _ => True

theorem instances_sound (booted : Prop) (numbered : s₀.Numbered) (empty : booted → ∀ k, s₀.contentAt k = none)
    (run : Run (instancesStep P) (fun _ pool e => FromInstances booted pool e) (.start s₀) h pool) :
    pool.Sound (keeping P s₀ booted) (Post s₀ booted) := by
  refine Pool.sound_of_run (fun job db _ hstart => program_safe job db hstart) (inv_start numbered empty)
    (run.mono fun _ _ e hok => ?_)
  cases e with
  | start job => exact hok
  | request place fate => exact fun _ _ => trivial
  | move | die => trivial

/-- An import leaves every row that is there. -/
theorem import_keeps_rows (db : Database) (filter : List SettingRow → List NewValue) (base : Config) (fate : Fate)
    {k : String} {r : Row} (hr : db.store.rows[k]? = some r) :
    (database.request db (.importFiltered filter base) fate).1.store.rows[k]? = some r := by
  have hserve : (db.serve (.importFiltered filter base)).1.store.rows[k]? = some r := by
    simp only [Database.serve]
    split
    · rename_i values store himport
      obtain ⟨put, hvalues⟩ := importFiltered_ok himport
      cases hlatest : latest values k with
      | none => rw [Database.commit, put.other k hlatest, hr]
      | some payload =>
        have hnone := (hvalues _ (mem_of_latest hlatest)).2
        rw [hr] at hnone
        cases hnone
    · exact hr
  cases fate with
  | served => exact hserve
  | failed e => exact hr
  | unconfirmed e => exact hserve

/-- **Concurrent writers neither lose nor overwrite an update.** In every interleaving, from
any table whose revisions came from the sequence: a save commits over exactly the contents
it was checked against; no two saves commit with one expected revision; an import that is
served leaves the rows that are there, a re-encryption every content; and each content is
the one of the newest commit that wrote it. -/
theorem settings_writers_serialise (P : UrlParser) (s₀ : Store) (numbered : s₀.Numbered) (h : List (Event Job Fate Move))
    (pool : Instances) (run : Run (instancesStep P) (fun _ _ _ => True) (.start s₀) h pool) :
    (∀ c ∈ pool.state.commits, c.Validated P) ∧
    (pool.state.commits.filterMap Commit.savedAt).Nodup ∧
    (∀ place filter base fate, pool.next? place = some (.importFiltered filter base) →
      ∀ (k : String) (r : Row), pool.state.store.rows[k]? = some r →
        (database.request pool.state (.importFiltered filter base) fate).1.store.rows[k]? = some r) ∧
    (∀ place rows fate, pool.next? place = some (.reencrypt rows) →
      ∀ k, (database.request pool.state (.reencrypt rows) fate).1.store.contentAt k = pool.state.store.contentAt k) ∧
    ∀ k, pool.state.store.contentAt k =
      ((lastWrite pool.state.commits k).map fun w => w.2.content).or (s₀.contentAt k) := by
  have hsound := instances_sound False numbered False.elim
    (run.mono fun _ _ e _ => by cases e with
      | start job => cases job with
        | boot svc breakGlass => trivial
        | patch svc request => exact False.elim
      | request | move => trivial
      | die => trivial)
  have hhistory := hsound.inv.history
  refine ⟨hhistory.validated, hhistory.once, ?_, ?_, hhistory.last⟩
  · intro _ filter base fate _ k r hr
    exact import_keeps_rows pool.state filter base fate hr
  · intro place rows fate hnext k
    have hstore := Store.resealed_reencrypt (hsound.allowed hnext)
    cases fate with
    | served => exact hstore.contentAt k
    | failed e => rfl
    | unconfirmed e => exact hstore.contentAt k

/-- Two saves made with one revision: both have read the table when the first one writes. -/
def twoSaves : List (Event Job Fate Move) :=
  let patch : Job := .patch ⟨Config.zero, some someKeys, ⟨true, false⟩, none⟩ lnbitsSave
  [.start patch, .start patch, .request 0 .served, .request 1 .served, .request 0 .served, .request 1 .served]

theorem settings_writers_serialise_two_saves :
    ∃ h pool, Run (instancesStep UrlParser.https) (fun _ _ _ => True) (.start .empty) h pool ∧
      pool.state.commits.length = 1 ∧ ∀ c ∈ pool.state.commits, c.Validated UrlParser.https := by
  have follows : Follows (instancesStep https) (fun _ _ _ => True) [] (.start .empty) twoSaves :=
    ⟨trivial, trivial, trivial, trivial, trivial, trivial, trivial⟩
  have run := Run.start.follow follows
  refine ⟨_, _, run, by decide +kernel, ?_⟩
  exact (settings_writers_serialise https .empty Store.empty_numbered _ _ run).1

/-- **A dashboard-chosen host gets only secrets entered in the dashboard.** In every history
of boots and saves from an empty table, a boot that runs a destination which was in no
boot's file or environment runs only secrets that a save wrote. -/
theorem dashboard_hosts_get_dashboard_secrets (P : UrlParser) (h : List (Event Job Fate Move)) (pool : Instances)
    (run : Run (instancesStep P) (fun _ pool e => FromInstances True pool e) (.start .empty) h pool)
    (svc : SettingsService) (breakGlass : Bool) (b : SettingsService.Booted)
    (returned : (Job.boot svc breakGlass, Outcome.booted (.ok b)) ∈ pool.returned) :
    SettingsService.DashboardSecrets b.config b.fromDb pool.state := by
  have hempty : ∀ k, Store.empty.contentAt k = none := fun k => by simp [Store.contentAt, Store.empty]
  have hsound := instances_sound True Store.empty_numbered (fun _ => hempty) run
  exact hsound.returned _ _ returned pool.state hsound.inv (.refl _) b rfl hempty trivial

/-- A boot that has imported knows its base. -/
theorem boot_imports (P : UrlParser) (svc : SettingsService) (breakGlass : Bool) (db : Database) :
    svc.base ∈ ((instancesStep P) (instancesStep P ⟨db, [], []⟩ (.start (.boot svc breakGlass)))
      (.request 0 .served)).state.bases := by
  obtain ⟨values, store, himport⟩ := importFilter_ok db.store svc P
  have hstate : ((instancesStep P) (instancesStep P ⟨db, [], []⟩ (.start (.boot svc breakGlass)))
      (.request 0 .served)).state = (db.serve (.importFiltered (svc.importFilter P) svc.base)).1 := Pool.put_state _ _ _
  rw [hstate]
  simp only [Database.serve, himport]
  exact List.mem_cons_self

def keyedService : SettingsService := ⟨Config.zero, some someKeys, ⟨true, false⟩, none⟩

/-- An instance boots; between its import and its overlay LNbits and its admin key are saved. -/
def lnbitsMoved : List (Event Job Fate Move) :=
  [.start (.boot keyedService false), .request 0 .served,
    .start (.patch keyedService { lnbitsSave with expectedRev := 37 }),
    .request 0 .served, .request 0 .served, .request 0 .served, .request 0 .served, .request 0 .served]

theorem lnbitsMoved_follows :
    Follows (instancesStep https) (fun _ pool e => FromInstances True pool e) [] (.start .empty) lnbitsMoved :=
  ⟨trivial, trivial, fun _ => boot_imports https keyedService false _, trivial, trivial, trivial, trivial, trivial,
    trivial⟩

/-- The boot runs LNbits with a key at the saved host, which no file or environment has. -/
def runsSavedHost (pool : Instances) : Bool :=
  match pool.returned with
  | (.boot _ _, .booted (.ok b)) :: _ =>
    b.config.value "monetization.lnbits_admin_key" = .text "k" &&
      pool.state.bases.all fun base =>
        (b.config.value "monetization.lnbits_url").toJson ≠ (base.value "monetization.lnbits_url").toJson
  | _ => false

theorem lnbitsMoved_run : ∃ h pool, Run (instancesStep https) (fun _ pool e => FromInstances True pool e)
    (.start .empty) h pool ∧ runsSavedHost pool = true :=
  Run.exists_of_follows lnbitsMoved ⟨lnbitsMoved_follows, by decide +kernel⟩

theorem dashboard_hosts_get_dashboard_secrets_lnbits :
    ∃ h pool svc breakGlass b, Run (instancesStep UrlParser.https) (fun _ pool e => FromInstances True pool e)
        (.start .empty) h pool ∧
      (Job.boot svc breakGlass, Outcome.booted (.ok b)) ∈ pool.returned ∧
      b.config.value "monetization.lnbits_admin_key" = .text "k" ∧ "monetization.lnbits_admin_key" ∈ b.fromDb := by
  obtain ⟨_, pool, run, hlast⟩ := lnbitsMoved_run
  unfold runsSavedHost at hlast
  split at hlast
  · rename_i svc breakGlass b rest hreturned
    simp only [Bool.and_eq_true, decide_eq_true_eq, List.all_eq_true] at hlast
    obtain ⟨hkey, hmoved⟩ := hlast
    have hmem : (Job.boot svc breakGlass, Outcome.booted (.ok b)) ∈ pool.returned := by
      rw [hreturned]
      exact List.mem_cons_self
    have hsecrets := dashboard_hosts_get_dashboard_secrets https _ pool run svc breakGlass b hmem
    obtain ⟨d, hd⟩ : ∃ d, find "monetization.lnbits_url" = some d := Option.isSome_iff_exists.mp (by decide +kernel)
    obtain ⟨dk, hdk⟩ : ∃ d, find "monetization.lnbits_admin_key" = some d := Option.isSome_iff_exists.mp (by decide +kernel)
    refine ⟨_, pool, svc, breakGlass, b, run, hmem, hkey, ?_⟩
    refine (hsecrets ⟨"monetization.lnbits_url", ["monetization.lnbits_invoice_key", "monetization.lnbits_admin_key"]⟩
      (by decide) d hd ?_ _ (by decide) dk hdk ?_).1
    · intro base hbase
      rw [Setting.get, Setting.get, find_key hd]
      exact hmoved base hbase
    · rw [Setting.get, find_key hdk, hkey]
      decide
  · cases hlast

end MatrixMedia.Settings

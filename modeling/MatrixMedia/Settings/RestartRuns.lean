import MatrixMedia.Lib.Trail
import MatrixMedia.Settings.Restart
import MatrixMedia.Settings.Runs

/-!
# No restart loop

The newest revision only grows, and a request stores the newest revision there is. So when
a process finds a request above the revision it loaded, that revision was superseded after
its read and the request came after that (`Inv.reads`). The log is a journal: each entry is
in order over the older ones (`EntryOk`), and the processes of an instance follow each other
in it. `no_restart_loop` reads both off the log of any run.
-/

namespace MatrixMedia.Settings

open Lib Lib.Interaction Safe Cluster SettingsService Store SettingRow List

open Std (TreeMap)

/-! ## Revisions only grow -/

/-- The table later on: no row is gone, its revision grows, and a changed one is new. -/
structure Store.Renumbers (s s' : Store) : Prop where
  seq : s.seq ≤ s'.seq
  kept : ∀ (k : String) (r : Row), s.rows[k]? = some r → ∃ r', s'.rows[k]? = some r' ∧ r.rev ≤ r'.rev
  row : ∀ (k : String) (r' : Row), s'.rows[k]? = some r' →
    (s.seq < r'.rev ∧ r'.rev ≤ s'.seq) ∨ ∃ r, s.rows[k]? = some r ∧ r.rev = r'.rev

namespace Store.Renumbers

variable {s s' s'' : Store}

theorem refl (s : Store) : s.Renumbers s :=
  ⟨Int.le_refl _, fun _ r hr => ⟨r, hr, Int.le_refl _⟩, fun _ r' hr' => .inr ⟨r', hr', rfl⟩⟩

theorem trans (h : s.Renumbers s') (h' : s'.Renumbers s'') : s.Renumbers s'' where
  seq := Int.le_trans h.seq h'.seq
  kept := by
    intro k r hr
    obtain ⟨r', hr', hle⟩ := h.kept k r hr
    obtain ⟨r'', hr'', hle'⟩ := h'.kept k r' hr'
    exact ⟨r'', hr'', Int.le_trans hle hle'⟩
  row := by
    intro k r'' hr''
    rcases h'.row k r'' hr'' with ⟨hnew, hle⟩ | ⟨r', hr', hrev⟩
    · exact .inl ⟨Int.lt_of_le_of_lt h.seq hnew, hle⟩
    · rcases h.row k r' hr' with ⟨hnew, hle⟩ | ⟨r, hr, hrev'⟩
      · exact .inl ⟨hrev ▸ hnew, Int.le_trans (hrev ▸ hle) h'.seq⟩
      · exact .inr ⟨r, hr, hrev'.trans hrev⟩

theorem numbered (h : s.Renumbers s') (hs : s.Numbered) : s'.Numbered where
  nonneg := Int.le_trans hs.nonneg h.seq
  rev_le := by
    intro k r' hr'
    rcases h.row k r' hr' with ⟨-, hle⟩ | ⟨r, hr, hrev⟩
    · exact hle
    · exact hrev ▸ Int.le_trans (hs.rev_le k r hr) h.seq

theorem maxRev_le (h : s.Renumbers s') (hs : s.Numbered) : s.maxRev ≤ s'.maxRev := by
  cases hmax : (s.stored.map StoredSetting.rev).max? with
  | some m =>
    obtain ⟨row, hrow, hrev⟩ := mem_map.mp (max?_eq_some_iff.mp hmax).1
    obtain ⟨r, hr, heq⟩ := mem_stored.mp hrow
    obtain ⟨r', hr', hle⟩ := h.kept _ r hr
    rw [maxRev, Settings.maxRev, hmax, Option.getD_some, ← hrev, heq]
    exact Int.le_trans hle (rev_le_maxRev hr')
  | none =>
    -- an empty table: whatever is there later has a number of the sequence
    rw [maxRev, Settings.maxRev, hmax, Option.getD_none]
    have hempty : s.stored = [] := map_eq_nil_iff.mp (max?_eq_none_iff.mp hmax)
    cases hmax' : (s'.stored.map StoredSetting.rev).max? with
    | none => exact Int.le_of_eq (by rw [maxRev, Settings.maxRev, hmax', Option.getD_none])
    | some m' =>
      obtain ⟨row, hrow, hrev⟩ := mem_map.mp (max?_eq_some_iff.mp hmax').1
      obtain ⟨r', hr', heq⟩ := mem_stored.mp hrow
      rcases h.row _ r' hr' with ⟨hnew, -⟩ | ⟨r, hr, -⟩
      · have hpos := hs.nonneg
        have hle := rev_le_maxRev hr'
        omega
      · have hmem : (⟨row.key, r.value, r.rev⟩ : StoredSetting) ∈ s.stored := mem_stored.mpr ⟨r, hr, rfl⟩
        rw [hempty] at hmem
        cases hmem

end Store.Renumbers

theorem Store.Put.renumbers {s s' : Store} {values} (h : s.Put s' values) (hs : s.Numbered) :
    s.Renumbers s' where
  seq := h.seq
  kept := by
    intro k r hr
    cases hlatest : latest values k with
    | none => exact ⟨r, (h.other k hlatest).trans hr, Int.le_refl _⟩
    | some payload =>
      obtain ⟨r', hr', -, hnew, -⟩ := h.written k payload hlatest
      exact ⟨r', hr', Int.le_trans (hs.rev_le k r hr) (Int.le_of_lt hnew)⟩
  row := by
    intro k r' hr'
    cases hlatest : latest values k with
    | none => exact .inr ⟨r', (h.other k hlatest) ▸ hr', rfl⟩
    | some payload =>
      obtain ⟨r, hr, -, hnew, hle⟩ := h.written k payload hlatest
      rw [hr'] at hr
      cases hr
      exact .inl ⟨hnew, hle⟩

theorem Store.renumbers_reencryptOne (s : Store) (skipped : List String) (u : String × Int × Blob) :
    s.Renumbers (reencryptOne (s, skipped) u).1 := by
  obtain ⟨key, expectedRev, blob⟩ := u
  unfold reencryptOne
  dsimp only
  split
  · rename_i old rev updatedBy hrow
    split
    · refine ⟨Int.le_refl _, fun k r hr => ?_, fun k r' hr' => .inr ?_⟩
      · rw [Table.getElem?_insert]
        split
        · rename_i hkey
          subst hkey
          rw [hrow] at hr
          cases hr
          exact ⟨_, rfl, Int.le_refl _⟩
        · exact ⟨r, hr, Int.le_refl _⟩
      · rw [Table.getElem?_insert] at hr'
        split at hr'
        · rename_i hkey
          subst hkey
          cases hr'
          exact ⟨_, hrow, rfl⟩
        · exact ⟨r', hr', rfl⟩
    · exact .refl s
  · exact .refl s

theorem Store.renumbers_reencrypt (s : Store) (rows : List (String × Int × Blob)) : s.Renumbers (s.reencrypt rows).1 := by
  have hfold : ∀ (rows : List (String × Int × Blob)) (s : Store) (skipped : List String),
      s.Renumbers (rows.foldl reencryptOne (s, skipped)).1 := by
    intro rows
    induction rows with
    | nil => exact fun s _ => .refl s
    | cons u rows ih => exact fun s skipped => (s.renumbers_reencryptOne skipped u).trans (ih _ _)
  exact hfold rows s []

theorem Database.renumbers_serve (db : Database) (hs : db.store.Numbered) (q : Statement) :
    db.store.Renumbers (db.serve q).1.store := by
  cases q with
  | loadAll => exact .refl _
  | importFiltered filter base =>
    simp only [Database.serve]
    split
    · rename_i himport
      exact (importFiltered_ok himport).1.renumbers hs
    · exact .refl _
  | write changes expectedRev actor writer =>
    simp only [Database.serve, write]
    split
    · rename_i hwrite
      split at hwrite
      · cases hwrite
      · cases hwrite
        exact (db.store.put_putAll changes actor).renumbers hs
    · exact .refl _
  | reencrypt rows => exact db.store.renumbers_reencrypt rows

/-- Whatever becomes of a statement. -/
theorem Database.renumbers (db : Database) (hs : db.store.Numbered) (q : Statement) (fate : Fate) :
    db.store.Renumbers (database.request db q fate).1.store := by
  cases fate with
  | served => exact db.renumbers_serve hs q
  | failed e => exact .refl _
  | unconfirmed e => exact db.renumbers_serve hs q

/-! ## The log -/

/-- A revision newer than `rev` was committed. -/
def Committed (rev : Int) (log : List Entry) : Prop := ∃ p c, Entry.committed p c ∈ log ∧ rev < c

/-- A restart was requested after that. -/
def Requested (rev : Int) (log : List Entry) : Prop :=
  ∃ newer p c older, log = newer ++ .requested p c :: older ∧ Committed rev older

section

variable {rev : Int} {log : List Entry}

theorem Committed.append (h : Committed rev log) (newer : List Entry) : Committed rev (newer ++ log) := by
  obtain ⟨p, c, hmem, hlt⟩ := h
  exact ⟨p, c, mem_append_right newer hmem, hlt⟩

theorem Requested.append (h : Requested rev log) (newer : List Entry) : Requested rev (newer ++ log) := by
  obtain ⟨newer', p, c, older, rfl, hcommitted⟩ := h
  exact ⟨newer ++ newer', p, c, older, (append_assoc _ _ _).symm, hcommitted⟩

theorem Requested.exists (h : Requested rev log) : ∃ p c, Entry.requested p c ∈ log := by
  obtain ⟨newer, p, c, older, rfl, -⟩ := h
  exact ⟨p, c, mem_append_right newer mem_cons_self⟩

end

/-- What was read before `newer`, when the newest and the requested revision are now these. -/
structure Superseded (maxRev requested : Int) (newer : List Entry) (rev : Int) : Prop where
  committed : rev < maxRev → Committed rev newer
  requested : rev < requested → Requested rev newer

/-- Every read of the log is accounted for. -/
def Reads (maxRev requested : Int) (log : List Entry) : Prop :=
  ∀ newer p rev older, log = newer ++ .read p rev :: older → Superseded maxRev requested newer rev

theorem Reads.cons {maxRev requested maxRev' requested' log} (h : Reads maxRev requested log) {e}
    (hnew : ∀ p rev, e = .read p rev → maxRev' ≤ rev ∧ requested' ≤ rev)
    (hold : ∀ newer rev, Superseded maxRev requested newer rev → Superseded maxRev' requested' (e :: newer) rev) :
    Reads maxRev' requested' (e :: log) := by
  intro newer p rev older heq
  cases newer with
  | nil =>
    cases heq
    obtain ⟨hmax, hrequested⟩ := hnew p rev rfl
    exact ⟨fun hlt => by omega, fun hlt => by omega⟩
  | cons e' newer =>
    obtain ⟨rfl, hlog⟩ := List.cons.inj heq
    exact hold newer rev (h newer p rev older hlog)

/-- An entry that is no commit and no request. -/
theorem Superseded.pass {maxRev requested rev newer} (h : Superseded maxRev requested newer rev) (e : Entry) :
    Superseded maxRev requested (e :: newer) rev :=
  ⟨fun hlt => (h.committed hlt).append [e], fun hlt => (h.requested hlt).append [e]⟩

/-- The processes of an instance follow each other. -/
def Entry.Follows (e e' : Entry) : Prop :=
  e'.process.name = e.process.name → e'.process.generation ≤ e.process.generation ∧
    (e = .spawned e.process → e'.process.generation < e.process.generation)

/-- An entry may be written over `older`. -/
structure EntryOk (e : Entry) (older : List Entry) : Prop where
  follows : ∀ e' ∈ older, e.Follows e'
  booted : ∀ p rev, e = .booted p rev → .read p rev ∈ older ∧ ∀ rev', .booted p rev' ∉ older
  /-- The revision a process loaded was superseded after each read that gave it. -/
  scheduled : ∀ p, e = .scheduled p → .scheduled p ∉ older ∧ ∃ rev, .booted p rev ∈ older ∧
    ∀ newer older', older = newer ++ .read p rev :: older' → Requested rev newer

/-- An entry with nothing more to it. -/
theorem EntryOk.plain {e : Entry} {older} (follows : ∀ e' ∈ older, e.Follows e')
    (hbooted : ∀ p rev, e ≠ .booted p rev) (hscheduled : ∀ p, e ≠ .scheduled p) : EntryOk e older :=
  ⟨follows, fun p rev heq => absurd heq (hbooted p rev), fun p heq => absurd heq (hscheduled p)⟩

/-! ## The invariant -/

/-- The current process of an instance: what it remembers is what the log says of it. -/
structure MemoryOk (log : List Entry) (name : String) (i : Instance) : Prop where
  booted : ∀ state, i.state = some state → .booted ⟨name, i.generation⟩ state.loadedRev ∈ log ∧
    (state.restartAt = none → .scheduled ⟨name, i.generation⟩ ∉ log)
  notBooted : i.state = none → ∀ rev, .booted ⟨name, i.generation⟩ rev ∉ log

theorem MemoryOk.cons {log name i} (h : MemoryOk log name i)
    {e} (hbooted : ∀ rev, e ≠ .booted ⟨name, i.generation⟩ rev) (hscheduled : e ≠ .scheduled ⟨name, i.generation⟩) :
    MemoryOk (e :: log) name i where
  booted := by
    intro state hstate
    obtain ⟨hmem, hnot⟩ := h.booted state hstate
    refine ⟨mem_cons_of_mem e hmem, fun hnone hscheduled' => ?_⟩
    rcases mem_cons.mp hscheduled' with heq | hmem
    · exact hscheduled heq.symm
    · exact hnot hnone hmem
  notBooted := by
    intro hnone rev hmem
    rcases mem_cons.mp hmem with heq | hmem
    · exact hbooted rev heq.symm
    · exact h.notBooted hnone rev hmem

structure Cluster.Inv (s : Cluster) : Prop where
  numbered : s.db.store.Numbered
  requested_le : s.restartRequestedRev ≤ s.db.store.maxRev
  reads : Reads s.db.store.maxRev s.restartRequestedRev s.log
  journal : Journal EntryOk s.log
  known : ∀ e ∈ s.log, ∃ i, s.instances[e.process.name]? = some i ∧ e.process.generation ≤ i.generation
  memory : ∀ name i, s.instances[name]? = some i → MemoryOk s.log name i

/-- The log grows, and what is read later is not older than the table now. -/
structure Cluster.Grows (s s' : Cluster) : Prop where
  maxRev : s.db.store.maxRev ≤ s'.db.store.maxRev
  log : ∃ newer, s'.log = newer ++ s.log ∧ ∀ p rev, .read p rev ∈ newer → s.db.store.maxRev ≤ rev

namespace Cluster

variable {s s' s'' : Cluster} {p : Process}

theorem Grows.refl (s : Cluster) : s.Grows s := ⟨Int.le_refl _, [], rfl, nofun⟩

theorem Grows.trans (h : s.Grows s') (h' : s'.Grows s'') : s.Grows s'' := by
  obtain ⟨newer, hlog, hreads⟩ := h.log
  obtain ⟨newer', hlog', hreads'⟩ := h'.log
  refine ⟨Int.le_trans h.maxRev h'.maxRev, newer' ++ newer, by rw [hlog', hlog, append_assoc], ?_⟩
  intro p rev hmem
  rcases mem_append.mp hmem with hmem | hmem
  · exact Int.le_trans h.maxRev (hreads' p rev hmem)
  · exact hreads p rev hmem

theorem Grows.mem (h : s.Grows s') {e} (he : e ∈ s.log) : e ∈ s'.log := by
  obtain ⟨newer, hlog, -⟩ := h.log
  rw [hlog]
  exact mem_append_right newer he

theorem read_mem_statementEntries {q fate before after p' rev}
    (h : .read p' rev ∈ statementEntries p q fate before after) : rev = before.store.maxRev := by
  unfold statementEntries at h
  split at h
  · cases mem_singleton.mp h
    rfl
  · split at h
    · cases h
    · cases mem_singleton.mp h

/-- A restart was requested for `requested`: each read of less is superseded, and no later
read gives less. -/
structure Answered (s : Cluster) (requested : Int) : Prop where
  le : requested ≤ s.db.store.maxRev
  reads : ∀ newer p rev older, s.log = newer ++ .read p rev :: older → rev < requested → Requested rev newer

theorem Answered.mono {requested} (h : s.Answered requested) (hgrows : s.Grows s') : s'.Answered requested := by
  obtain ⟨newer', hlog, hreads⟩ := hgrows.log
  refine ⟨Int.le_trans h.le hgrows.maxRev, fun newer p rev older heq hlt => ?_⟩
  rw [hlog] at heq
  rcases append_eq_append_iff.mp heq with ⟨between, rfl, hold⟩ | ⟨between, hnew, hold⟩
  · exact (h.reads between p rev older hold hlt).append newer'
  · -- the read is one of the new entries
    cases between with
    | nil =>
      rw [append_nil] at hnew
      subst hnew
      rw [nil_append] at hold
      exact append_nil newer' ▸ (h.reads [] p rev older hold.symm hlt).append newer'
    | cons e between =>
      obtain ⟨rfl, -⟩ := List.cons.inj hold
      have hle := hreads p rev (by rw [hnew]; exact mem_append_right _ mem_cons_self)
      have := h.le
      omega

theorem alive_iff : s.Alive p ↔ ∃ state, s.instances[p.name]? = some ⟨p.generation, state⟩ := by
  unfold Alive
  constructor
  · intro h
    obtain ⟨i, hi, hgeneration⟩ := Option.map_eq_some_iff.mp h
    exact ⟨i.state, hi.trans (by rw [← hgeneration])⟩
  · rintro ⟨state, hstate⟩
    rw [hstate]
    rfl

section
variable (h : s.Inv)
include h

theorem Inv.answered : s.Answered s.restartRequestedRev :=
  ⟨h.requested_le, fun newer p rev older heq hlt => (h.reads newer p rev older heq).requested hlt⟩

/-- An entry of the current process comes after everything of its instance. -/
theorem Inv.follows (halive : s.Alive p) {e : Entry} (he : e.process = p) (hspawn : e ≠ .spawned p) :
    ∀ e' ∈ s.log, e.Follows e' := by
  intro e' he' hname
  obtain ⟨i, hi, hle⟩ := h.known e' he'
  obtain ⟨state, hstate⟩ := alive_iff.mp halive
  rw [hname, he, hstate] at hi
  cases hi
  exact ⟨he ▸ hle, fun heq => absurd (he ▸ heq) hspawn⟩

/-- The current process logs an entry, over a table that may have changed. -/
theorem Inv.extend (halive : s.Alive p) {e : Entry} (he : e.process = p) (hbooted : ∀ rev, e ≠ .booted p rev)
    (hscheduled : e ≠ .scheduled p) (hspawned : e ≠ .spawned p) {db : Database} {requested}
    (numbered : db.store.Numbered) (requested_le : requested ≤ db.store.maxRev)
    (reads : Reads db.store.maxRev requested (e :: s.log)) :
    Inv { s with db := db, restartRequestedRev := requested, log := e :: s.log } where
  numbered := numbered
  requested_le := requested_le
  reads := reads
  journal := by
    refine ⟨.plain (h.follows halive he hspawned) ?_ ?_, h.journal⟩
    · rintro q rev rfl
      cases he
      exact hbooted rev rfl
    · rintro q rfl
      cases he
      exact hscheduled rfl
  known := by
    intro e' he'
    rcases mem_cons.mp he' with rfl | he'
    · obtain ⟨state, hstate⟩ := alive_iff.mp halive
      exact ⟨_, he ▸ hstate, Nat.le_of_eq (he ▸ rfl)⟩
    · exact h.known e' he'
  memory := by
    intro name i hi
    refine (h.memory name i hi).cons ?_ ?_
    · rintro rev rfl
      cases he
      exact hbooted rev rfl
    · rintro rfl
      cases he
      exact hscheduled rfl

/-- The current process writes to its memory. -/
theorem Inv.setState (halive : s.Alive p) (state : ProcessState) {e : Entry} (he : e.process = p)
    (hspawned : e ≠ .spawned p) (hread : ∀ q rev, e ≠ .read q rev) (hok : (∀ e' ∈ s.log, e.Follows e') → EntryOk e s.log)
    (hmemory : MemoryOk (e :: s.log) p.name ⟨p.generation, some state⟩) : Inv (s.setState p state e) where
  numbered := h.numbered
  requested_le := h.requested_le
  reads := h.reads.cons (fun q rev heq => absurd heq (hread q rev)) fun _ _ hold => hold.pass e
  journal := ⟨hok (h.follows halive he hspawned), h.journal⟩
  known := by
    intro e' he'
    dsimp only [Cluster.setState]
    rw [Table.getElem?_insert]
    split
    · rename_i hname
      rcases mem_cons.mp he' with rfl | he'
      · exact ⟨_, rfl, Nat.le_of_eq (he ▸ rfl)⟩
      · obtain ⟨i, hi, hle⟩ := h.known e' he'
        obtain ⟨old, hold⟩ := alive_iff.mp halive
        rw [← hname, hold] at hi
        cases hi
        exact ⟨_, rfl, hle⟩
    · rename_i hname
      rcases mem_cons.mp he' with rfl | he'
      · exact absurd (congrArg Process.name he).symm hname
      · exact h.known e' he'
  memory := by
    intro name i hi
    dsimp only [Cluster.setState] at hi
    rw [Table.getElem?_insert] at hi
    split at hi
    · rename_i hname
      subst hname
      cases hi
      exact hmemory
    · rename_i hname
      refine (h.memory name i hi).cons ?_ ?_
      · rintro rev rfl
        exact hname (congrArg Process.name he).symm
      · rintro rfl
        exact hname (congrArg Process.name he).symm

theorem Inv.spawn (name : String) (io : CallIo) : Inv (s.request (.spawn name) io).1 := by
  let p : Process := ⟨name, ((s.instances[name]?).map Instance.generation).getD 0 + 1⟩
  have hlater : ∀ e ∈ s.log, e.process.name = name → e.process.generation < p.generation := by
    intro e he hname
    obtain ⟨i, hi, hle⟩ := h.known e he
    rw [hname] at hi
    have hp : p.generation = i.generation + 1 := by simp [p, hi]
    omega
  refine ⟨h.numbered, h.requested_le, ?_, ?_, ?_, ?_⟩
  · exact h.reads.cons nofun fun _ _ hold => hold.pass _
  · refine ⟨.plain ?_ nofun nofun, h.journal⟩
    intro e he hname
    exact ⟨Nat.le_of_lt (hlater e he hname), fun _ => hlater e he hname⟩
  · intro e he
    dsimp only [request]
    rw [Table.getElem?_insert]
    split
    · rename_i hname
      rcases mem_cons.mp he with rfl | he
      · exact ⟨_, rfl, Nat.le_refl _⟩
      · exact ⟨_, rfl, Nat.le_of_lt (hlater e he hname.symm)⟩
    · rename_i hname
      rcases mem_cons.mp he with rfl | he
      · exact absurd rfl hname
      · exact h.known e he
  · intro other i hi
    dsimp only [request] at hi
    rw [Table.getElem?_insert] at hi
    split at hi
    · rename_i hname
      subst hname
      cases hi
      refine ⟨nofun, fun _ rev hmem => ?_⟩
      rcases mem_cons.mp hmem with heq | hmem
      · cases heq
      · exact absurd (hlater _ hmem rfl) (Nat.lt_irrefl _)
    · exact (h.memory other i hi).cons nofun nofun

/-- A statement of the current process: the table grows, and a read gives its newest revision. -/
theorem Inv.statement (halive : s.Alive p) (q : Statement) (io : CallIo) :
    Inv (s.request (.statement p q) io).1 := by
  have hrenumbers := s.db.renumbers h.numbered q io.fate
  have hnumbered := hrenumbers.numbered h.numbered
  have hmax := hrenumbers.maxRev_le h.numbered
  have hrequested := Int.le_trans h.requested_le hmax
  dsimp only [request]
  unfold statementEntries
  split
  · rename_i hfate
    rw [hfate]
    refine h.extend halive rfl (fun _ heq => by cases heq) (fun heq => by cases heq) (fun heq => by cases heq)
      h.numbered h.requested_le (h.reads.cons ?_ fun _ _ hold => hold.pass _)
    intro q rev heq
    cases heq
    exact ⟨Int.le_refl _, h.requested_le⟩
  · split
    · rename_i hsame
      refine ⟨hnumbered, hrequested, ?_, h.journal, h.known, h.memory⟩
      dsimp only
      rw [hsame]
      exact h.reads
    · rename_i hchanged
      refine h.extend halive rfl (fun _ heq => by cases heq) (fun heq => by cases heq) (fun heq => by cases heq)
        hnumbered hrequested (h.reads.cons nofun ?_)
      intro newer rev hold
      exact ⟨fun hlt => ⟨p, _, mem_cons_self, hlt⟩, fun hlt => (hold.requested hlt).append [_]⟩

theorem Inv.requestRestart (halive : s.Alive p) : Inv (s.requestRestart p) := by
  refine h.extend halive rfl (fun _ heq => by cases heq) (fun heq => by cases heq) (fun heq => by cases heq)
    h.numbered (Int.le_refl _) (h.reads.cons nofun ?_)
  intro newer rev hold
  exact ⟨fun hlt => (hold.committed hlt).append [_], fun hlt => ⟨[], p, _, newer, rfl, hold.committed hlt⟩⟩

theorem Inv.booted (halive : s.Alive p) {rev} (hread : .read p rev ∈ s.log) (io : CallIo) :
    Inv (s.request (.booted p rev) io).1 := by
  dsimp only [request]
  split
  · exact h
  · rename_i hnone
    obtain ⟨state, hstate⟩ := alive_iff.mp halive
    have hold := h.memory p.name _ hstate
    have hnot : ∀ rev', .booted p rev' ∉ s.log :=
      hold.notBooted (by simpa [state?, hstate] using hnone)
    refine h.setState halive _ rfl (fun heq => by cases heq) (fun _ _ heq => by cases heq) (fun hfollows => ?_) ?_
    · refine ⟨hfollows, fun q rev' heq => ?_, nofun⟩
      cases heq
      exact ⟨hread, hnot⟩
    · refine ⟨fun st hst => ?_, nofun⟩
      cases hst
      refine ⟨mem_cons_self, fun _ hmem => ?_⟩
      rcases mem_cons.mp hmem with heq | hmem
      · cases heq
      · -- a scheduled restart is one of a booted process
        obtain ⟨older, hsub, hentry⟩ := h.journal.of_mem hmem
        obtain ⟨-, rev', hbooted, -⟩ := hentry.scheduled p rfl
        exact hnot rev' (hsub hbooted)

end

/-- What the programs may call: a boot reports a revision it read, and a restart is scheduled
when one was requested above the revision that was loaded. -/
def Allowed (s : Cluster) : Call → Prop
  | .booted p rev => .read p rev ∈ s.log
  | .scheduleRestart p _ => ∃ rev requested, .booted p rev ∈ s.log ∧ rev < requested ∧ s.Answered requested
  | _ => True

theorem Inv.scheduleRestart (h : s.Inv) (halive : s.Alive p) {after} (hallowed : s.Allowed (.scheduleRestart p after))
    (io : CallIo) : Inv (s.request (.scheduleRestart p after) io).1 := by
  obtain ⟨rev, requested, hbooted, hlt, hanswered⟩ := hallowed
  dsimp only [request]
  split
  · rename_i loadedRev hstate?
    obtain ⟨state, hstate⟩ := alive_iff.mp halive
    have hold := h.memory p.name _ hstate
    have hstate' : state = some ⟨loadedRev, none⟩ := by simpa [state?, hstate] using hstate?
    obtain ⟨hloaded, hnot⟩ := hold.booted _ hstate'
    refine h.setState halive _ rfl (fun heq => by cases heq) (fun _ _ heq => by cases heq) (fun hfollows => ?_) ?_
    · refine ⟨hfollows, nofun, fun q heq => ?_⟩
      cases heq
      exact ⟨hnot rfl, rev, hbooted, fun newer older heq => hanswered.reads newer p rev older heq hlt⟩
    · refine ⟨fun st hst => ?_, nofun⟩
      cases hst
      exact ⟨mem_cons_of_mem _ hloaded, nofun⟩
  · exact h
  · exact h

/-- **Every call keeps the invariant.** -/
theorem Inv.request (h : s.Inv) {q} (hallowed : s.Allowed q) (halive : ∀ p ∈ q.process?, s.Alive p) (io : CallIo) :
    Inv (s.request q io).1 := by
  cases q with
  | spawn name => exact h.spawn name io
  | statement p q => exact h.statement (halive p rfl) q io
  | requestRestart p =>
    obtain ⟨fate, now⟩ := io
    cases fate with
    | served | unconfirmed => exact h.requestRestart (halive p rfl)
    | failed => exact h
  | booted p rev => exact h.booted (halive p rfl) hallowed io
  | scheduleRestart p after => exact h.scheduleRestart (halive p rfl) hallowed io
  | maxRev | metaRow | loadedRev | restartScheduled | now => exact h

/-- An entry that is no read. -/
theorem grows_cons {e} (hlog : s'.log = e :: s.log) (hdb : s'.db = s.db) (hread : ∀ p rev, e ≠ .read p rev) :
    s.Grows s' := by
  refine ⟨hdb ▸ Int.le_refl _, [e], hlog, fun p rev hmem => ?_⟩
  exact absurd (mem_singleton.mp hmem).symm (hread p rev)

theorem grows_request (hnumbered : s.db.store.Numbered) (q : Call) (io : CallIo) : s.Grows (s.request q io).1 := by
  cases q with
  | spawn name => exact grows_cons rfl rfl nofun
  | statement p q =>
    refine ⟨(s.db.renumbers hnumbered q io.fate).maxRev_le hnumbered, _, rfl, ?_⟩
    intro p' rev hmem
    exact Int.le_of_eq (read_mem_statementEntries hmem).symm
  | requestRestart p =>
    obtain ⟨fate, now⟩ := io
    cases fate with
    | served | unconfirmed => exact grows_cons rfl rfl nofun
    | failed => exact .refl s
  | booted p rev =>
    dsimp only [request]
    split
    · exact .refl s
    · exact grows_cons rfl rfl nofun
  | scheduleRestart p after =>
    dsimp only [request]
    split
    · exact grows_cons rfl rfl nofun
    · exact .refl s
    · exact .refl s
  | maxRev | metaRow | loadedRev | restartScheduled | now => exact .refl s

/-- Only the current process of an instance gets its calls served. -/
def discipline : Discipline cluster where
  inv := Inv
  rely := Grows
  allowed := Allowed
  admits := fun s q _ => ∀ p ∈ q.process?, s.Alive p
  moves := fun _ _ => True
  rely_refl := Grows.refl
  rely_trans := fun h h' => h.trans h'
  request_keeps := fun h hallowed halive => ⟨h.request hallowed halive _, grows_request h.numbered _ _⟩
  move_keeps := by
    rintro s ⟨n⟩ h -
    have hle : s.db.store.seq ≤ s.db.store.seq + n := by omega
    refine ⟨⟨⟨Int.le_trans h.numbered.nonneg hle, ?_⟩, h.requested_le, h.reads, h.journal, h.known, h.memory⟩, ?_⟩
    · exact fun k r hr => Int.le_trans (h.numbered.rev_le k r hr) hle
    · exact ⟨Int.le_refl _, [], rfl, nofun⟩

end Cluster

/-! ## The programs -/

/-- The revision boot loads is the newest one of rows it read. -/
theorem SettingsService.loadStored_path {es stored}
    (h : loadStored.Path es (.ok stored)) : ∃ rows, ⟨.loadAll, .ok rows⟩ ∈ es ∧ stored = rows.map toStored := by
  cases h with
  | @call _ _ r _ _ h =>
    cases r with
    | error e => cases h
    | ok rows =>
      cases h
      exact ⟨rows, mem_cons_self, rfl⟩

namespace SettingsService

variable {P : UrlParser} {svc : SettingsService} {es : List ((q : Statement) × q.Reply)}

theorem resettingUnpaired_path {n stored ov}
    (h : (svc.resettingUnpaired P n stored).Path es (.ok ov)) : ov.loadedRev = maxRev stored ∨
      ∃ rows, ⟨.loadAll, .ok rows⟩ ∈ es ∧ ov.loadedRev = maxRev (rows.map toStored) := by
  induction n generalizing es stored with
  | zero =>
    cases h
    exact .inl rfl
  | succ n ih =>
    unfold resettingUnpaired at h
    dsimp only at h
    split at h
    · cases h
      exact .inl rfl
    · cases h with
      | @call _ _ r es _ h =>
        -- a reset and a conflict both read the rows again
        have hagain : (loadStored.andThen (svc.resettingUnpaired P n)).Path es (.ok ov) ∨ ∃ e, r = .error (.db e) := by
          cases r with
          | ok rev => exact .inl h
          | error e =>
            cases e with
            | conflict expected current => exact .inl h
            | db e => exact .inr ⟨e, rfl⟩
        rcases hagain with hagain | ⟨e, rfl⟩
        · rcases hagain.of_andThen with ⟨e, heq⟩ | ⟨es₁, es₂, stored', rfl, hload, hrest⟩
          · cases heq
          · right
            rcases ih hrest with hrev | ⟨rows, hmem, hrev⟩
            · obtain ⟨rows, hmem, rfl⟩ := loadStored_path hload
              exact ⟨rows, mem_cons_of_mem _ (mem_append_left _ hmem), hrev⟩
            · exact ⟨rows, mem_cons_of_mem _ (mem_append_right _ hmem), hrev⟩
        · cases h

theorem boot_path {breakGlass b} (h : (svc.boot P breakGlass).Path es (.ok b)) :
    ∃ rows, ⟨.loadAll, .ok rows⟩ ∈ es ∧ b.loadedRev = maxRev (rows.map toStored) := by
  unfold boot at h
  cases h with
  | @call _ _ r es _ h =>
    cases r with
    | error e => cases h
    | ok _ =>
      rcases h.of_andThen with ⟨e, heq⟩ | ⟨es₁, es₂, _, rfl, -, hchoose⟩
      · cases heq
      · have hlater : ∀ {rows}, (⟨Statement.loadAll, .ok rows⟩ : (q : Statement) × q.Reply) ∈ es₂ →
            ⟨.loadAll, .ok rows⟩ ∈ ⟨.importFiltered (svc.importFilter P) svc.base, .ok ()⟩ :: (es₁ ++ es₂) :=
          fun hmem => mem_cons_of_mem _ (mem_append_right es₁ hmem)
        unfold chooseConfig at hchoose
        split at hchoose
        · rcases hchoose.of_andThen with ⟨e, heq⟩ | ⟨es₃, es₄, stored, rfl, hload, hret⟩
          · cases heq
          · cases hret
            obtain ⟨rows, hmem, rfl⟩ := loadStored_path hload
            exact ⟨rows, hlater (mem_append_left _ hmem), rfl⟩
        · rcases hchoose.of_andThen with ⟨e, heq⟩ | ⟨es₃, es₄, ov, rfl, hoverlay, hret⟩
          · cases heq
          · cases hret
            rcases hoverlay.of_andThen with ⟨e, heq⟩ | ⟨es₅, es₆, stored, rfl, hload, hreset⟩
            · cases heq
            · rcases resettingUnpaired_path hreset with hrev | ⟨rows, hmem, hrev⟩
              · obtain ⟨rows, hmem, rfl⟩ := loadStored_path hload
                exact ⟨rows, hlater (mem_append_left _ (mem_append_left _ hmem)), hrev⟩
              · exact ⟨rows, hlater (mem_append_left _ (mem_append_right _ hmem)), hrev⟩

end SettingsService

section

variable {α : Type} {s s' : Cluster} {p : Process}

/-- Statements are always allowed, and what a process read is in the log. -/
theorem run_safe (p : Process) (action : Action α) (s : Cluster) :
    Safe discipline (fun a s => ∃ es, action.Path es a ∧ ∀ rows, ⟨.loadAll, .ok rows⟩ ∈ es →
      .read p (maxRev (rows.map toStored)) ∈ s.log) (p.run action) s := by
  have hsafe : Safe discipline (fun a s => ∃ es, (p.run action).Path es a ∧ ∀ x ∈ es, ∀ rows,
      x = ⟨.statement p .loadAll, .ok rows⟩ → .read p (maxRev (rows.map toStored)) ∈ s.log) (p.run action) s := by
    refine of_path (P := fun q => ∃ q', q = .statement p q') (T := fun q r (s : Cluster) => ∀ rows,
      (⟨q, r⟩ : (q : Call) × q.Reply) = ⟨.statement p .loadAll, .ok rows⟩ →
        Entry.read p (maxRev (rows.map toStored)) ∈ s.log) ?_ ?_ ?_ (Prog.uses_via (fun q => ⟨q, rfl⟩) action)
    · rintro s _ ⟨q, rfl⟩
      trivial
    · rintro s q s' r ⟨⟨fate, now⟩, -, hrequest⟩ rows heq
      cases heq
      cases fate with
      | served =>
        cases hrequest
        exact mem_cons_self
      | failed | unconfirmed => cases hrequest
    · exact fun q r s s' htrace hgrows rows heq => hgrows.mem (htrace rows heq)
  apply hsafe.weaken
  rintro a s' - - ⟨es', hpath, htrace⟩
  obtain ⟨es, hpath, hes⟩ := hpath.of_via
  refine ⟨es, hpath, fun rows hmem => ?_⟩
  obtain ⟨r, rfl, hmem'⟩ := hes _ hmem
  exact htrace _ hmem' rows rfl

/-- The revision a process finds in its memory is the one its boot reported. -/
theorem answers_loadedRev (h : s.Inv) {loaded} (hanswer : discipline.Answers s (.loadedRev p) s' (some loaded)) :
    s' = s ∧ .booted p loaded ∈ s.log := by
  obtain ⟨io, halive, hrequest⟩ := hanswer
  obtain ⟨state, hstate⟩ := alive_iff.mp (halive p rfl)
  obtain ⟨rfl, hreply⟩ := Prod.ext_iff.mp hrequest
  obtain ⟨st, hst, rfl⟩ := Option.map_eq_some_iff.mp hreply
  refine ⟨rfl, ((h.memory p.name _ hstate).booted st ?_).1⟩
  simpa [state?, hstate] using hst

theorem pollOnce_safe (breakGlass : Bool) (lastSeenRev : Int) (delay : Nat) :
    Safe discipline (fun _ _ => True) (pollOnce p breakGlass lastSeenRev delay) s := by
  refine call fun _ _ _ => ⟨trivial, fun s₁ r _ _ _ => ?_⟩
  cases r with
  | error e => exact ret fun _ _ _ => trivial
  | ok rev =>
    have hreload : Safe discipline (Returns fun _ _ => True)
        (if lastSeenRev < rev then p.run reloadLiveNow else .ret (.ok ())) s₁ := by
      split
      · exact (run_safe p _ s₁).weaken fun _ _ _ _ _ _ _ => trivial
      · exact ok fun _ _ _ => trivial
    refine weaken (Q := Returns fun _ _ => True) (hreload.andThen fun _ s₂ _ _ _ => ?_) fun _ _ _ _ _ => trivial
    split
    · exact ok fun _ _ _ => trivial
    · refine call fun s₃ hinv₃ _ => ⟨trivial, fun s₄ r hanswer _ _ => ?_⟩
      cases r with
      | error e => exact error e
      | ok requested =>
        have hanswered : s₄.Answered requested := by
          obtain ⟨⟨fate, now⟩, -, hrequest⟩ := hanswer
          cases fate with
          | served =>
            cases hrequest
            exact hinv₃.answered
          | failed | unconfirmed => cases hrequest
        refine call fun s₅ hinv₅ hgrows₅ => ⟨trivial, fun s₆ loaded hanswer _ hgrows₆ => ?_⟩
        cases loaded with
        | none => exact ok fun _ _ _ => trivial
        | some loaded =>
          obtain ⟨rfl, hbooted⟩ := answers_loadedRev hinv₅ hanswer
          rw [Option.any_some]
          split
          · rename_i hlt
            refine call fun s₇ _ hgrows₇ => ⟨trivial, fun s₈ scheduled _ _ hgrows₈ => ?_⟩
            split
            · exact ok fun _ _ _ => trivial
            · refine call fun s₉ _ hgrows₉ => ⟨?_, fun _ _ _ _ _ => ok fun _ _ _ => trivial⟩
              have hgrows := (hgrows₇.trans hgrows₈).trans hgrows₉
              exact ⟨loaded, requested, hgrows.mem hbooted, of_decide_eq_true hlt, (hanswered.mono hgrows₅).mono hgrows⟩
          · exact ok fun _ _ _ => trivial

theorem scheduleOwn_safe {requested} (hanswered : s.Answered requested) (restartDelay : Nat) :
    Safe discipline (fun _ _ => True) (scheduleOwn p requested restartDelay) s := by
  refine call fun s₁ hinv₁ hgrows₁ => ⟨trivial, fun s₂ loaded hanswer _ _ => ?_⟩
  cases loaded with
  | none => exact ret fun _ _ _ => trivial
  | some loaded =>
    obtain ⟨rfl, hbooted⟩ := answers_loadedRev hinv₁ hanswer
    rw [Option.any_some]
    split
    · rename_i hlt
      refine call fun s₃ _ hgrows₃ => ⟨?_, fun _ _ _ _ _ => ?_⟩
      · exact ⟨loaded, requested, hgrows₃.mem hbooted, of_decide_eq_true hlt, (hanswered.mono hgrows₁).mono hgrows₃⟩
      · exact call fun _ _ _ => ⟨trivial, fun _ _ _ _ _ => ret fun _ _ _ => trivial⟩
    · exact ret fun _ _ _ => trivial

theorem applyRestart_safe (svc : SettingsService) (P : UrlParser) (breakGlass : Bool) (restartDelay : Nat) :
    Safe discipline (fun _ _ => True) (svc.applyRestart P p breakGlass restartDelay) s := by
  unfold applyRestart
  split
  · exact ret fun _ _ _ => trivial
  · apply (run_safe p _ s).bind
    intro r s₁ _ _ _
    cases r with
    | error e => exact ret fun _ _ _ => trivial
    | ok stored =>
      dsimp only
      split
      · refine call fun s₂ hinv₂ _ => ⟨trivial, fun s₃ r hanswer hinv₃ _ => ?_⟩
        cases r with
        | error e => exact ret fun _ _ _ => trivial
        | ok requested =>
          obtain ⟨⟨fate, now⟩, -, hrequest⟩ := hanswer
          cases fate with
          | served =>
            cases hrequest
            exact scheduleOwn_safe hinv₃.answered restartDelay
          | failed | unconfirmed => cases hrequest
      · exact ret fun _ _ _ => trivial

theorem clusterProgram_safe (P : UrlParser) (job : ClusterJob) (s : Cluster) :
    Safe discipline (fun _ _ => True) (job.program P) s := by
  cases job with
  | boot name svc breakGlass =>
    refine call fun _ _ _ => ⟨trivial, fun s₁ p _ _ _ => ?_⟩
    apply (run_safe p _ s₁).bind
    rintro r s₂ - - ⟨es, hpath, hreads⟩
    cases r with
    | error e => exact ret fun _ _ _ => trivial
    | ok b =>
      obtain ⟨rows, hmem, hrev⟩ := boot_path hpath
      refine call fun s₃ _ hgrows => ⟨?_, fun _ _ _ _ _ => ret fun _ _ _ => trivial⟩
      exact hgrows.mem (hrev ▸ hreads rows hmem)
  | patch p svc request => exact (run_safe p _ s).bind fun _ _ _ _ _ => ret fun _ _ _ => trivial
  | poll p breakGlass lastSeenRev delay =>
    exact (pollOnce_safe breakGlass lastSeenRev delay).bind fun _ _ _ _ _ => ret fun _ _ _ => trivial
  | apply p svc breakGlass restartDelay =>
    exact (applyRestart_safe svc P breakGlass restartDelay).bind fun _ _ _ _ _ => ret fun _ _ _ => trivial

end

/-! ## Whole runs -/

/-- Only the current process of an instance gets its calls served. -/
def CurrentOnly (d : Deployment) : Event ClusterJob CallIo Move → Prop
  | .request place _ => ∀ q ∈ d.next? place, ∀ p ∈ q.process?, d.state.Alive p
  | _ => True

instance CurrentOnly.decidable (d : Deployment) : (e : Event ClusterJob CallIo Move) → Decidable (CurrentOnly d e)
  | .request place _ => inferInstanceAs (Decidable (∀ q ∈ d.next? place, _))
  | .start _ | .move _ | .die => isTrue trivial

/-- The process of `name` scheduled its restart. -/
def Entry.schedules (name : String) : Entry → Bool
  | .scheduled p => p.name = name
  | _ => false

/-- An instance was started in place of a process that had scheduled its restart. -/
def Entry.restarts (log : List Entry) (name : String) : Entry → Bool
  | .spawned p => decide (p.name = name) && decide (.scheduled ⟨name, p.generation - 1⟩ ∈ log)
  | _ => false

section

variable {log newer older : List Entry} {name : String}

/-- A boot reports a revision it read. -/
theorem read_of_booted (h : Journal EntryOk log) {p rev} (hbooted : .booted p rev ∈ log) :
    .read p rev ∈ log := by
  obtain ⟨older, hsub, hok⟩ := h.of_mem hbooted
  exact hsub (hok.booted p rev rfl).1

/-- What two entries of the log have to do with each other. -/
theorem Journal.entries (h : Journal EntryOk log) :
    log.Pairwise fun e e' => e.Follows e' ∧ ∀ p, e = .scheduled p → e' ≠ .scheduled p := by
  refine h.pairwise fun e older e' hok hmem => ⟨hok.follows e' hmem, ?_⟩
  rintro p rfl rfl
  exact (hok.scheduled p rfl).1 hmem

theorem eq_scheduled_of_schedules {e : Entry} (h : e.schedules name = true) : ∃ g, e = .scheduled ⟨name, g⟩ := by
  cases e with
  | scheduled p =>
    cases of_decide_eq_true h
    exact ⟨p.generation, rfl⟩
  | _ => cases h

theorem eq_spawned_of_restarts {e : Entry} (h : e.restarts log name = true) :
    ∃ g, e = .spawned ⟨name, g⟩ ∧ .scheduled ⟨name, g - 1⟩ ∈ log := by
  cases e with
  | spawned p =>
    obtain ⟨hname, hscheduled⟩ := Bool.and_eq_true_iff.mp h
    cases of_decide_eq_true hname
    exact ⟨p.generation, rfl, of_decide_eq_true hscheduled⟩
  | _ => cases h

section
variable (h : Journal EntryOk (newer ++ older))
include h

/-- With no request in the newer part of the log, a process that scheduled its restart read
in the older one. -/
theorem read_before_of_scheduled (hquiet : ∀ p rev, .requested p rev ∉ newer) {p}
    (hp : .scheduled p ∈ newer ++ older) : ∃ rev, .read p rev ∈ older := by
  obtain ⟨before, after, hsplit⟩ := append_of_mem hp
  rw [hsplit] at h
  obtain ⟨-, rev, hbooted, hrequested⟩ := h.split.scheduled p rfl
  obtain ⟨since, until', hafter⟩ := append_of_mem (read_of_booted h.older.2 hbooted)
  obtain ⟨q, c, hmem⟩ := (hrequested since until' hafter).exists
  rw [hafter, ← cons_append, ← append_assoc] at hsplit
  rcases append_eq_append_iff.mp hsplit with ⟨between, -, hold⟩ | ⟨between, hnew, -⟩
  · exact ⟨rev, hold ▸ mem_append_right between mem_cons_self⟩
  · -- the read is among the newer entries, and so is the request
    refine absurd ?_ (hquiet q c)
    rw [hnew]
    exact mem_append_left _ (mem_append_right _ (mem_cons_of_mem _ hmem))

/-- Once there are no requests any more, an instance schedules at most one more restart. -/
theorem schedules_once (hquiet : ∀ p rev, .requested p rev ∉ newer) (name : String) :
    (newer.filter (Entry.schedules name)).length ≤ 1 := by
  obtain ⟨hnewer, -, hacross⟩ := pairwise_append.mp (Journal.entries h)
  refine length_filter_le_one (hnewer.imp_of_mem fun {e e'} he he' ⟨hfollows, hother⟩ hschedules => ?_)
  rw [Bool.eq_false_iff]
  intro hschedules'
  obtain ⟨g, rfl⟩ := eq_scheduled_of_schedules hschedules
  obtain ⟨g', rfl⟩ := eq_scheduled_of_schedules hschedules'
  obtain ⟨rev, hread⟩ := read_before_of_scheduled h hquiet (mem_append_left older he)
  have hle : g' ≤ g := (hfollows rfl).1
  have hge : g ≤ g' := ((hacross _ he' _ hread).1 rfl).1
  exact hother _ rfl (by rw [Nat.le_antisymm hle hge])

/-- And it is restarted at most once more. -/
theorem restarts_once (hquiet : ∀ p rev, .requested p rev ∉ newer) (name : String) :
    (newer.filter (Entry.restarts (newer ++ older) name)).length ≤ 1 := by
  obtain ⟨hnewer, -, hacross⟩ := pairwise_append.mp (Journal.entries h)
  refine length_filter_le_one (hnewer.imp_of_mem fun {e e'} _ he' ⟨hfollows, _⟩ hrestarts => ?_)
  rw [Bool.eq_false_iff]
  intro hrestarts'
  obtain ⟨g, rfl, hscheduled⟩ := eq_spawned_of_restarts hrestarts
  obtain ⟨g', rfl, -⟩ := eq_spawned_of_restarts hrestarts'
  obtain ⟨rev, hread⟩ := read_before_of_scheduled h hquiet hscheduled
  have hlt : g' < g := (hfollows rfl).2 rfl
  have hbefore : g - 1 < g' := ((hacross _ he' _ hread).1 rfl).2 rfl
  omega

end

/-- A boot reports once. -/
theorem booted_once {p rev rev'} (h : Journal EntryOk log) (hrev : .booted p rev ∈ log)
    (hrev' : .booted p rev' ∈ log) : rev = rev' := by
  induction log with
  | nil => cases hrev
  | cons e older ih =>
    rcases mem_cons.mp hrev with heq | hold <;> rcases mem_cons.mp hrev' with heq' | hold'
    · cases heq.trans heq'.symm
      rfl
    · exact absurd hold' ((h.1.booted p rev heq.symm).2 rev')
    · exact absurd hold ((h.1.booted p rev' heq'.symm).2 rev)
    · exact ih h.2 hold hold'

end

theorem deployment_inv {P} {store : Store} (numbered : store.Numbered) {requestedRev}
    (requested_le : requestedRev ≤ store.maxRev) {h d}
    (run : Run (deploymentStep P) (fun _ d e => CurrentOnly d e) (.start store requestedRev) h d) : d.state.Inv := by
  have run' : Run (deploymentStep P) (fun _ d e => PoolOk discipline (fun _ _ => True) d e)
      (.start store requestedRev) h d := run.mono fun _ d e hok => by
    cases e with
    | request place io => exact hok
    | _ => trivial
  refine (Pool.sound (Q := fun _ _ _ => True) (fun job s _ _ => clusterProgram_safe P job s) ?_ run').1
  refine ⟨numbered, requested_le, ?_, trivial, nofun, ?_⟩
  · intro newer p rev older heq
    cases newer <;> cases heq
  · intro name i hi
    simp at hi

/-- **No restart loop.** In every run of boots, saves, polls and restart requests of any number
of instances: a process that schedules its restart has booted with a revision that it read,
and after each read that gave it a newer revision was committed and then a restart requested.
So from any point on without requests an instance schedules at most one restart, and is
restarted at most once for one it scheduled. -/
theorem no_restart_loop (P : UrlParser) (store : Store) (numbered : store.Numbered) (requestedRev : Int)
    (requested_le : requestedRev ≤ store.maxRev) (h : List (Event ClusterJob CallIo Move)) (d : Deployment)
    (run : Run (deploymentStep P) (fun _ d e => CurrentOnly d e) (.start store requestedRev) h d) :
    (∀ newer p older, d.state.log = newer ++ .scheduled p :: older → ∃ loadedRev,
      .booted p loadedRev ∈ older ∧ (∀ rev, .booted p rev ∈ d.state.log → rev = loadedRev) ∧ .read p loadedRev ∈ older ∧
      ∀ since before, older = since ++ .read p loadedRev :: before → Requested loadedRev since) ∧
    ∀ newer older, d.state.log = newer ++ older → (∀ p rev, .requested p rev ∉ newer) → ∀ name,
      (newer.filter (Entry.schedules name)).length ≤ 1 ∧
      (newer.filter (Entry.restarts d.state.log name)).length ≤ 1 := by
  have hinv := deployment_inv numbered requested_le run
  refine ⟨fun newer p older heq => ?_, fun newer older heq hquiet name => ?_⟩
  · have hlog := hinv.journal
    rw [heq] at hlog
    obtain ⟨-, loadedRev, hbooted, hrequested⟩ := hlog.split.scheduled p rfl
    have hmem : .booted p loadedRev ∈ d.state.log :=
      heq ▸ mem_append_right newer (mem_cons_of_mem _ hbooted)
    exact ⟨loadedRev, hbooted, fun rev hrev => booted_once hinv.journal hrev hmem,
      read_of_booted hlog.older.2 hbooted, hrequested⟩
  · have hlog := hinv.journal
    rw [heq] at hlog
    exact ⟨schedules_once hlog hquiet name, heq ▸ restarts_once hlog hquiet name⟩

/-- An instance boots, a save is made through it, and it is asked to apply it. -/
def appliedSave : List (Event ClusterJob CallIo Move) :=
  let served : Event ClusterJob CallIo Move := .request 0 ⟨.served, 0⟩
  [.start (.boot "a" keyedService false), served, served, served, served, served,
    .start (.patch ⟨"a", 1⟩ keyedService { lnbitsSave with expectedRev := 37 }), served, served, served,
    .start (.apply ⟨"a", 1⟩ keyedService false 5), served, served, served, served]

theorem no_restart_loop_appliedSave :
    ∃ h d since before, Run (deploymentStep UrlParser.https) (fun _ d e => CurrentOnly d e) (.start .empty 0) h d ∧
      d.state.log = .scheduled ⟨"a", 1⟩ :: (since ++ .read ⟨"a", 1⟩ 37 :: before) ∧ Requested 37 since := by
  -- The process boots with revision 37 and schedules its restart.
  obtain ⟨h, d, run, hhead, hbooted⟩ : ∃ h d, Run (deploymentStep UrlParser.https) (fun _ d e => CurrentOnly d e) (.start .empty 0) h d ∧
      d.state.log.head? = some (.scheduled ⟨"a", 1⟩) ∧ .booted ⟨"a", 1⟩ 37 ∈ d.state.log :=
    Run.exists_of_follows appliedSave (by decide +kernel)
  obtain ⟨older, hlog⟩ := head?_eq_some_iff.mp hhead
  obtain ⟨hscheduled, -⟩ :=
    no_restart_loop UrlParser.https .empty empty_numbered 0 (Int.le_of_eq rfl) _ _ run
  obtain ⟨loadedRev, -, honly, hread, hrequested⟩ := hscheduled [] ⟨"a", 1⟩ older hlog
  have hloaded : 37 = loadedRev := honly 37 hbooted
  subst hloaded
  obtain ⟨since, before, rfl⟩ := append_of_mem hread
  exact ⟨h, d, since, before, run, hlog, hrequested since before rfl⟩

end MatrixMedia.Settings
